import Scribe.Proofs.Script.Tokens
import Scribe.Proofs.Text.OneLine

/-!
# The tokens at the front of a line

A word, a sign of assignment and the blanks between them are read one after the other, whatever
follows. A line that starts with such a front keeps it when its comment and the blanks at its end
are dropped.
-/
namespace Scribe

namespace Text

def IsWord (cs : List Char) : Prop := ∀ c ∈ cs, isWordChar c = true

instance (cs : List Char) : Decidable (IsWord cs) :=
  inferInstanceAs (Decidable (∀ c ∈ cs, isWordChar c = true))

theorem IsWord.oneLine {w : List Char} (h : IsWord w) : OneLine w := by
  rintro c hc rfl
  exact absurd (h _ hc) (by decide)

theorem IsWord.plain {w : List Char} (h : IsWord w) : ∀ c ∈ w, c ≠ '"' ∧ c ≠ '#' ∧ c ≠ '/' := by
  intro c hc
  have hword := h c hc
  refine ⟨?_, ?_, ?_⟩ <;> rintro rfl <;> revert hword <;> decide

theorem takeWhile_word {w y : List Char} (hw : IsWord w) (hy : y.head?.any isWordChar = false) :
    (w ++ y).takeWhile isWordChar = w := by
  rw [List.takeWhile_append_of_pos hw]
  cases y with
  | nil => simp
  | cons c r => simp [List.takeWhile_cons_of_neg (by simpa using hy : ¬isWordChar c = true)]

end Text

namespace Script
open Text

variable {line : Nat} {recent : List Kind} {column : Nat}

theorem lexFrom_skip (w y : List Char) :
    lexFrom line recent column w.length (w ++ y) =
      lexFrom line recent (column + w.length) 0 y := by
  induction w generalizing column with
  | nil => rfl
  | cons c r ih =>
    simp only [List.cons_append, List.length_cons, lexFrom, ih]
    rw [Nat.add_assoc, Nat.add_comm 1]

theorem lexFrom_end (w : List Char) : lexFrom line recent column w.length w = .ok [] := by
  have h : lexFrom line recent column w.length (w ++ []) = _ := lexFrom_skip w []
  rw [List.append_nil] at h
  exact h

theorem lexFrom_blank (y : List Char) :
    lexFrom line recent column 0 (' ' :: y) = lexFrom line recent (column + 1) 0 y := by
  simp [lexFrom]

/-- What is read at a place that is not blank: a lexeme, and what follows it. -/
theorem lexFrom_cons {c : Char} {r : List Char} {x : Lexeme} (hspace : c ≠ ' ') (htab : c ≠ '\t')
    (hx : lexemeAt c r = .ok x) (hcolon : x.kind ≠ .colon) :
    lexFrom line recent column 0 (c :: r) =
      (lexFrom line (x.kind :: recent) (column + 1) (x.width - 1) r).map
        (⟨x.kind, String.ofList x.text, line, column⟩ :: ·) := by
  simp [lexFrom, hspace, htab, hx, hcolon]

theorem wordKind_ne_colon (w : List Char) : wordKind w ≠ .colon := by
  intro h
  have hword := wordKind_ofWord w
  rw [h] at hword
  cases hword

/-- A word does not start with a blank. -/
theorem head_of_isWord {c : Char} {r : List Char} (h : IsWord (c :: r)) : c ≠ ' ' ∧ c ≠ '\t' := by
  have hc : isWordChar c = true := h c (by simp)
  refine ⟨?_, ?_⟩ <;> rintro rfl <;> exact absurd hc (by decide)

theorem lexemeAt_word {c : Char} {r y : List Char} (hw : IsWord (c :: r))
    (hd : isDigit c = false) (hy : y.head?.any isWordChar = false) :
    lexemeAt c (r ++ y) = .ok ⟨wordKind (c :: r), c :: r, (c :: r).length⟩ := by
  have hc : isWordChar c = true := hw c (by simp)
  have hne (d : Char) (hd : isWordChar d = false) : (c == d) = false := by
    rw [beq_eq_false_iff_ne]
    rintro rfl
    rw [hc] at hd
    cases hd
  have htake := takeWhile_word hw hy
  rw [List.cons_append] at htake
  simp only [lexemeAt, hne '"' (by decide), hne ':' (by decide), hne '(' (by decide),
    hne ')' (by decide), hd, hc, htake, Bool.false_eq_true, if_false, if_true]

theorem lexemeAt_digit {c : Char} (hd : isDigit c = true) (r : List Char) :
    lexemeAt c r = .ok ⟨.number, takeNumber (c :: r), (takeNumber (c :: r)).length⟩ := by
  have hne (d : Char) (hnot : isDigit d = false) : (c == d) = false := by
    rw [beq_eq_false_iff_ne]
    rintro rfl
    rw [hd] at hnot
    cases hnot
  simp only [lexemeAt, hne '"' (by decide), hne ':' (by decide), hne '(' (by decide),
    hne ')' (by decide), hd, Bool.false_eq_true, if_false, if_true]

theorem lexFrom_word {c : Char} {r y : List Char} (hw : IsWord (c :: r))
    (hd : isDigit c = false) (hy : y.head?.any isWordChar = false) :
    lexFrom line recent column 0 (c :: r ++ y) =
      (lexFrom line (wordKind (c :: r) :: recent) (column + (c :: r).length) 0 y).map
        (⟨wordKind (c :: r), String.ofList (c :: r), line, column⟩ :: ·) := by
  obtain ⟨hspace, htab⟩ := head_of_isWord hw
  rw [List.cons_append, lexFrom_cons hspace htab (lexemeAt_word hw hd hy) (wordKind_ne_colon _)]
  simp only [List.length_cons, Nat.add_sub_cancel, lexFrom_skip]
  rw [Nat.add_assoc, Nat.add_comm 1]

theorem lexFrom_assign {y : List Char} (hy : y = [] ∨ ∃ z, y = ' ' :: z) :
    lexFrom line recent column 0 ('=' :: y) =
      (lexFrom line (.assign :: recent) (column + 1) 0 y).map
        (⟨.assign, "=", line, column⟩ :: ·) := by
  have hx : lexemeAt '=' y = .ok ⟨.assign, ['='], 1⟩ := by
    have hnot : isDigit '=' = false ∧ isWordChar '=' = false := by decide
    rcases hy with rfl | ⟨z, rfl⟩ <;> simp [lexemeAt, hnot, operator?]
  rw [lexFrom_cons (by decide) (by decide) hx (by simp)]
  rfl

/-- The tokens of a place that is not blank: the lexeme there, and the text that a colon hands over
or the tokens behind the lexeme. -/
theorem tokens_of_lexFrom {c : Char} {r : List Char} {ts : List Token} (hspace : c ≠ ' ')
    (htab : c ≠ '\t') (h : lexFrom line recent column 0 (c :: r) = .ok ts) :
    ∃ x us, lexemeAt c r = .ok x ∧ ts = ⟨x.kind, String.ofList x.text, line, column⟩ :: us ∧
      ((∃ raw, us = [raw] ∧ raw.kind = .raw) ∨
        lexFrom line (x.kind :: recent) (column + 1) (x.width - 1) r = .ok us) := by
  simp only [lexFrom, beq_eq_false_iff_ne.mpr hspace, beq_eq_false_iff_ne.mpr htab,
    Bool.or_self, Bool.false_eq_true, if_false] at h
  split at h
  · cases h
  · rename_i x hx
    split at h
    · cases h
      exact ⟨x, _, hx, rfl, .inl ⟨_, rfl, rfl⟩⟩
    · obtain ⟨us, hus, rfl⟩ := Outcome.map_eq_ok.mp h
      exact ⟨x, us, hx, rfl, .inr hus⟩

/-- The first token of a place that is not blank is the lexeme there. -/
theorem head_of_lexFrom {c : Char} {r : List Char} {ts : List Token} (hspace : c ≠ ' ')
    (htab : c ≠ '\t') (h : lexFrom line recent column 0 (c :: r) = .ok ts) :
    ∃ x us, lexemeAt c r = .ok x ∧
      ts = ⟨x.kind, String.ofList x.text, line, column⟩ :: us := by
  obtain ⟨x, us, hx, hts, -⟩ := tokens_of_lexFrom hspace htab h
  exact ⟨x, us, hx, hts⟩

/-- A front without quotes, strokes and crosses starts no comment and no string. -/
theorem stripCommentFrom_append {w : List Char}
    (hw : ∀ c ∈ w, c ≠ '"' ∧ c ≠ '#' ∧ c ≠ '/') (e : List Char) :
    stripCommentFrom false (w ++ e) = w ++ stripCommentFrom false e := by
  induction w with
  | nil => rfl
  | cons c r ih =>
    obtain ⟨hquote, hcross, hstroke⟩ := hw c (by simp)
    rw [List.cons_append, stripCommentFrom, ih fun x hx => hw x (by simp [hx]), List.cons_append]
    · exact hquote
    · exact hcross
    · exact fun _ h => absurd h hstroke

theorem plain_of_isBlank {c : Char} (h : isBlank c = true) : c ≠ '"' ∧ c ≠ '#' ∧ c ≠ '/' := by
  refine ⟨?_, ?_, ?_⟩ <;> rintro rfl <;> revert h <;> decide

/-- What is cut off a line is a comment, which has no code of its own. -/
theorem stripCommentFrom_rest (inString : Bool) (cs : List Char) :
    ∃ comment, cs = stripCommentFrom inString cs ++ comment ∧
      stripCommentFrom false comment = [] := by
  fun_induction stripCommentFrom inString cs with
  | case1 => exact ⟨[], rfl, rfl⟩
  | case6 r => exact ⟨'#' :: r, rfl, rfl⟩
  | case7 r => exact ⟨'/' :: '/' :: r, rfl, rfl⟩
  | _ =>
    rename_i ih
    obtain ⟨comment, heq, hcomment⟩ := ih
    refine ⟨comment, ?_, hcomment⟩
    simp only [List.cons_append, ← heq]

/-- Behind the code of a line stand blanks and a comment. -/
theorem codeOf_rest (line : List Char) :
    ∃ blanks comment, line = codeOf line ++ (blanks ++ comment) ∧
      (∀ c ∈ blanks, isBlank c = true) ∧ stripComment comment = [] := by
  obtain ⟨comment, hline, hcomment⟩ := stripCommentFrom_rest false line
  obtain ⟨blanks, hstrip, hblanks⟩ := dropEndWhile_rest isBlank (stripComment line)
  refine ⟨blanks, comment, ?_, hblanks, hcomment⟩
  calc line = stripComment line ++ comment := hline
    _ = codeOf line ++ blanks ++ comment := congrArg (· ++ comment) hstrip
    _ = codeOf line ++ (blanks ++ comment) := List.append_assoc ..

theorem codeOf_isPrefix (line : List Char) : codeOf line <+: line := by
  obtain ⟨blanks, comment, hline, -⟩ := codeOf_rest line
  exact ⟨blanks ++ comment, hline.symm⟩

/-- A front that is kept stands before the code of what follows it. -/
theorem codeOf_append {w : List Char} (hw : ∀ c ∈ w, c ≠ '"' ∧ c ≠ '#' ∧ c ≠ '/')
    (hlast : w.getLast?.any isBlank = false) (e : List Char) : codeOf (w ++ e) = w ++ codeOf e := by
  rw [codeOf, stripComment, stripCommentFrom_append hw]
  exact dropEndWhile_append hlast _

theorem codeOf_front {w : List Char} (hw : ∀ c ∈ w, c ≠ '"' ∧ c ≠ '#' ∧ c ≠ '/')
    (hlast : w.getLast?.any isBlank = false) (e : List Char) :
    ∃ y, codeOf (w ++ ' ' :: e) = w ++ y ∧ (y = [] ∨ ∃ z, y = ' ' :: z) := by
  refine ⟨codeOf (' ' :: e), codeOf_append hw hlast _, ?_⟩
  have hpre := codeOf_isPrefix (' ' :: e)
  cases hy : codeOf (' ' :: e) with
  | nil => exact .inl rfl
  | cons c z =>
    rw [hy, List.cons_prefix_cons] at hpre
    exact .inr ⟨z, by rw [hpre.1]⟩

theorem lexLines_code {line : Nat} {levels : List Nat} {text : List Char}
    {rest : List (List Char)} {ts : List Token} (hcode : codeOf text ≠ [])
    (h : lexLines line levels (text :: rest) = .ok ts) :
    ∃ us levels' vs, lexLine line levels (codeOf text) = .ok (us, levels') ∧
      lexLines (line + 1) levels' rest = .ok vs ∧ ts = us ++ vs := by
  simp only [lexLines] at h
  split at h
  · rename_i hempty
    exact absurd (List.isEmpty_iff.mp hempty) hcode
  · split at h
    · cases h
    · rename_i us levels' hline
      obtain ⟨vs, hvs, rfl⟩ := Outcome.map_eq_ok.mp h
      exact ⟨us, levels', vs, hline, hvs, rfl⟩

theorem lexLines_of_code {line : Nat} {levels levels' : List Nat} {text : List Char}
    {us : List Token} (hcode : codeOf text ≠ [])
    (h : lexLine line levels (codeOf text) = .ok (us, levels')) (rest : List (List Char)) :
    lexLines line levels (text :: rest) = (lexLines (line + 1) levels' rest).map (us ++ ·) := by
  simp only [lexLines, List.isEmpty_iff, hcode, if_false, h]

theorem lexLines_blank {line : Nat} {levels : List Nat} {text : List Char}
    {rest : List (List Char)} (hcode : codeOf text = []) :
    lexLines line levels (text :: rest) = lexLines (line + 1) levels rest := by
  simp only [lexLines, hcode, List.isEmpty_nil, if_true]

/-- A line that starts with a word, behind `k` spaces. -/
theorem lexLine_word {k : Nat} {levels levels' : List Nat} {c : Char} {r y : List Char}
    {ts : List Token} (hw : IsWord (c :: r)) (hd : isDigit c = false)
    (hy : y.head?.any isWordChar = false)
    (h : lexLine line levels (List.replicate k ' ' ++ (c :: r ++ y)) = .ok (ts, levels')) :
    ∃ marks us n, blockMarks line levels k = .ok (marks, levels') ∧
      lexFrom line [wordKind (c :: r)] (k + 1 + (c :: r).length) 0 y = .ok us ∧
      n.kind = .newline ∧
      ts = marks ++ (⟨wordKind (c :: r), String.ofList (c :: r), line, k + 1⟩ :: us ++ [n]) := by
  have hblank : (c == ' ' || c == '\t') = false := by
    rw [Bool.or_eq_false_iff, beq_eq_false_iff_ne, beq_eq_false_iff_ne]
    exact head_of_isWord hw
  have hleading : (List.replicate k ' ' ++ (c :: r ++ y)).takeWhile
      (fun c => c == ' ' || c == '\t') = List.replicate k ' ' := by
    rw [List.takeWhile_append_of_pos (by simp), List.cons_append, List.takeWhile_cons_of_neg]
    · simp
    · simp [hblank]
  obtain ⟨marks, us, hmarks, hus, rfl⟩ := lexLine_eq_ok h
  rw [hleading, List.length_replicate] at hmarks hus
  have hdrop : (List.replicate k ' ' ++ (c :: r ++ y)).drop k = c :: r ++ y := by
    have hlen : (List.replicate k ' ').length = k := List.length_replicate
    rw [List.drop_append_of_le_length (by omega), List.drop_of_length_le (by omega),
      List.nil_append]
  rw [hdrop, lexFrom_word hw hd hy] at hus
  obtain ⟨vs, hvs, rfl⟩ := Outcome.map_eq_ok.mp hus
  exact ⟨marks, vs, _, hmarks, hvs, rfl, by rw [List.append_assoc]⟩

end Script
end Scribe
