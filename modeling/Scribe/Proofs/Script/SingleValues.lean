import Scribe.Proofs.Instruction.TemplateLines
import Scribe.Proofs.Instruction.Unwrap
import Scribe.Proofs.Pattern.Matches
import Scribe.Proofs.Script.DraftReading

/-!
# Assigning a single value

A single value is a number, a literal word, a name or a string literal, told apart by patterns of
its own. What it becomes is read as just that, with one exception: a name may be a reserved word of
the language, which starts no value.
-/
namespace Scribe

namespace Pattern
open Text Script

theorem covers_digits : digits.Covers fun cs => ∃ c ds, cs = c :: ds ∧
    ∀ d ∈ c :: ds, isDigit d = true := by
  intro c d cs h hcs
  have hmany : (many digit).Covers fun cs => ∀ x ∈ cs, isDigit x = true :=
    covers_of_only fun _ hx => hx
  obtain ⟨a, ds, rfl, ⟨x, rfl, hx⟩, hds⟩ := covers_append (covers_one isDigit) hmany h hcs
  exact ⟨x, ds, rfl, List.forall_mem_cons.mpr ⟨hx, hds⟩⟩

theorem covers_unsigned : unsigned.Covers fun cs => ∃ n : Draft.Numeral, n.text = cs := by
  intro c d cs h hcs
  obtain ⟨a, b, rfl, ⟨x, xs, rfl, hxs⟩, hpart⟩ :=
    covers_append covers_digits (covers_opt (covers_append (covers_char '.') covers_digits)) h hcs
  rcases hpart with rfl | ⟨p, ds, rfl, rfl, y, ys, rfl, hys⟩
  · exact ⟨⟨x, xs, [], hxs, List.forall_mem_nil _⟩, rfl⟩
  · exact ⟨⟨x, xs, y :: ys, hxs, hys⟩, rfl⟩

theorem covers_signed : signed.Covers fun cs => ∃ n : Draft.Numeral, cs = n.text ∨
    cs = '-' :: n.text := by
  intro c d cs h hcs
  obtain ⟨a, b, rfl, hsign, n, rfl⟩ :=
    covers_append (covers_opt (covers_char '-')) covers_unsigned h hcs
  rcases hsign with rfl | rfl
  · exact ⟨n, .inl rfl⟩
  · exact ⟨n, .inr rfl⟩

theorem covers_name : name.Covers fun cs => ∃ c r, cs = c :: r ∧ IsWord (c :: r) ∧
    isDigit c = false ∧ c ≠ '-' := by
  intro c d cs h hcs
  have hmany : (many wordChar).Covers IsWord := covers_of_only fun _ hx => hx
  obtain ⟨a, r, rfl, ⟨x, rfl, hx⟩, hr⟩ := covers_append (covers_one isNameStart) hmany h hcs
  obtain ⟨hword, hdigit, hminus⟩ := forall_ascii (P := fun c => isNameStart c = true →
    isWordChar c = true ∧ isDigit c = false ∧ c ≠ '-') (by decide) (toNat_lt_of_isNameStart hx) hx
  exact ⟨x, r, rfl, List.forall_mem_cons.mpr ⟨hword, hr⟩, hdigit, hminus⟩

end Pattern

namespace Instruction
open Text Pattern Script

variable {cs : List Char}

theorem getLast?_of_trim (h : trim cs = cs) : cs.getLast? ≠ some '\n' := by
  intro hlast
  have hblank := getLast?_dropEndWhile isBlank (cs.dropWhile isBlank)
  rw [show dropEndWhile isBlank (cs.dropWhile isBlank) = cs from h, hlast] at hblank
  exact absurd hblank (by decide)

theorem numeral_of_isNumber (htrim : trim cs = cs) (h : isNumber cs = true) :
    ∃ n : Draft.Numeral, cs = n.text ∨ cs = '-' :: n.text := by
  rw [isNumber, htrim] at h
  exact covers_whole covers_signed h (getLast?_of_trim htrim)

theorem word_of_isName (htrim : trim cs = cs) (h : isName cs = true) :
    ∃ c r, cs = c :: r ∧ IsWord (c :: r) ∧ isDigit c = false ∧ c ≠ '-' :=
  covers_whole covers_name h (getLast?_of_trim htrim)

theorem isNumber_of_isName (htrim : trim cs = cs) (h : isName cs = true) : isNumber cs = false := by
  obtain ⟨c, r, hcs, -, hdigit, hminus⟩ := word_of_isName htrim h
  rw [Bool.eq_false_iff]
  intro hnumber
  obtain ⟨n, hn | hn⟩ := numeral_of_isNumber htrim hnumber
  · obtain ⟨rfl, -⟩ := List.cons_eq_cons.mp (hcs.symm.trans hn)
    rw [n.whole_digits n.first List.mem_cons_self] at hdigit
    cases hdigit
  · exact hminus (List.cons_eq_cons.mp (hcs.symm.trans hn)).1

/-- A word is free, a literal word or a keyword. -/
theorem wordKind_cases (w : List Char) :
    wordKind w = .identifier ∨
      (isLiteralWord w = true ∧ ∀ word, wordKind w ≠ .keyword word) ∨
      isLiteralWord w = false ∧ ∃ word, wordKind w = .keyword word := by
  unfold wordKind isLiteralWord
  generalize String.ofList (lower w) = s
  unfold reserved?
  split
  all_goals first
    | exact .inl rfl
    | exact .inr (.inl ⟨by decide, nofun⟩)
    | exact .inr (.inr ⟨by decide, _, rfl⟩)

def valueOf (raw : List Char) : List Char := unwrap (payload raw)

theorem trim_valueOf (raw : List Char) : trim (valueOf raw) = valueOf raw := trim_unwrap _

/-- A value that is written as a name, without quotes, though it is a reserved word. -/
def ReservedAs (word : Keyword) (raw : List Char) : Prop :=
  isName (valueOf raw) = true ∧ raw.any isQuote = false ∧ wordKind (valueOf raw) = .keyword word

instance (word : Keyword) (raw : List Char) : Decidable (ReservedAs word raw) :=
  inferInstanceAs (Decidable (_ ∧ _ ∧ _))

end Instruction

namespace Script
open Text Instruction

def Expr.IsSingle : Expr → Prop
  | .lit _ | .var _ | .neg (.lit (.number _)) => True
  | _ => False

def Expr.IsConstant : Expr → Prop
  | .lit _ | .neg (.lit (.number _)) => True
  | _ => False

theorem Expr.IsConstant.single {e : Expr} (h : e.IsConstant) : e.IsSingle := by
  unfold IsConstant at h
  split at h
  · trivial
  · trivial
  · exact h.elim

/-- A constant has one value, whatever the variables hold. -/
theorem Expr.IsConstant.value {e : Expr} (h : e.IsConstant) :
    ∃ value, ∀ b, evaluate b e = .ok value := by
  unfold IsConstant at h
  split at h
  · exact ⟨_, fun b => rfl⟩
  · exact ⟨_, fun b => rfl⟩
  · exact h.elim

def ReadsAs (w : List Char) (e : Expr) : Prop :=
  ∀ line, Piece line w (Derives (.expr .orTest e))

def ReadsSingle (w : List Char) : Prop := ∃ e : Expr, e.IsSingle ∧ ReadsAs w e

theorem ReadsAs.single {w : List Char} {e : Expr} (h : ReadsAs w e) (he : e.IsSingle) :
    ReadsSingle w := ⟨e, he, h⟩

def ReadsConstant (w : List Char) : Prop := ∃ e : Expr, e.IsConstant ∧ ReadsAs w e

theorem ReadsAs.constant {w : List Char} {e : Expr} (h : ReadsAs w e) (he : e.IsConstant) :
    ReadsConstant w := ⟨e, he, h⟩

def ReadsUnary (w : List Char) (e : Expr) : Prop :=
  ∀ line, Piece line w (Derives (.expr .unary e))

theorem ReadsUnary.readsAs {w : List Char} {e : Expr} (h : ReadsUnary w e) : ReadsAs w e :=
  fun line => (h line).imp fun _ h => Draft.orTest_of_sum (.sumOne (.productOne h))

theorem readsUnary_term (e : Draft.Term) : ReadsUnary e.text e.tree :=
  fun _ => e.piece.imp fun _ => .unaryAtom

theorem readsUnary_negated (n : Draft.Numeral) :
    ReadsUnary ('-' :: n.text) (.neg (.lit (.number n.value))) := by
  intro line
  refine (Draft.lead_minus.piece (Draft.piece_numeral n)).imp ?_
  rintro ts ⟨t, us, rfl, ht, -, -, hus⟩
  exact .neg (Token.is_of_kind ht) (.unaryAtom hus)

theorem readsUnary_quote (w : List Char) :
    ReadsUnary (quote w) (.lit (.text (String.ofList w))) := by
  have h := readsUnary_term (.string (String.ofList w))
  rwa [Draft.Term.text, String.toList_ofList] at h

theorem readsAs_term (e : Draft.Term) : ReadsAs e.text e.tree := (readsUnary_term e).readsAs

theorem readsAs_negated (n : Draft.Numeral) :
    ReadsAs ('-' :: n.text) (.neg (.lit (.number n.value))) := (readsUnary_negated n).readsAs

theorem readsAs_quote (w : List Char) : ReadsAs (quote w) (.lit (.text (String.ofList w))) :=
  (readsUnary_quote w).readsAs

/-- A literal word is read as a truth value or as nothing. -/
theorem readsAs_literalWord {w : List Char} (h : isLiteralWord w = true) :
    ∃ value : Value, (∀ t, value ≠ .text t) ∧ ReadsAs (lower w) (.lit value) := by
  have hmem : String.ofList (lower w) ∈ ["true", "false", "none", "null"] :=
    List.contains_iff_mem.mp h
  have htext (s : String) (hs : String.ofList (lower w) = s) : lower w = s.toList := by
    rw [← hs, String.toList_ofList]
  simp only [List.mem_cons, List.not_mem_nil, or_false] at hmem
  rcases hmem with hs | hs | hs | hs <;> rw [htext _ hs]
  · exact ⟨.bool true, nofun, readsAs_term (.bool true)⟩
  · exact ⟨.bool false, nofun, readsAs_term (.bool false)⟩
  · refine ⟨.null, nofun, fun line => ?_⟩
    refine (piece_word (c := 'n') (r := "one".toList) (by decide) (by decide) (by decide)).imp ?_
    rintro ts ⟨t, rfl, hk, -⟩
    exact Draft.orTest_of_atom (.nullLit (Token.is_of_kind hk))
  · exact ⟨.null, nofun, readsAs_term .null⟩

theorem singleValue_eq (raw : List Char) :
    singleValue raw = if (valueOf raw).isEmpty then quote []
      else if isNumber (valueOf raw) then valueOf raw
      else if isLiteralWord (valueOf raw) then lower (valueOf raw)
      else if isName (valueOf raw) && !raw.any isQuote then valueOf raw
      else quote (valueOf raw) := rfl

/-- A single value is read as a constant, unless it is a name without quotes. -/
theorem singleValue_cases (raw : List Char) :
    ReadsConstant (singleValue raw) ∨
      isName (valueOf raw) = true ∧ raw.any isQuote = false ∧
        isLiteralWord (valueOf raw) = false ∧ singleValue raw = valueOf raw := by
  rw [singleValue_eq]
  split
  · exact .inl ((readsAs_quote []).constant trivial)
  split
  · rename_i hnumber
    obtain ⟨n, hn | hn⟩ := numeral_of_isNumber (trim_valueOf raw) hnumber
    · rw [hn]
      exact .inl ((readsAs_term (.number n)).constant trivial)
    · rw [hn]
      exact .inl ((readsAs_negated n).constant trivial)
  split
  · rename_i hliteral
    obtain ⟨value, -, hreads⟩ := readsAs_literalWord hliteral
    exact .inl (hreads.constant trivial)
  rename_i hliteral
  split
  · rename_i hname
    rw [Bool.and_eq_true, Bool.not_eq_true'] at hname
    exact .inr ⟨hname.1, hname.2, Bool.eq_false_iff.mpr hliteral, rfl⟩
  · exact .inl ((readsAs_quote _).constant trivial)

/-- A single value that is no reserved word is read as what it is. -/
theorem readsSingle_singleValue {raw : List Char} (h : ∀ word, ¬ReservedAs word raw) :
    ReadsSingle (singleValue raw) := by
  obtain ⟨e, he, hreads⟩ | ⟨hname, hquote, hliteral, hvalue⟩ := singleValue_cases raw
  · exact hreads.single he.single
  rw [hvalue]
  rcases wordKind_cases (valueOf raw) with hfree | ⟨hword, -⟩ | ⟨-, word, hword⟩
  · obtain ⟨c, r, hcs, hw, hdigit, -⟩ := word_of_isName (trim_valueOf raw) hname
    rw [hcs] at hfree ⊢
    exact (readsAs_term (.var ⟨c, r, hw, hdigit, hfree⟩)).single trivial
  · rw [hword] at hliteral
    cases hliteral
  · exact absurd ⟨hname, hquote, hword⟩ (h word)

theorem singleValue_reserved {raw : List Char} {word : Keyword} (h : ReservedAs word raw) :
    singleValue raw = valueOf raw := by
  obtain ⟨hname, hquote, hword⟩ := h
  have hnumber := isNumber_of_isName (trim_valueOf raw) hname
  obtain ⟨c, r, hcs, -⟩ := word_of_isName (trim_valueOf raw) hname
  have hliteral : isLiteralWord (valueOf raw) = false := by
    rcases wordKind_cases (valueOf raw) with hfree | ⟨-, hfree⟩ | ⟨hliteral, -⟩
    · rw [hfree] at hword
      cases hword
    · exact absurd hword (hfree word)
    · exact hliteral
  have hempty : (valueOf raw).isEmpty = false := by rw [hcs]; rfl
  unfold valueOf at hname hnumber hliteral hempty ⊢
  simp [singleValue, hempty, hnumber, hliteral, hname, hquote]

section Assignments
variable (x : Draft.Name) {w : List Char} {e : Expr}

theorem setLine_append (w : List Char) :
    setLine x.text w = "set ".toList ++ (x.text ++ (" = ".toList ++ w)) := by
  simp [setLine_eq]

/-- An assignment of what is read as an expression. -/
theorem parse_setLine (hw : ReadsAs w e) :
    parse (setLine x.text w) = .ok [.assign 1 (String.ofList x.text) e] := by
  have hparse := parse_of_codeLine (Draft.codeLine_assigned x hw)
  rwa [← setLine_append] at hparse

theorem codeLine_reserved {c : Char} {r : List Char} (hw : IsWord (c :: r))
    (hd : isDigit c = false) :
    CodeLine (setLine x.text (c :: r)) fun line ts =>
      ∃ t n a v, ts = [t, n, a, v] ∧ t.kind = .keyword .set ∧ n.kind = .identifier ∧
        a.kind = .assign ∧ v.kind = wordKind (c :: r) ∧ v.line = line := by
  rw [setLine_append]
  have hplain : ∀ d ∈ "set ".toList ++ (x.text ++ (" = ".toList ++ c :: r)),
      d ≠ '"' ∧ d ≠ '#' ∧ d ≠ '/' :=
    List.forall_mem_append.mpr ⟨by decide, List.forall_mem_append.mpr
      ⟨x.word.plain, List.forall_mem_append.mpr ⟨by decide, hw.plain⟩⟩⟩
  have hcode : codeOf ("set ".toList ++ (x.text ++ (" = ".toList ++ c :: r))) =
      "set ".toList ++ (x.text ++ (" = ".toList ++ c :: r)) := by
    have hstrip := stripCommentFrom_append hplain []
    rw [List.append_nil, stripCommentFrom, List.append_nil] at hstrip
    obtain ⟨d, hd⟩ : ∃ d, (c :: r).getLast? = some d := ⟨_, List.getLast?_eq_some_getLast (by simp)⟩
    have hblank : isBlank d = false := isBlank_of_isWordChar (hw d (List.mem_of_getLast? hd))
    rw [codeOf, stripComment, hstrip]
    refine dropEndWhile_eq_self ?_
    simp only [List.getLast?_append, hd, Option.some_or, Option.any_some, hblank]
  refine ⟨?_, ⟨'s', "et ".toList ++ (x.text ++ (" = ".toList ++ c :: r)), hcode, by decide,
    by decide⟩, fun line column => ?_⟩
  · exact oneLine_append.mpr ⟨by decide, oneLine_append.mpr
      ⟨x.word.oneLine, oneLine_append.mpr ⟨by decide, hw.oneLine⟩⟩⟩
  · have hword : lexFrom line [.assign, .identifier, .keyword .set]
        (column + "set ".toList.length + (x.text ++ [' ']).length + "= ".toList.length) 0
        (c :: r ++ []) = _ := lexFrom_word hw hd rfl
    have hfront : "set ".toList ++ (x.text ++ (" = ".toList ++ c :: r)) =
        "set ".toList ++ ((x.text ++ [' ']) ++ ("= ".toList ++ c :: r)) := by simp
    rw [List.append_nil] at hword
    have hlex := Draft.lead_set.cut line [] column ((x.text ++ [' ']) ++ ("= ".toList ++ c :: r))
    rw [(Draft.lead_name x).cut, Draft.lead_sign.cut, hword] at hlex
    rw [← hfront, ← hcode] at hlex
    exact ⟨_, ⟨⟨_, _, line, _⟩, ⟨_, _, line, _⟩, ⟨_, _, line, _⟩, ⟨_, _, line, _⟩, rfl, rfl, rfl,
      rfl, rfl, rfl⟩, hlex⟩

/-- Where the value of an assignment is a reserved word, it is reported as such. -/
theorem parse_reserved {c : Char} {r : List Char} (hw : IsWord (c :: r)) (hd : isDigit c = false)
    {word : Keyword} (hword : wordKind (c :: r) = .keyword word) :
    parse (setLine x.text (c :: r)) = .error
      ⟨.unexpected (operandStarts.map Terminal.describe) word.terminal.describe, some 1⟩ := by
  have hlaid := (codeLine_reserved x hw hd).laid 0 1
  obtain ⟨_, ⟨_, nl, rfl, ⟨t, n, a, v, rfl, ht, hn, ha, hv, hline⟩, -⟩, htokens⟩ :=
    tokenize_of_laid hlaid (List.cons_ne_nil _ _)
  rw [joinLines, join, List.intercalate_singleton] at htokens
  rw [hword] at hv
  have hparse : parseTokens [t, n, a, v, nl] = .error ⟨operandStarts, some v⟩ := by
    cases word <;> simp [parseTokens, State.initial, State.step, stepStatement, State.begin,
      State.settle, stepOperand, operand?, State.fail, State.expected, ht, hn, ha, hv,
      Except.bind, bind]
  have hdescribe : v.describe = word.terminal.describe := by
    cases word <;> simp [Token.describe, hv, Kind.terminal, Keyword.terminal]
  rw [parse_of_tokenize htokens]
  change (parseTokens [t, n, a, v, nl]).mapError Failure.fault = _
  rw [hparse]
  change Except.error (Failure.fault ⟨operandStarts, some v⟩) = _
  simp [Failure.fault, hdescribe, hline]

/-- A single value is read as a literal, a negated number or a variable, unless it is a reserved
word without quotes: that is written as it stands, and it starts no value. -/
theorem parse_singleValue (raw : List Char) :
    (∀ word, ReservedAs word raw → parse (setLine x.text (singleValue raw)) =
      .error ⟨.unexpected (operandStarts.map Terminal.describe) word.terminal.describe, some 1⟩) ∧
    ((∀ word, ¬ReservedAs word raw) → ∃ e : Expr, e.IsSingle ∧
      parse (setLine x.text (singleValue raw)) = .ok [.assign 1 (String.ofList x.text) e]) := by
  constructor
  · intro word h
    obtain ⟨c, r, hcs, hw, hdigit, -⟩ := word_of_isName (trim_valueOf raw) h.1
    have hword := h.2.2
    rw [singleValue_reserved h, hcs]
    rw [hcs] at hword
    exact parse_reserved x hw hdigit hword
  · intro h
    obtain ⟨e, he, hpiece⟩ := readsSingle_singleValue h
    exact ⟨e, he, parse_setLine x hpiece⟩

end Assignments

/-- The same word without quotes and between them. -/
theorem parse_singleValue_neuro :
    let x : Draft.Name := ⟨'x', [], by decide, by decide, by decide⟩
    parse (setLine x.text (singleValue "neuro".toList)) =
      .error ⟨.unexpected (operandStarts.map Terminal.describe) "'neuro'", some 1⟩ ∧
    ∃ e : Expr, e.IsSingle ∧
      parse (setLine x.text (singleValue "'neuro'".toList)) =
        .ok [.assign 1 (String.ofList x.text) e] := by
  intro x
  exact ⟨(parse_singleValue x "neuro".toList).1 .neuro (by decide),
    (parse_singleValue x "'neuro'".toList).2 fun word h => absurd h.2.1 (by decide)⟩

end Script
end Scribe
