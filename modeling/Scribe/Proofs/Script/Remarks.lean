import Scribe.Proofs.Script.Positions
import Scribe.Proofs.Script.Renumbering

/-!
# Remarks

Comments and blank lines say nothing. Wherever lines without code are put between the lines of a
script, and whatever comments are put at the ends of its lines, its tokens are the same but for the
lines they stand on, and so is its tree; a script that cannot be read is refused with the same
complaint.
-/
namespace Scribe.Script
open Text

/-- Whether the search for a comment ends inside a string, from a point that lies inside a string
or outside. -/
def endsInString : (inString : Bool) → List Char → Bool
  | inString, [] => inString
  | true, '\\' :: _ :: r => endsInString true r
  | true, '"' :: r => endsInString false r
  | true, _ :: r => endsInString true r
  | false, '"' :: r => endsInString true r
  | false, '#' :: _ => false
  | false, '/' :: '/' :: _ => false
  | false, _ :: r => endsInString false r

def IsComment (cs : List Char) : Prop :=
  OneLine cs ∧ ∃ r, cs = '#' :: r ∨ cs = '/' :: '/' :: r

theorem IsComment.strip {comment : List Char} (h : IsComment comment) :
    stripCommentFrom false comment = [] := by
  obtain ⟨-, r, rfl | rfl⟩ := h <;> rfl

/-- A comment behind a space adds at most that space, unless it is put inside a string. -/
theorem stripCommentFrom_noted {inString : Bool} {line comment : List Char}
    (hline : endsInString inString line = false) (hcomment : IsComment comment) :
    stripCommentFrom inString (line ++ ' ' :: comment) = stripCommentFrom inString line ∨
      stripCommentFrom inString (line ++ ' ' :: comment) =
        stripCommentFrom inString line ++ [' '] := by
  fun_induction endsInString inString line with
  | case1 inString =>
    subst hline
    have hspace := stripCommentFrom_append (by decide : ∀ c ∈ [' '], _) comment
    rw [hcomment.strip] at hspace
    exact .inr hspace
  | case2 c r ih => exact (ih hline).imp (congrArg ('\\' :: c :: ·)) (congrArg ('\\' :: c :: ·))
  | case3 r ih => exact (ih hline).imp (congrArg ('"' :: ·)) (congrArg ('"' :: ·))
  | case4 c r hescape hquote ih =>
    have hplain : ∀ d more, c = '\\' → r ++ ' ' :: comment = d :: more → False := by
      intro d more hc hr
      cases r with
      | nil => cases hline
      | cons e r => exact hescape e r hc rfl
    rw [List.cons_append, stripCommentFrom, stripCommentFrom]
    · exact (ih hline).imp (congrArg (c :: ·)) (congrArg (c :: ·))
    · exact hescape
    · exact hquote
    · exact hplain
    · exact hquote
  | case5 r ih => exact (ih hline).imp (congrArg ('"' :: ·)) (congrArg ('"' :: ·))
  | case6 => exact .inl rfl
  | case7 => exact .inl rfl
  | case8 c r hquote hcross hstroke ih =>
    have hplain : ∀ more, c = '/' → r ++ ' ' :: comment = '/' :: more → False := by
      intro more hc hr
      cases r with
      | nil => cases hr
      | cons e r =>
        cases hr
        exact hstroke r hc rfl
    rw [List.cons_append, stripCommentFrom, stripCommentFrom]
    · exact (ih hline).imp (congrArg (c :: ·)) (congrArg (c :: ·))
    · exact hquote
    · exact hcross
    · exact hstroke
    · exact hquote
    · exact hcross
    · exact hplain

/-- A comment behind a space is no code. -/
theorem codeOf_noted {line comment : List Char} (hline : endsInString false line = false)
    (hcomment : IsComment comment) : codeOf (line ++ ' ' :: comment) = codeOf line := by
  have hspace (cs : List Char) : trimEnd (cs ++ [' ']) = trimEnd cs :=
    dropEndWhile_append_dropped (by decide) cs
  rw [codeOf, codeOf, stripComment, stripComment]
  rcases stripCommentFrom_noted hline hcomment with hstrip | hstrip
  · rw [hstrip]
  · rw [hstrip, hspace]

/-- A line that is blank or holds only a comment, at any indentation. -/
def IsRemark (line : List Char) : Prop :=
  ∃ blanks comment, line = blanks ++ comment ∧ (∀ c ∈ blanks, isBlank c = true) ∧
    OneLine blanks ∧ (comment = [] ∨ IsComment comment)

theorem IsRemark.oneLine {line : List Char} (h : IsRemark line) : OneLine line := by
  obtain ⟨blanks, comment, rfl, -, hblanks, rfl | hcomment⟩ := h
  · rwa [List.append_nil]
  · exact oneLine_append.mpr ⟨hblanks, hcomment.1⟩

theorem IsRemark.codeOf {line : List Char} (h : IsRemark line) : codeOf line = [] := by
  obtain ⟨blanks, comment, rfl, hblanks, -, hcomment⟩ := h
  have hnone : stripCommentFrom false comment = [] := by
    rcases hcomment with rfl | hcomment
    · rfl
    · exact hcomment.strip
  have hdrop : (blanks.reverse ++ []).dropWhile isBlank = [] :=
    List.dropWhile_append_of_pos fun c hc => hblanks c (List.mem_reverse.mp hc)
  rw [Script.codeOf, stripComment,
    stripCommentFrom_append fun c hc => plain_of_isBlank (hblanks c hc), hnone, List.append_nil,
    trimEnd, dropEndWhile, ← List.append_nil blanks.reverse, hdrop]
  rfl

/-- A line of a script with remarks: one as it was, one with a comment behind it, or a new one. -/
inductive Entry where
  | kept (line : List Char)
  | noted (line comment : List Char)
  | added (line : List Char)

namespace Entry

def original? : Entry → Option (List Char)
  | kept line => some line
  | noted line _ => some line
  | added _ => none

def written : Entry → List Char
  | kept line => line
  | noted line comment => line ++ ' ' :: comment
  | added line => line

/-- Comments are put where the search for a comment ends outside a string, and new lines have no
code. -/
def Sound : Entry → Prop
  | kept _ => True
  | noted line comment => endsInString false line = false ∧ IsComment comment
  | added line => IsRemark line

end Entry

def originals (es : List Entry) : List (List Char) := es.filterMap Entry.original?

def remarked (es : List Entry) : List Char := joinLines (es.map Entry.written)

/-- How many new lines stand before the line that was line `i`, counted from zero. -/
def addedBefore : List Entry → (i : Nat) → Nat
  | [], _ => 0
  | .added _ :: es, i => addedBefore es i + 1
  | _ :: _, 0 => 0
  | _ :: es, i + 1 => addedBefore es i

/-- Tokens that are the same but for their lines, or faults that are. -/
inductive Alike (f : Nat → Nat) : Except Fault (List Token) → Except Fault (List Token) → Prop
  | tokens {ts ts'} (h : List.Forall₂ (Token.Moved f) ts ts') : Alike f (.ok ts) (.ok ts')
  | fault {x x'} (h : x'.complaint = x.complaint) : Alike f (.error x) (.error x')

section Alike
variable {f : Nat → Nat} {line line' : Nat} {levels : List Nat}

theorem moved_onLine {ts : List Token} (h : ∀ t ∈ ts, t.kind ≠ .dedent → f t.line = line') :
    List.Forall₂ (Token.Moved f) ts (ts.map (Token.onLine line')) := by
  refine List.forall₂_map_right_iff.mpr (List.forall₂_same.mpr fun t ht => ?_)
  exact ⟨rfl, rfl, rfl, fun hk => (h t ht hk).symm⟩

/-- A line with the same code, in front of lines with the same tokens. -/
theorem Alike.cons {text text' : List Char} {texts texts' : List (List Char)}
    (hcode : codeOf text' = codeOf text) (hline : f line = line')
    (hrest : ∀ levels, Alike f (lexLines (line + 1) levels texts)
      (lexLines (line' + 1) levels texts')) :
    Alike f (lexLines line levels (text :: texts)) (lexLines line' levels (text' :: texts')) := by
  by_cases hnone : codeOf text = []
  · rw [lexLines_blank hnone, lexLines_blank (hcode.trans hnone)]
    exact hrest levels
  have hmoved : lexLine line' levels (codeOf text') = _ := lexLine_onLine line line'
  cases hrow : lexLine line levels (codeOf text) with
  | error cause =>
    rw [hcode, hrow] at hmoved
    simp only [lexLines, List.isEmpty_iff, hnone, if_false, hcode, hrow, hmoved]
    exact .fault rfl
  | ok result =>
    obtain ⟨row, levels'⟩ := result
    have hrow' : lexLine line' levels (codeOf text') =
        .ok (row.map (Token.onLine line'), levels') := by
      rw [hmoved, hcode, hrow]
      rfl
    rw [lexLines_of_code hnone hrow, lexLines_of_code (by rwa [hcode]) hrow']
    have hmore := hrest levels'
    generalize lexLines (line + 1) levels' texts = us at hmore
    generalize lexLines (line' + 1) levels' texts' = us' at hmore
    cases hmore with
    | fault h => exact .fault h
    | tokens h =>
      refine .tokens (List.rel_append (moved_onLine fun t ht _ => ?_) h)
      rw [line_of_lexLine hrow t ht, hline]

/-- The tokens of lines with remarks among them. -/
theorem alike_lexLines {es : List Entry} (hes : ∀ e ∈ es, e.Sound)
    (hf : ∀ i, f (line + i) = line' + i + addedBefore es i) :
    Alike f (lexLines line levels (originals es))
      (lexLines line' levels (es.map Entry.written)) := by
  induction es generalizing line line' levels with
  | nil =>
    have hmoved : List.Forall₂ (Token.Moved f) (List.replicate levels.length _)
        ((List.replicate levels.length ⟨.dedent, "", line - 1, 1⟩).map
          (Token.onLine (line' - 1))) :=
      moved_onLine fun t ht hk => absurd (by rw [List.eq_of_mem_replicate ht]) hk
    rw [List.map_replicate] at hmoved
    exact .tokens hmoved
  | cons e es ih =>
    obtain ⟨he, hrest⟩ := List.forall_mem_cons.mp hes
    have hnext (h : ∀ i, addedBefore (e :: es) (i + 1) = addedBefore es i) (levels : List Nat) :
        Alike f (lexLines (line + 1) levels (originals es))
          (lexLines (line' + 1) levels (es.map Entry.written)) := by
      refine ih hrest fun i => ?_
      have hi := hf (i + 1)
      rw [h, ← Nat.add_assoc, Nat.add_right_comm] at hi
      rw [hi]
      omega
    cases e with
    | kept text => exact .cons rfl (hf 0) (hnext fun _ => rfl)
    | noted text comment => exact .cons (codeOf_noted he.1 he.2) (hf 0) (hnext fun _ => rfl)
    | added text =>
      rw [List.map_cons, Entry.written, lexLines_blank he.codeOf]
      refine ih hrest fun i => ?_
      rw [hf i, addedBefore]
      omega

end Alike

def Token.face (t : Token) : Kind × String × Nat := (t.kind, t.lexeme, t.column)

theorem Alike.faces {f : Nat → Nat} {x x' : Except Fault (List Token)} (h : Alike f x x') :
    (x'.mapError Fault.complaint).map (List.map Token.face) =
      (x.mapError Fault.complaint).map (List.map Token.face) := by
  cases h with
  | fault h => exact congrArg Except.error h
  | tokens h =>
    refine congrArg Except.ok ?_
    induction h with
    | nil => rfl
    | @cons t t' ts ts' ht _ ih =>
      have hface : t'.face = t.face := by rw [Token.face, Token.face, ht.kind, ht.lexeme, ht.column]
      rw [List.map_cons, List.map_cons, hface, ih]

theorem parse_complaint (source : List Char) : (parse source).mapError Fault.complaint =
    (tokenize source).mapError Fault.complaint >>= fun ts =>
      (parseTokens ts).mapError Failure.complaint := by
  cases htokens : tokenize source with
  | error x => simp only [parse, htokens]; rfl
  | ok ts =>
    rw [parse_of_tokenize htokens]
    change _ = (parseTokens ts).mapError Failure.complaint
    cases parseTokens ts <;> rfl

theorem Alike.parse {f : Nat → Nat} {source source' : List Char}
    (h : Alike f (tokenize source) (tokenize source')) :
    (parse source').mapError Fault.complaint =
      ((parse source).mapError Fault.complaint).map (renumberBlock f) := by
  rw [parse_complaint, parse_complaint]
  generalize tokenize source = x at h
  generalize tokenize source' = x' at h
  cases h with
  | fault h => exact congrArg Except.error h
  | tokens h => exact parseTokens_renumber h

theorem lines_remarked {source : List Char} {es : List Entry}
    (hsource : originals es = lines source) (hes : ∀ e ∈ es, e.Sound) :
    lines (remarked es) = es.map Entry.written := by
  refine lines_joinLines (fun text htext => ?_) fun hnil => ?_
  · obtain ⟨e, he, rfl⟩ := List.mem_map.mp htext
    have horiginal (l : List Char) (hl : e.original? = some l) : OneLine l := by
      have hmem : l ∈ originals es := List.mem_filterMap.mpr ⟨e, he, hl⟩
      rw [hsource] at hmem
      exact oneLine_of_mem_lines hmem
    cases e with
    | kept l => exact horiginal l rfl
    | noted l comment =>
      exact oneLine_append.mpr ⟨horiginal l rfl, oneLine_cons.mpr ⟨by decide, (hes _ he).2.1⟩⟩
    | added l => exact (hes _ he).oneLine
  · rw [List.map_eq_nil_iff.mp hnil] at hsource
    exact lines_ne_nil source hsource.symm

/-- Remarks change neither the tokens of a script, but for their lines, nor its tree, but for the
lines that are moved down by new lines, nor what is wrong with it. -/
theorem remarks_say_nothing {source : List Char} {es : List Entry}
    (hsource : originals es = lines source) (hes : ∀ e ∈ es, e.Sound) :
    ((tokenize (remarked es)).mapError Fault.complaint).map (List.map Token.face) =
        ((tokenize source).mapError Fault.complaint).map (List.map Token.face) ∧
      (parse (remarked es)).mapError Fault.complaint =
        ((parse source).mapError Fault.complaint).map
          (renumberBlock fun n => n + addedBefore es (n - 1)) := by
  have halike : Alike (fun n => n + addedBefore es (n - 1)) (tokenize source)
      (tokenize (remarked es)) := by
    rw [tokenize, tokenize, lines_remarked hsource hes, ← hsource]
    refine alike_lexLines hes fun i => ?_
    rw [Nat.add_sub_cancel_left]
  exact ⟨halike.faces, halike.parse⟩

/-- A comment that is indented with a tab, a blank line inside a block, and a comment behind a
literal that holds the mark of one. -/
theorem remarks_say_nothing_block :
    let es : List Entry := [.added "\t# first".toList, .noted "if x:".toList "// then".toList,
      .added [], .noted "  neuro \"a#b\"".toList "# \"".toList]
    lines (remarked es) =
        ["\t# first", "if x: // then", "", "  neuro \"a#b\" # \""].map String.toList ∧
      (parse (remarked es)).mapError Fault.complaint =
        .ok [.choose 2 [(.var "x", [.print 4 (.lit (.text "a#b"))])] none] := by
  intro es
  have hparse : parse "if x:\n  neuro \"a#b\"".toList =
      .ok [.choose 1 [(.var "x", [.print 2 (.lit (.text "a#b"))])] none] := rfl
  have hsource : originals es = lines "if x:\n  neuro \"a#b\"".toList := by decide
  have hes : ∀ e ∈ es, e.Sound := by
    have hcomment (r : List Char) (hr : OneLine r) : IsComment ('#' :: r) :=
      ⟨oneLine_cons.mpr ⟨by decide, hr⟩, r, .inl rfl⟩
    intro e he
    simp only [es, List.mem_cons, List.not_mem_nil, or_false] at he
    rcases he with rfl | rfl | rfl | rfl
    · exact ⟨['\t'], "# first".toList, rfl, by decide, by decide, .inr (hcomment _ (by decide))⟩
    · exact ⟨by decide, by decide, _, .inr rfl⟩
    · exact ⟨[], [], rfl, nofun, by decide, .inl rfl⟩
    · exact ⟨by decide, hcomment _ (by decide)⟩
  have hmoved := (remarks_say_nothing hsource hes).2
  rw [hparse] at hmoved
  simp only [Except.mapError, Except.map, renumberBlock, Stmt.renumber, renumberArms,
    renumberElse] at hmoved
  exact ⟨by decide, hmoved⟩

end Scribe.Script
