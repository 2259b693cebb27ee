import Mathlib.Combinatorics.Enumerative.DyckWord
import Scribe.Proofs.Script.Joined
import Scribe.Proofs.Script.Rows

/-!
# Levels of indentation

The starts and the ends of blocks are balanced like brackets, and how many blocks are open in front
of a line is a matter of the indentations of the lines so far: each line with code closes the levels
that are not below its own, and opens its own. A line that falls back to a level which is not open
has no tokens.
-/
namespace Scribe.Script
open Text

/-! ## Brackets -/

/-- Steps up and down from one height to another, never below the ground. -/
inductive Climbs : Nat → List DyckStep → Nat → Prop
  | nil {d} : Climbs d [] d
  | up {d w d'} (rest : Climbs (d + 1) w d') : Climbs d (.U :: w) d'
  | down {d w d'} (rest : Climbs d w d') : Climbs (d + 1) (.D :: w) d'

section Climbs
variable {d d' d'' : Nat} {w v : List DyckStep}

theorem Climbs.append (h : Climbs d w d') (h' : Climbs d' v d'') : Climbs d (w ++ v) d'' := by
  induction h with
  | nil => exact h'
  | up _ ih => exact .up (ih h')
  | down _ ih => exact .down (ih h')

theorem climbs_replicate (d k : Nat) : Climbs (d + k) (List.replicate k .D) d := by
  induction k with
  | zero => exact .nil
  | succ k ih => exact .down ih

theorem Climbs.count (h : Climbs d w d') : w.count .U + d = w.count .D + d' := by
  induction h with
  | nil => rfl
  | up _ ih =>
    simp only [List.count_cons, reduceCtorEq, beq_iff_eq, beq_self_eq_true, if_true, if_false]
    omega
  | down _ ih =>
    simp only [List.count_cons, reduceCtorEq, beq_iff_eq, beq_self_eq_true, if_true, if_false]
    omega

/-- The way is never below the ground. -/
theorem Climbs.take (h : Climbs d w d') (i : Nat) : ∃ e, Climbs d (w.take i) e := by
  induction h generalizing i with
  | nil => exact ⟨_, by rw [List.take_nil]; exact .nil⟩
  | @up d w _ _ ih =>
    cases i with
    | zero => exact ⟨d, .nil⟩
    | succ i =>
      obtain ⟨e, he⟩ := ih i
      exact ⟨e, .up he⟩
  | @down d w _ _ ih =>
    cases i with
    | zero => exact ⟨d + 1, .nil⟩
    | succ i =>
      obtain ⟨e, he⟩ := ih i
      exact ⟨e, .down he⟩

def Climbs.dyckWord (h : Climbs 0 w 0) : DyckWord where
  toList := w
  count_U_eq_count_D := h.count
  count_D_le_count_U i := by
    obtain ⟨e, he⟩ := h.take i
    have hcount := he.count
    omega

end Climbs

def Token.bracket? (t : Token) : Option DyckStep :=
  match t.kind with
  | .indent => some .U
  | .dedent => some .D
  | _ => none

def brackets (ts : List Token) : List DyckStep := ts.filterMap Token.bracket?

theorem brackets_append (ts us : List Token) : brackets (ts ++ us) = brackets ts ++ brackets us :=
  List.filterMap_append

theorem brackets_replicate {t : Token} (ht : t.kind = .dedent) (k : Nat) :
    brackets (List.replicate k t) = List.replicate k .D := by
  rw [brackets, List.filterMap_replicate_of_some]
  rw [Token.bracket?, ht]

theorem brackets_eq_nil {ts : List Token} (h : ∀ t ∈ ts, t.kind ≠ .indent ∧ t.kind ≠ .dedent) :
    brackets ts = [] := by
  refine List.filterMap_eq_nil_iff.mpr fun t ht => ?_
  obtain ⟨hindent, hdedent⟩ := h t ht
  unfold Token.bracket?
  split
  · exact absurd ‹_› hindent
  · exact absurd ‹_› hdedent
  · rfl

/-! ## Levels -/

def indentation (code : List Char) : Nat := (code.takeWhile (· == ' ')).length

def levelsBehind (levels : List Nat) (text : List Char) : List Nat :=
  if codeOf text = [] then levels
  else levels.filter (· < indentation (codeOf text)) ++ [indentation (codeOf text)]

def openLevels (texts : List (List Char)) : List Nat := texts.foldl levelsBehind [0]

theorem openLevels_append_singleton (texts : List (List Char)) (text : List Char) :
    openLevels (texts ++ [text]) = levelsBehind (openLevels texts) text := by
  rw [openLevels, List.foldl_append]
  rfl

structure IsStack (levels : List Nat) : Prop where
  bottom : levels.head? = some 0
  rising : levels.Pairwise (· < ·)

theorem IsStack.behind {levels : List Nat} (h : IsStack levels) (text : List Char) :
    IsStack (levelsBehind levels text) := by
  unfold levelsBehind
  split
  · exact h
  · generalize indentation (codeOf text) = indent
    refine ⟨?_, List.pairwise_append.mpr
      ⟨h.rising.filter _, List.pairwise_singleton _ _, fun x hx y hy => ?_⟩⟩
    · obtain ⟨rest, rfl⟩ := List.head?_eq_some_iff.mp h.bottom
      cases indent with
      | zero => simp
      | succ indent => simp
    · rw [List.mem_singleton.mp hy]
      simpa using (List.mem_filter.mp hx).2

theorem isStack_openLevels (texts : List (List Char)) : IsStack (openLevels texts) := by
  induction texts using List.reverseRecOn with
  | nil => exact ⟨rfl, List.pairwise_singleton _ _⟩
  | append_singleton texts text ih =>
    rw [openLevels_append_singleton]
    exact ih.behind text

/-- The levels as the lines are cut: the innermost first, and without the left edge. -/
def stackOf (levels : List Nat) : List Nat := 0 :: levels.reverse

section Marks
variable {levels : List Nat}

theorem stackOf_append (above below : List Nat) :
    stackOf (above ++ below) = stackOf below ++ above.reverse := by
  rw [stackOf, stackOf, List.reverse_append, List.cons_append]

theorem getLastD_stackOf (levels : List Nat) : (stackOf levels).getLastD 0 = levels.headD 0 := by
  cases levels with
  | nil => rfl
  | cons x rest =>
    rw [stackOf, List.reverse_cons, ← List.cons_append, List.getLastD_concat]
    rfl

theorem mem_stackOf {x : Nat} : x ∈ stackOf levels ↔ x = 0 ∨ x ∈ levels := by
  rw [stackOf, List.mem_cons, List.mem_reverse]

theorem IsStack.descending (h : IsStack (stackOf levels)) : levels.Pairwise (· > ·) :=
  List.pairwise_reverse.mp (List.pairwise_cons.mp h.rising).2

theorem IsStack.deep (h : IsStack (stackOf levels)) : Deep levels :=
  fun x hx => (List.pairwise_cons.mp h.rising).1 x (List.mem_reverse.mpr hx)

theorem IsStack.le_headD (h : IsStack (stackOf levels)) {x : Nat} (hx : x ∈ stackOf levels) :
    x ≤ levels.headD 0 := by
  have hdown := h.descending
  cases levels with
  | nil =>
    rcases mem_stackOf.mp hx with rfl | hx
    · exact Nat.le_refl 0
    · cases hx
  | cons y rest =>
    rcases mem_stackOf.mp hx with rfl | hx
    · exact Nat.zero_le _
    · rcases List.mem_cons.mp hx with rfl | hx
      · exact Nat.le_refl x
      · exact Nat.le_of_lt ((List.pairwise_cons.mp hdown).1 x hx)

/-- A line at an open level closes the levels above it. -/
theorem blockMarks_open {above below : List Nat} {indent : Nat}
    (h : IsStack (stackOf (above ++ indent :: below))) (line : Nat) :
    blockMarks line (above ++ indent :: below) indent =
      .ok (List.replicate above.length ⟨.dedent, "", line, 1⟩, indent :: below) := by
  have habove := (List.pairwise_append.mp h.descending).2.2
  have hflat : ¬(above ++ indent :: below).headD 0 < indent :=
    Nat.not_lt.mpr (h.le_headD (mem_stackOf.mpr (.inr (by simp))))
  have hkept : keptLevels (above ++ indent :: below) indent = indent :: below := by
    rw [keptLevels, List.dropWhile_append_of_pos, List.dropWhile_cons_of_neg]
    · simp
    · exact fun x hx => decide_eq_true (habove x hx indent List.mem_cons_self)
  have hclosed : (above ++ indent :: below).length - (indent :: below).length = above.length := by
    rw [List.length_append, Nat.add_sub_cancel]
  rw [← hclosed, blockMarks, if_neg hflat, hkept]
  exact if_pos (beq_self_eq_true indent)

theorem filter_stackOf_open {above below : List Nat} {indent : Nat}
    (h : IsStack (stackOf (above ++ indent :: below))) :
    (stackOf (above ++ indent :: below)).filter (· < indent) = stackOf below := by
  have hdown := List.pairwise_append.mp h.descending
  have hbelow : ∀ x ∈ stackOf below, x < indent := by
    intro x hx
    rcases mem_stackOf.mp hx with rfl | hx
    · exact h.deep indent (by simp)
    · exact (List.pairwise_cons.mp hdown.2.1).1 x hx
  have hfirst : (stackOf below).filter (· < indent) = stackOf below :=
    List.filter_eq_self.mpr fun x hx => decide_eq_true (hbelow x hx)
  have habove : above.reverse.filter (· < indent) = [] :=
    List.filter_eq_nil_iff.mpr fun x hx => by
      have := hdown.2.2 x (List.mem_reverse.mp hx) indent List.mem_cons_self
      simp only [decide_eq_true_eq]
      omega
  have hsplit : stackOf (indent :: below) = stackOf below ++ [indent] :=
    stackOf_append [indent] below
  rw [stackOf_append, hsplit, List.filter_append, List.filter_append, hfirst, habove]
  simp

/-- The marks of a line at a deeper level, or at one that is open. -/
theorem blockMarks_of_mem (h : IsStack (stackOf levels)) {indent : Nat} (line : Nat)
    (hindent : levels.headD 0 < indent ∨ indent ∈ stackOf levels) :
    ∃ marks levels', blockMarks line levels indent = .ok (marks, levels') ∧
      stackOf levels' = (stackOf levels).filter (· < indent) ++ [indent] ∧
      Climbs levels.length (brackets marks) levels'.length := by
  rcases hindent with hdeeper | hopen
  · refine ⟨_, _, by rw [blockMarks, if_pos hdeeper], ?_, .up .nil⟩
    have hkept : (stackOf levels).filter (· < indent) = stackOf levels :=
      List.filter_eq_self.mpr fun x hx => by
        have := h.le_headD hx
        exact decide_eq_true (by omega)
    rw [hkept, ← List.singleton_append, stackOf_append]
    rfl
  · rcases mem_stackOf.mp hopen with rfl | hmem
    · refine ⟨_, _, blockMarks_left h.deep line, ?_, ?_⟩
      · have hnone : (stackOf levels).filter (· < 0) = [] := by simp
        rw [hnone]
        rfl
      · have hclimbs := climbs_replicate 0 levels.length
        rw [Nat.zero_add] at hclimbs
        rwa [brackets_replicate rfl]
    · obtain ⟨above, below, rfl⟩ := List.append_of_mem hmem
      refine ⟨_, _, blockMarks_open h line, ?_, ?_⟩
      · rw [filter_stackOf_open h]
        exact stackOf_append [indent] below
      · rw [brackets_replicate rfl, List.length_append, Nat.add_comm]
        exact climbs_replicate _ _

/-- A line has no marks if it falls back to a level that is not open. -/
theorem blockMarks_of_not_mem {indent : Nat} (line : Nat) (hlow : ¬levels.headD 0 < indent)
    (hnone : indent ∉ stackOf levels) :
    blockMarks line levels indent = .error .unmatchedIndent := by
  have hhead : ((keptLevels levels indent).headD 0 == indent) = false := by
    refine beq_false_of_ne fun heq => hnone (mem_stackOf.mpr ?_)
    cases hkept : keptLevels levels indent with
    | nil =>
      rw [hkept] at heq
      exact .inl heq.symm
    | cons x rest =>
      rw [hkept] at heq
      have hsub : keptLevels levels indent <:+ levels := List.dropWhile_suffix _
      rw [hkept] at hsub
      exact .inr (hsub.subset (by rw [← heq]; exact List.mem_cons_self))
  rw [blockMarks, if_neg hlow]
  simp only [hhead, Bool.false_eq_true, if_false]

end Marks

/-! ## Lines -/

def leading (code : List Char) : List Char := code.takeWhile fun c => c == ' ' || c == '\t'

def TabIndented (code : List Char) : Prop := '\t' ∈ leading code

def Unmatched (levels : List Nat) (indent : Nat) : Prop :=
  indent < levels.getLastD 0 ∧ indent ∉ levels

inductive Refusal (levels : List Nat) (code : List Char) : LexCause → Prop
  | tab (htab : TabIndented code) : Refusal levels code .tabIndent
  | level (htab : ¬TabIndented code) (hlevel : Unmatched levels (indentation code)) :
      Refusal levels code .unmatchedIndent
  | lexeme {cause} (htab : ¬TabIndented code) (hlevel : ¬Unmatched levels (indentation code))
      (hlex : lexFrom 1 [] (indentation code + 1) 0
        (code.dropWhile fun c => c == ' ' || c == '\t') = .error cause) :
      Refusal levels code cause

theorem length_leading {code : List Char} (h : ¬TabIndented code) :
    (leading code).length = indentation code := by
  unfold TabIndented leading indentation at *
  induction code with
  | nil => rfl
  | cons c r ih =>
    rw [List.takeWhile_cons] at h ⊢
    rw [List.takeWhile_cons]
    by_cases hspace : c = ' '
    · subst hspace
      simp only [beq_self_eq_true, Bool.true_or, if_true, List.mem_cons, List.length_cons] at h ⊢
      rw [ih fun hmem => h (.inr hmem)]
    · by_cases htab : c = '\t'
      · subst htab
        simp at h
      · simp [hspace, htab]

section Lines
variable {line : Nat} {levels levels' after : List Nat} {code : List Char} {row : List Token}

/-- What a line that has code consists of, and the levels behind it. -/
theorem lexLine_levels (h : lexLine line levels code = .ok (row, levels'))
    (hs : IsStack (stackOf levels)) :
    stackOf levels' = (stackOf levels).filter (· < indentation code) ++ [indentation code] ∧
      ∃ marks own, row = marks ++ own ∧ (∀ t ∈ marks, t.kind = .indent ∨ t.kind = .dedent) ∧
        (∀ t ∈ own, t.kind ≠ .indent ∧ t.kind ≠ .dedent) ∧
        Climbs levels.length (brackets marks) levels'.length := by
  have htab : ¬TabIndented code := by
    intro htab
    unfold TabIndented leading at htab
    simp only [lexLine, List.contains_iff_mem, if_pos htab] at h
    cases h
  obtain ⟨marks, us, hmarks, hus, rfl⟩ := lexLine_eq_ok h
  change blockMarks line levels (leading code).length = _ at hmarks
  rw [length_leading htab] at hmarks
  have hindent : levels.headD 0 < indentation code ∨ indentation code ∈ stackOf levels := by
    by_contra hnone
    rw [not_or] at hnone
    rw [blockMarks_of_not_mem line hnone.1 hnone.2] at hmarks
    cases hmarks
  obtain ⟨marks', levels'', hmarks', hstack, hclimbs⟩ := blockMarks_of_mem hs line hindent
  rw [hmarks] at hmarks'
  cases hmarks'
  refine ⟨hstack, marks, us ++ [⟨.newline, "", line, code.length + 1⟩], List.append_assoc ..,
    kind_of_blockMarks hmarks, List.forall_mem_append.mpr ⟨fun t ht => ?_, ?_⟩, hclimbs⟩
  · have hcode := (inCode_of_lexFrom hus t ht).not_isLayout
    exact ⟨fun hk => hcode (.inr (.inl hk)), fun hk => hcode (.inr (.inr hk))⟩
  · exact List.forall_mem_singleton.mpr (by simp)

theorem lexLine_of_spaces (htab : ¬TabIndented code) :
    lexLine line levels code = blockMarks line levels (indentation code) >>=
      fun (marks, levels') => lexFrom line [] (indentation code + 1) 0
        (code.dropWhile fun c => c == ' ' || c == '\t') >>= fun us =>
          pure (marks ++ us ++ [⟨.newline, "", line, code.length + 1⟩], levels') := by
  rw [← length_leading htab, ← drop_length_takeWhile]
  unfold TabIndented leading at htab
  simp only [lexLine, List.contains_iff_mem, if_neg htab]
  rfl

/-- A line has no tokens exactly if there is a reason for it. -/
theorem lexLine_eq_error_iff (hs : IsStack (stackOf levels)) {cause : LexCause} :
    lexLine line levels code = .error cause ↔ Refusal (stackOf levels) code cause := by
  by_cases htab : TabIndented code
  · have hfails : lexLine line levels code = .error .tabIndent := by
      unfold TabIndented leading at htab
      simp only [lexLine, List.contains_iff_mem, if_pos htab]
    rw [hfails]
    constructor
    · rintro ⟨⟩
      exact .tab htab
    · rintro (- | ⟨hnone, -⟩ | ⟨hnone, -, -⟩)
      · rfl
      · exact absurd htab hnone
      · exact absurd htab hnone
  by_cases hlevel : Unmatched (stackOf levels) (indentation code)
  · have hlow := hlevel.1
    rw [getLastD_stackOf] at hlow
    rw [lexLine_of_spaces htab, blockMarks_of_not_mem line (Nat.lt_asymm hlow) hlevel.2]
    constructor
    · rintro ⟨⟩
      exact .level htab hlevel
    · rintro (hsome | - | ⟨-, hopen, -⟩)
      · exact absurd hsome htab
      · rfl
      · exact absurd hlevel hopen
  · have hopen : levels.headD 0 < indentation code ∨ indentation code ∈ stackOf levels := by
      by_contra hnone
      obtain ⟨hlow, hmem⟩ := not_or.mp hnone
      have hlast : (stackOf levels).getLastD 0 ∈ stackOf levels := by
        rw [stackOf, List.getLastD_cons]
        exact List.getLastD_mem_cons
      rw [← getLastD_stackOf, not_lt] at hlow
      exact hlevel ⟨lt_of_le_of_ne hlow fun heq => hmem (heq ▸ hlast), hmem⟩
    obtain ⟨marks, levels', hmarks, -⟩ := blockMarks_of_mem hs line hopen
    rw [lexLine_of_spaces htab, hmarks]
    constructor
    · intro hfails
      obtain hmarks | ⟨_, hmarks, hrest⟩ := Outcome.bind_eq_error.mp hfails
      · cases hmarks
      · cases hmarks
        obtain hlex | ⟨us, -, hpure⟩ := Outcome.bind_eq_error.mp hrest
        · rw [lexFrom_onLine 1] at hlex
          exact .lexeme htab hlevel (Outcome.map_eq_error.mp hlex)
        · cases hpure
    · rintro (hsome | ⟨-, hclosed⟩ | ⟨-, -, hlex⟩)
      · exact absurd hsome htab
      · exact absurd hclosed hlevel
      · refine Outcome.bind_eq_error.mpr (.inr ⟨_, rfl, Outcome.bind_eq_error.mpr (.inl ?_)⟩)
        rw [lexFrom_onLine 1]
        exact Outcome.map_eq_error.mpr hlex

end Lines

/-! ## Scripts -/

/-- The levels behind some lines, and the way to them. -/
theorem Rows.levels {line : Nat} {levels after : List Nat} {texts : List (List Char)}
    {rows : List (List Token)} (h : Rows line levels texts rows after)
    (hs : IsStack (stackOf levels)) :
    stackOf after = texts.foldl levelsBehind (stackOf levels) ∧
      Climbs levels.length (brackets rows.flatten) after.length := by
  induction h with
  | nil => exact ⟨rfl, .nil⟩
  | @blank line levels text texts rows after hcode _ ih =>
    obtain ⟨hstack, hclimbs⟩ := ih hs
    rw [List.foldl_cons, levelsBehind, if_pos hcode]
    exact ⟨hstack, hclimbs⟩
  | @code line levels levels' text texts row rows after hcode hrow _ ih =>
    obtain ⟨hbehind, marks, own, rfl, -, hown, hmarks⟩ := lexLine_levels hrow hs
    have hlevels : stackOf levels' = levelsBehind (stackOf levels) text := by
      rw [levelsBehind, if_neg hcode, hbehind]
    obtain ⟨hstack, hclimbs⟩ := ih (hlevels ▸ hs.behind text)
    rw [List.foldl_cons, ← hlevels, List.flatten_cons, brackets_append, brackets_append,
      brackets_eq_nil hown, List.append_nil]
    exact ⟨hstack, hmarks.append hclimbs⟩

/-- What the tokens of a line with code, behind the rows of the lines before, say of the levels that
are open in it: marks stand in front of its own tokens, and there as many blocks are open as there
are levels above the left edge. -/
structure Opens (before : List (List Token)) (levels : List Nat) (code : List Char)
    (row : List Token) : Prop where
  stack : IsStack levels
  top : levels.getLast? = some (indentation code)
  marked : ∃ marks own, row = marks ++ own ∧
    (∀ t ∈ marks, t.kind = .indent ∨ t.kind = .dedent) ∧
    (∀ t ∈ own, t.kind ≠ .indent ∧ t.kind ≠ .dedent) ∧
    (brackets (before.flatten ++ marks)).count .U =
      (brackets (before.flatten ++ marks)).count .D + (levels.length - 1)

/-- Tokens whose blocks are balanced, and open at each line with code as its indentation says. -/
structure Bracketed (source : List Char) (ts : List Token) : Prop where
  balanced : ∃ w : DyckWord, w.toList = brackets ts
  byLine : ∃ (rows : List (List Token)) (closing : List Token), ts = rows.flatten ++ closing ∧
    rows.length = (lines source).length ∧ (∀ t ∈ closing, t.kind = .dedent) ∧
    ∀ i text row, (lines source)[i]? = some text → rows[i]? = some row →
      codeOf text = [] ∧ row = [] ∨ codeOf text ≠ [] ∧
        ∃ before behind, lexLine (i + 1) before (codeOf text) = .ok (row, behind) ∧
          stackOf behind = openLevels ((lines source).take (i + 1)) ∧
          Opens (rows.take i) (stackOf behind) (codeOf text) row

theorem bracketed_of_tokenize {source : List Char} {ts : List Token}
    (h : tokenize source = .ok ts) : Bracketed source ts := by
  have hbottom : IsStack (stackOf []) := isStack_openLevels []
  obtain ⟨rows, after, hrows, hts⟩ := rows_of_lexLines h
  constructor
  · have hclimbs := (hrows.levels hbottom).2.append
      ((Nat.zero_add _ ▸ climbs_replicate 0 after.length : Climbs after.length _ 0))
    rw [hts, brackets_append, brackets_replicate rfl]
    exact ⟨hclimbs.dyckWord, rfl⟩
  refine ⟨rows, _, hts, hrows.length, fun t ht => by rw [List.eq_of_mem_replicate ht],
    fun i text row htext hrow => ?_⟩
  obtain ⟨before, hbefore, hblank | ⟨hcode, behind, hline⟩⟩ := hrows.get htext hrow
  · exact .inl hblank
  obtain ⟨hstack, hclimbs⟩ := hbefore.levels hbottom
  have hs : IsStack (stackOf before) := hstack ▸ isStack_openLevels _
  obtain ⟨hbehind, marks, own, rfl, hmarks, hown, hup⟩ := lexLine_levels hline hs
  have hlevels : stackOf behind = openLevels ((lines source).take (i + 1)) := by
    rw [List.take_add_one, htext, Option.toList_some, openLevels_append_singleton, levelsBehind,
      if_neg hcode, hbehind, hstack]
    rfl
  refine .inr ⟨hcode, before, behind, by rwa [Nat.add_comm 1] at hline, hlevels,
    hlevels ▸ isStack_openLevels _, ?_, marks, own, rfl, hmarks, hown, ?_⟩
  · rw [hbehind, List.getLast?_concat]
  · have hcount := (hclimbs.append hup).count
    rw [← brackets_append] at hcount
    rw [stackOf, List.length_cons, List.length_reverse, Nat.add_sub_cancel]
    exact hcount

def RefusedAt (source : List Char) (i : Nat) (cause : LexCause) : Prop :=
  ∃ text, (lines source)[i]? = some text ∧ codeOf text ≠ [] ∧
    Refusal (openLevels ((lines source).take i)) (codeOf text) cause

theorem Rows.refusal {source : List Char} {i : Nat} {text : List Char} {rows : List (List Token)}
    {before : List Nat} (h : Rows 1 [] ((lines source).take i) rows before)
    (htext : (lines source)[i]? = some text) (hcode : codeOf text ≠ []) {cause : LexCause} :
    lexLine (1 + i) before (codeOf text) = .error cause ↔ RefusedAt source i cause := by
  have hstack : stackOf before = openLevels ((lines source).take i) :=
    (h.levels (isStack_openLevels [])).1
  rw [lexLine_eq_error_iff (hstack ▸ isStack_openLevels _), hstack]
  constructor
  · exact fun hcause => ⟨text, htext, hcode, hcause⟩
  · rintro ⟨text', htext', -, hcause⟩
    rw [htext] at htext'
    cases htext'
    exact hcause

/-- No line among those that have rows is refused. -/
theorem Rows.not_refused {source : List Char} {i j : Nat} {rows : List (List Token)}
    {after : List Nat} (h : Rows 1 [] ((lines source).take i) rows after) (hj : j < i)
    {cause : LexCause} : ¬RefusedAt source j cause := by
  rintro ⟨text, htext, hcode, hcause⟩
  have htext' : ((lines source).take i)[j]? = some text := by rwa [List.getElem?_take_of_lt hj]
  have hlt : j < rows.length := h.length ▸ (List.getElem?_eq_some_iff.mp htext').1
  obtain ⟨before, hbefore, hblank | ⟨-, behind, hline⟩⟩ :=
    h.get htext' (List.getElem?_eq_getElem hlt)
  · exact hcode hblank.1
  · rw [List.take_take, Nat.min_eq_left (Nat.le_of_lt hj)] at hbefore
    rw [(hbefore.refusal htext hcode).mpr ⟨text, htext, hcode, hcause⟩] at hline
    cases hline

/-- The blocks of a script are balanced and follow its indentation, unless a line is refused; the
first such line is to blame. -/
theorem blocks_balanced (source : List Char) :
    (∀ ts, tokenize source = .ok ts → Bracketed source ts) ∧
      ∀ fault, tokenize source = .error fault ↔ ∃ (i : Nat) (cause : LexCause),
        fault = ⟨.lexical cause, some ↑(i + 1)⟩ ∧ RefusedAt source i cause ∧
          ∀ j < i, ∀ cause, ¬RefusedAt source j cause := by
  refine ⟨fun ts => bracketed_of_tokenize, fun fault => ⟨fun h => ?_, ?_⟩⟩
  · obtain ⟨i, text, rows, before, cause, htext, hrows, hcode, hline, rfl⟩ := fault_of_lexLines h
    exact ⟨i, cause, by rw [Nat.add_comm], (hrows.refusal htext hcode).mp hline,
      fun j hj cause => hrows.not_refused hj⟩
  · rintro ⟨i, cause, rfl, hrefused, hfirst⟩
    obtain ⟨text, htext, hcode, -⟩ := id hrefused
    cases htokens : tokenize source with
    | ok ts =>
      obtain ⟨rows, after, hrows, -⟩ := rows_of_lexLines htokens
      rw [← List.take_length (l := lines source)] at hrows
      exact absurd hrefused (hrows.not_refused (List.getElem?_eq_some_iff.mp htext).1)
    | error fault =>
      obtain ⟨j, text', rows, before, cause', htext', hrows, hcode', hline, rfl⟩ :=
        fault_of_lexLines htokens
      have hrefused' := (hrows.refusal htext' hcode').mp hline
      rcases Nat.lt_trichotomy i j with hlt | rfl | hlt
      · exact absurd hrefused (hrows.not_refused hlt)
      · rw [(hrows.refusal htext' hcode').mpr hrefused] at hline
        cases hline
        rw [Nat.add_comm]
      · exact absurd hrefused' (hfirst j hlt cause')

/-- Two blocks that one line closes, and a line that falls back between two open levels. -/
theorem blocks_balanced_fallback :
    (∃ ts, tokenize "if x:\n  if y:\n      neuro 1\nneuro 2".toList = .ok ts ∧
        Bracketed "if x:\n  if y:\n      neuro 1\nneuro 2".toList ts) ∧
      RefusedAt "if x:\n    neuro 1\n  neuro 2".toList 2 .unmatchedIndent := by
  constructor
  · exact ⟨_, rfl, (blocks_balanced _).1 _ rfl⟩
  · have hfault : tokenize "if x:\n    neuro 1\n  neuro 2".toList =
        .error ⟨.lexical .unmatchedIndent, some 3⟩ := rfl
    obtain ⟨i, cause, heq, hrefused, -⟩ := ((blocks_balanced _).2 _).mp hfault
    injection heq with hcause hline
    injection hcause with hcause
    injection hline with hline
    have hi : i = 2 := by omega
    subst hi hcause
    exact hrefused

end Scribe.Script
