import Scribe.Proofs.Instruction.Clauses

/-!
# Comparisons with a quoted text

The phrases of a comparison are looked for in the whole condition, the text between its quotes
included. A phrase that occurs there becomes a sign, and what is rewritten afterwards neither takes
the sign out nor puts a quote before it. Where no phrase occurs, the words stay as they are and the
gaps between them are narrowed to one space. The quotes themselves are left alone.
-/
namespace Scribe.Instruction
open Text Pattern

def cuttingWords : List String := ["elif", "else", "otherwise"] ++ branchVerbs

structure Wording where
  text : List Char
  words : ∀ c ∈ text, isWordChar c = true ∨ c = ' '
  plain : Lacks cuttingWords text

def quotedCondition (v : PlainWord) (q : Char) (w : Wording) : List Char :=
  v.text ++ (" is ".toList ++ q :: (w.text ++ [q]))

/-! ## The phrases -/

section Phrases
variable {before k : List Char} {q : Char} {e : Pattern × String}

theorem isQuote_iff : isQuote q = true ↔ q = '"' ∨ q = '\'' := by simp [isQuote]

def rephrased (ops : List (Pattern × String)) (before k : List Char) : List Char :=
  ops.foldl (fun k (phrase, op) => phrase.replaceFrom (fun _ => op.toList) before 0 k) k

theorem rephrased_cons (e : Pattern × String) (ops : List (Pattern × String))
    (before k : List Char) : rephrased (e :: ops) before k =
      rephrased ops before (e.1.replaceFrom (fun _ => e.2.toList) before 0 k) := rfl

theorem phrase_apart {x : Char} (he : e ∈ comparisonPhrases) (hx : isWordChar x = false) :
    e.1.matchAt before (x :: k) = none :=
  (opens_comparisonPhrases e he).matchAt_apart ofLetters_comparisonHeads hx before k

/-- The word `is` in front of a quote is part of no longer phrase. -/
theorem longerPhrase_is (hq : isQuote q = true) : ∀ e ∈ comparisonPhrases.dropLast,
    e.1.Unmatched (' ' :: before) "is".toList (' ' :: q :: k) := by
  simp only [comparisonPhrases, List.dropLast, List.forall_mem_cons]
  rcases isQuote_iff.mp hq with rfl | rfl
  all_goals
    refine ⟨?_, ?_, ?_, ?_, ?_, ?_, ?_, ?_, ?_, ?_, ?_, by simp⟩
    all_goals exact .cons rfl (.cons rfl unmatched_nil)

/-- Phrases that do not occur in a front are looked for behind it. -/
theorem foldl_replace_behind {ops : List (Pattern × String)} {u : List Char}
    (h : ∀ e ∈ ops, ∀ k, e.1.Unmatched [] u k) (k : List Char) :
    ops.foldl (fun c (phrase, op) => phrase.replace op c) (u ++ k) =
      u ++ rephrased ops u.reverse k := by
  induction ops generalizing k with
  | nil => rfl
  | cons e rest ih =>
    obtain ⟨he, hrest⟩ := List.forall_mem_cons.mp h
    have hfirst : e.1.replace e.2 (u ++ k) = _ := replaceWith_behind (he k)
    rw [List.foldl_cons, rephrased_cons, ← ih hrest, ← hfirst]

def quotedFront (v : PlainWord) (q : Char) : List Char :=
  v.text ++ [' '] ++ ("is".toList ++ [' ', q])

variable (v : PlainWord)

theorem phrase_subject (he : e ∈ comparisonPhrases) (k : List Char) :
    e.1.Unmatched [] (v.text ++ [' ']) k := by
  have hapart : ¬OpenStart ([' '] ++ k) := Bool.false_ne_true
  have hsubject : e.1.Unmatched [] v.text ([' '] ++ k) :=
    (opens_comparisonPhrases e he).unmatched ofLetters_comparisonHeads
      (v.lacks.mono comparisonHeads_steering) (.inr fun _ _ => id) hapart []
  exact hsubject.append (.cons (phrase_apart he (by decide)) unmatched_nil)

theorem isWordChar_of_isQuote (hq : isQuote q = true) : isWordChar q = false := by
  rcases isQuote_iff.mp hq with rfl | rfl <;> decide

theorem phrase_quote (he : e ∈ comparisonPhrases) (hq : isQuote q = true) :
    e.1.Unmatched before [' ', q] k :=
  .cons (phrase_apart he (by decide))
    (.cons (phrase_apart he (isWordChar_of_isQuote hq)) unmatched_nil)

theorem is_behind (hq : isQuote q = true) (k : List Char) :
    (edge ++ word "is" ++ edge).replace " == " (quotedFront v q ++ k) =
      loosely v.text [' '] .eq [' '] q ++
        (edge ++ word "is" ++ edge).replaceFrom (fun _ => " == ".toList)
          (quotedFront v q).reverse 0 k := by
  have he : (edge ++ word "is" ++ edge, " == ") ∈ comparisonPhrases := by simp [comparisonPhrases]
  have hrun : (edge ++ word "is" ++ edge).run some
      ⟨some ' ', "is".toList ++ ([' ', q] ++ k), []⟩ = some ⟨some 's', [' ', q] ++ k, []⟩ := by
    have hword : (word "is").run (edge.run some) ⟨some ' ', "is".toList ++ ([' ', q] ++ k), []⟩ =
        some ⟨some 's', [' ', q] ++ k, []⟩ := (run_word rfl).trans (run_edge rfl)
    exact (run_edge rfl).trans hword
  have hmatch : (edge ++ word "is" ++ edge).matchAt (' ' :: v.text.reverse)
      ("is".toList ++ ([' ', q] ++ k)) = some _ := matchAt_of_run hrun
  have htext : quotedFront v q ++ k = v.text ++ [' '] ++ ("is".toList ++ ([' ', q] ++ k)) := by
    simp [quotedFront]
  have hbefore : (v.text ++ [' ']).reverse = ' ' :: v.text.reverse := by simp
  have hreplace : (edge ++ word "is" ++ edge).replace " == " _ = _ :=
    replaceWith_behind (f := fun _ => " == ".toList)
      (phrase_subject v he ("is".toList ++ ([' ', q] ++ k)))
  rw [htext, hreplace, hbefore, replaceFrom_matched hmatch rfl (by simp),
    replaceFrom_unmatched (phrase_quote he hq)]
  simp [loosely, quotedFront, Script.Comparison.symbol]

/-- The phrase in front of the quote becomes a sign, and what follows it is rewritten on its own. -/
theorem phrases_behind (hq : isQuote q = true) (k : List Char) :
    comparisonPhrases.foldl (fun c (phrase, op) => phrase.replace op c) (quotedFront v q ++ k) =
      loosely v.text [' '] .eq [' '] q ++
        rephrased comparisonPhrases (quotedFront v q).reverse k := by
  have hsplit : comparisonPhrases =
      comparisonPhrases.dropLast ++ [(edge ++ word "is" ++ edge, " == ")] := rfl
  have hfront : ∀ e ∈ comparisonPhrases.dropLast, ∀ k, e.1.Unmatched [] (quotedFront v q) k := by
    intro e he k
    have hmem : e ∈ comparisonPhrases := List.dropLast_subset _ he
    refine (phrase_subject v hmem _).append (.append ?_ (phrase_quote hmem hq))
    rw [List.reverse_append, List.append_assoc]
    exact longerPhrase_is hq e he
  rw [rephrased, hsplit, List.foldl_append, List.foldl_append, foldl_replace_behind hfront]
  exact is_behind v hq _

end Phrases

/-! ## A sign in a quoted text -/

def isStop (c : Char) : Bool := isSign c || c == '"' || c == '\\'

def Signed (cs : List Char) : Prop := (cs.find? isStop).any isSign = true

instance (cs : List Char) : Decidable (Signed cs) :=
  inferInstanceAs (Decidable ((cs.find? isStop).any isSign = true))

section Signs
variable {p : Pattern} {f : Match → List Char} {before cs ds u v : List Char} {c : Char}

theorem signed_iff : Signed cs ↔
    ∃ a c b, cs = a ++ c :: b ∧ isSign c = true ∧ ∀ x ∈ a, isStop x = false := by
  rw [Signed, Option.any_eq_true]
  constructor
  · rintro ⟨c, hfind, hc⟩
    obtain ⟨-, a, b, rfl, ha⟩ := List.find?_eq_some_iff_append.mp hfind
    exact ⟨a, c, b, rfl, hc, fun x hx => by simpa using ha x hx⟩
  · rintro ⟨a, c, b, rfl, hc, ha⟩
    refine ⟨c, List.find?_eq_some_iff_append.mpr ⟨by simp [isStop, hc], a, b, rfl, ?_⟩, hc⟩
    exact fun x hx => by simpa using ha x hx

theorem Signed.append (h : Signed cs) (ds : List Char) : Signed (cs ++ ds) := by
  unfold Signed at h ⊢
  rw [List.find?_append]
  cases hfind : cs.find? isStop with
  | none =>
    rw [hfind] at h
    cases h
  | some c =>
    rw [hfind] at h
    exact h

theorem signed_cons (hc : isStop c = false) : Signed (c :: cs) ↔ Signed cs := by
  rw [Signed, Signed, List.find?_cons_of_neg (by simp [hc])]

theorem signed_of_head (hc : isSign c = true) (cs : List Char) : Signed (c :: cs) := by
  have hstop : isStop c = true := by simp [isStop, hc]
  rw [Signed, List.find?_cons_of_pos hstop]
  exact hc

/-- Replacements with a sign keep a sign. -/
theorem Signed.replaceFrom (hf : ∀ before rest m, p.matchAt before rest = some m → Signed (f m))
    (h : Signed cs) (before : List Char) : Signed (p.replaceFrom f before 0 cs) := by
  induction cs generalizing before with
  | nil => cases h
  | cons c r ih =>
    rw [Pattern.replaceFrom]
    split
    · rename_i m hm
      exact (hf _ _ m hm).append _
    · cases hstop : isStop c with
      | false => exact (signed_cons hstop).mpr (ih ((signed_cons hstop).mp h) _)
      | true =>
        have hsign : isSign c = true := by
          rwa [Signed, List.find?_cons_of_pos hstop] at h
        exact signed_of_head hsign _

/-- A replacement with a sign brings a sign in. -/
theorem signed_of_matched (hf : ∀ before rest m, p.matchAt before rest = some m → Signed (f m))
    (hu : ∀ c ∈ u, isStop c = false) (h : ¬p.Unmatched before u v) :
    Signed (p.replaceFrom f before 0 (u ++ v)) := by
  induction u generalizing before with
  | nil => exact absurd unmatched_nil h
  | cons c r ih =>
    rw [List.cons_append, Pattern.replaceFrom]
    split
    · rename_i m hm
      exact (hf _ _ m hm).append _
    · rename_i hnone
      obtain ⟨hc, hr⟩ := List.forall_mem_cons.mp hu
      exact (signed_cons hc).mpr (ih hr fun hrest => h (.cons hnone hrest))

theorem signed_phrase {e : Pattern × String} (he : e ∈ comparisonPhrases) : Signed e.2.toList := by
  have hall : ∀ op ∈ comparisonPhrases.map Prod.snd, Signed op.toList := by decide
  exact hall _ (List.mem_map_of_mem he)

theorem Signed.rephrased {ops : List (Pattern × String)} (hops : ∀ e ∈ ops, Signed e.2.toList)
    (h : Signed cs) :
    Signed (rephrased ops before cs) := by
  induction ops generalizing cs with
  | nil => exact h
  | cons e rest ih =>
    obtain ⟨he, hrest⟩ := List.forall_mem_cons.mp hops
    exact ih hrest (h.replaceFrom (fun _ _ _ _ => he) before)

/-- The first of the phrases that occurs brings a sign in, and the others keep a sign. -/
theorem signed_rephrased {ops : List (Pattern × String)}
    (hops : ∀ e ∈ ops, Signed e.2.toList) (hu : ∀ c ∈ u, isStop c = false)
    (hv : ∀ e ∈ ops, e.1.Unmatched (u.reverse ++ before) v [])
    (h : ¬∀ e ∈ ops, e.1.Unmatched before u v) :
    Signed (rephrased ops before (u ++ v)) := by
  induction ops with
  | nil => exact absurd nofun h
  | cons e rest ih =>
    obtain ⟨he, hrest⟩ := List.forall_mem_cons.mp hops
    obtain ⟨hev, hrestv⟩ := List.forall_mem_cons.mp hv
    rw [rephrased_cons]
    by_cases hfirst : e.1.Unmatched before u v
    · have hnone : e.1.Unmatched before (u ++ v) [] :=
        .append (by rwa [List.append_nil]) hev
      rw [replaceFrom_of_unmatched hnone]
      exact ih hrest hrestv fun hall => h (List.forall_mem_cons.mpr ⟨hfirst, hall⟩)
    · exact Signed.rephrased hrest (signed_of_matched (fun _ _ _ _ => he) hu hfirst)

theorem rephrased_eq_self {ops : List (Pattern × String)}
    (h : ∀ e ∈ ops, e.1.Unmatched before cs []) :
    rephrased ops before cs = cs := by
  induction ops with
  | nil => rfl
  | cons e rest ih =>
    obtain ⟨he, hrest⟩ := List.forall_mem_cons.mp h
    rw [rephrased_cons, replaceFrom_of_unmatched he]
    exact ih hrest

theorem isStop_of_isBlank (h : isBlank c = true) : isStop c = false := by
  have hne (d : Char) (hd : isBlank d = false) : (c == d) = false := by
    rw [beq_eq_false_iff_ne]
    rintro rfl
    rw [hd] at h
    cases h
  rw [isStop, isSign_of_isBlank h, hne '"' (by decide), hne '\\' (by decide)]
  rfl

theorem signed_filter : Signed (cs.filter fun c => !isBlank c) ↔ Signed cs := by
  have hstop : (fun c => decide ((!isBlank c) = true ∧ isStop c = true)) = isStop := by
    funext c
    cases hblank : isBlank c with
    | false => simp
    | true => simp [isStop_of_isBlank hblank]
  rw [Signed, Signed, List.find?_filter, hstop]

/-- Gaps are narrowed without any other change. -/
theorem filter_narrowed (before : List Char) (skip : Nat) (cs : List Char) :
    (blanks1.replaceFrom (fun _ => " ".toList) before skip cs).filter (fun c => !isBlank c) =
      (cs.drop skip).filter fun c => !isBlank c := by
  fun_induction replaceFrom blanks1 (fun _ => " ".toList) before skip cs with
  | case1 => simp
  | case2 before skip c r ih => exact ih
  | case3 before c r m hm ih =>
    obtain ⟨d, hspan, -, hparts, hafter, -⟩ := matchAt_sound hm
    obtain ⟨covered, hcovered, hblank⟩ :=
      hspan.covered (P := fun c => isBlank c = true) ⟨fun _ => id, fun _ => id⟩
    rw [← hafter] at hcovered
    obtain rfl : m.covered = covered := List.append_cancel_right (hparts.trans hcovered)
    have hgap : m.covered.filter (fun c => !isBlank c) = [] :=
      List.filter_eq_nil_iff.mpr fun c hc => by simp [hblank c hc]
    have hc : isBlank c = true := by
      cases hspan with
      | seq hone _ => cases hone with | one hx => exact hx
    have hskipped : (r.drop (m.covered.length - 1)).filter (fun c => !isBlank c) =
        m.after.filter fun c => !isBlank c := by
      cases hcase : m.covered with
      | nil =>
        rw [hcase, List.nil_append] at hparts
        simp [hparts, hc]
      | cons x u =>
        rw [hcase, List.cons_append] at hparts
        obtain ⟨-, rfl⟩ := List.cons_eq_cons.mp hparts
        simp
    rw [List.filter_append, ih, hskipped, List.drop_zero, ← hparts, List.filter_append, hgap]
    rfl
  | case4 before c r hm ih =>
    rw [List.drop_zero] at ih ⊢
    rw [List.filter_cons, List.filter_cons, ih]

theorem signed_literalSide {m : Match} (hm : comparedWords.matchAt before cs = some m) :
    Signed (literalSide m) := by
  have hsign : comparedWords.GroupIn 1 fun g => g ≠ [] ∧ ∀ c ∈ g, isSign c = true := by
    refine ⟨⟨⟨fun _ => covers_comparisonSign, ?_⟩, trivial⟩, nofun, ⟨trivial, trivial⟩, ?_⟩
    · simp [comparisonSign]
    · exact ⟨⟨⟨trivial, trivial⟩, trivial⟩, ⟨trivial, trivial⟩⟩
  obtain ⟨hne, hall⟩ := matchAt_group hsign (.inl (.inl (.inl rfl))) hm
  obtain ⟨c, s, hs⟩ := List.exists_cons_of_ne_nil hne
  rw [literalSide, hs]
  exact signed_of_head (hall c (by simp [hs])) _

theorem Signed.tidied (h : Signed cs) (before : List Char) : Signed (tidied before cs) := by
  have hfirst := h.replaceFrom (p := lonelyEquals) (f := fun _ => "==".toList)
    (fun _ _ _ _ => by decide) before
  have hsecond := hfirst.replaceFrom (fun _ _ _ hm => signed_literalSide hm) before
  rw [Instruction.tidied, ← signed_filter, filter_narrowed]
  exact signed_filter.mpr hsecond

theorem Signed.dropEnd (h : Signed cs) : Signed (dropEndWhile isBlank cs) := by
  obtain ⟨gap, hcs, hgap⟩ := dropEndWhile_rest isBlank cs
  have hnone : gap.find? isStop = none :=
    List.find?_eq_none.mpr fun c hc => by simp [isStop_of_isBlank (hgap c hc)]
  rwa [hcs, Signed, List.find?_append, hnone, Option.or_none] at h

end Signs

/-! ## Narrowed gaps -/

def narrow : List Char → List Char
  | ' ' :: ' ' :: r => narrow (' ' :: r)
  | c :: r => c :: narrow r
  | [] => []

section Gaps
variable {before w : List Char} {q : Char}

theorem head?_narrow (w : List Char) : (narrow w).head? = w.head? := by
  fun_induction narrow w with
  | case1 r ih => exact ih
  | case2 => rfl
  | case3 => rfl

/-- A text has narrow gaps if no two spaces touch in it. -/
theorem narrow_eq_self_iff : narrow w = w ↔ ¬[' ', ' '] <:+: w := by
  constructor
  · intro h
    rw [← h]
    clear h
    fun_induction narrow w with
    | case1 r ih => exact ih
    | case2 c r hgap ih =>
      rw [List.infix_cons_iff]
      rintro (hpair | hrest)
      · obtain ⟨rfl, s, hs⟩ := List.cons_prefix_cons.mp hpair
        have hhead := head?_narrow r
        rw [← hs] at hhead
        obtain ⟨s, rfl⟩ := List.head?_eq_some_iff.mp hhead.symm
        exact hgap s rfl rfl
      · exact ih hrest
    | case3 => simp
  · intro h
    fun_induction narrow w with
    | case1 r ih => exact absurd (List.prefix_append [' ', ' '] r).isInfix h
    | case2 c r hgap ih => rw [ih fun hrest => h (List.infix_cons hrest)]
    | case3 => rfl

theorem narrow_subset (w : List Char) : narrow w ⊆ w := by
  fun_induction narrow w with
  | case1 r ih => exact fun c hc => List.mem_cons_of_mem _ (ih hc)
  | case2 c r hgap ih => exact List.cons_subset_cons c ih
  | case3 => exact List.Subset.refl []

theorem replace_double_space (s : List Char) :
    blanks1.replaceFrom (fun _ => " ".toList) before 0 (' ' :: ' ' :: s) =
      blanks1.replaceFrom (fun _ => " ".toList) (' ' :: before) 0 (' ' :: s) := by
  have hall : ∀ c ∈ s.takeWhile isBlank, isBlank c = true := List.all_eq_true.mp List.all_takeWhile
  have hone : ∀ c ∈ ' ' :: s.takeWhile isBlank, isBlank c = true :=
    List.forall_mem_cons.mpr ⟨by decide, hall⟩
  have htwo : ∀ c ∈ ' ' :: ' ' :: s.takeWhile isBlank, isBlank c = true :=
    List.forall_mem_cons.mpr ⟨by decide, hone⟩
  have hnext := head?_dropWhile_any isBlank s
  have hleft := replace_front_gap (by simp) htwo hnext before " ".toList
  have hright := replace_front_gap (by simp) hone hnext (' ' :: before) " ".toList
  simp only [List.cons_append, List.takeWhile_append_dropWhile] at hleft hright
  rw [hleft, hright]
  simp

theorem narrow_gaps (hw : ∀ c ∈ w, isWordChar c = true ∨ c = ' ') (hq : isBlank q = false)
    (before : List Char) :
    blanks1.replaceFrom (fun _ => " ".toList) before 0 (w ++ [q]) = narrow w ++ [q] := by
  have hkept (c : Char) (hc : isBlank c = false) (before k : List Char) :
      blanks1.replaceFrom (fun _ => " ".toList) before 0 (c :: k) =
        c :: blanks1.replaceFrom (fun _ => " ".toList) (c :: before) 0 k :=
    replaceFrom_unmatched (.cons (blanks1_matchAt hc) unmatched_nil)
  fun_induction narrow w generalizing before with
  | case1 r ih =>
    obtain ⟨-, hr⟩ := List.forall_mem_cons.mp hw
    rw [List.cons_append, List.cons_append, replace_double_space]
    exact ih hr _
  | case2 c r hgap ih =>
    obtain ⟨hc, hr⟩ := List.forall_mem_cons.mp hw
    rcases hc with hc | rfl
    · rw [List.cons_append, hkept c (isBlank_of_isWordChar hc), ih hr, List.cons_append]
    · have hnext : (r ++ [q]).head?.any isBlank = false := by
        cases r with
        | nil => exact hq
        | cons d r =>
          have hd : d ≠ ' ' := fun hd => hgap r rfl (by rw [hd])
          exact isBlank_of_isWordChar ((hr d (by simp)).resolve_right hd)
      have hspace := replace_front_gap (g := [' ']) (by simp) (by decide) hnext before " ".toList
      rw [ih hr] at hspace
      exact hspace
  | case3 => rw [List.nil_append, hkept q hq]; rfl

end Gaps

/-! ## The condition -/

def Unphrased (w : List Char) : Prop :=
  ∀ e ∈ comparisonPhrases, e.1.found ('"' :: (w ++ ['"'])) = false

instance (w : List Char) : Decidable (Unphrased w) :=
  inferInstanceAs (Decidable (∀ e ∈ comparisonPhrases, e.1.found ('"' :: (w ++ ['"'])) = false))

theorem unphrased_iff {w : List Char} (before : List Char) :
    Unphrased w ↔ ∀ e ∈ comparisonPhrases, e.1.Unmatched ('"' :: before) w ['"'] := by
  refine forall₂_congr fun e he => ?_
  rw [found_eq_false_iff]
  constructor
  · rintro ⟨hall, -⟩
    exact hall.tail.left.behind before
  · intro h
    have hquote : e.1.Unmatched (w.reverse ++ ['"']) ['"'] [] :=
      .cons (phrase_apart he (by decide)) unmatched_nil
    refine ⟨.cons (phrase_apart he (by decide)) (.append (h.behind []) hquote), ?_⟩
    exact Option.map_eq_none_iff.mpr
      ((opens_comparisonPhrases e he).run_nil ofLetters_comparisonHeads _ _ _)

namespace Wording
variable (w : Wording)

theorem forall_text {P : Char → Prop} (hspace : P ' ') (h : ∀ c, isWordChar c = true → P c) :
    ∀ c ∈ w.text, P c := by
  intro c hc
  rcases w.words c hc with hword | rfl
  · exact h c hword
  · exact hspace

theorem isStop_text : ∀ c ∈ w.text, isStop c = false := by
  refine w.forall_text (by decide) fun c hc => ?_
  have hstops : ∀ c ∈ "=!<>\"\\".toList, isWordChar c = false := by decide
  cases hstop : isStop c with
  | false => rfl
  | true =>
    have hmem : c ∈ "=!<>\"\\".toList := by
      simpa [isStop, isSign, List.contains_eq_mem, or_assoc] using hstop
    rw [hstops c hmem] at hc
    cases hc

end Wording

variable (v : PlainWord) (w : Wording) {q : Char}

def quotedRest (q : Char) : List Char :=
  dropEndWhile isBlank (tidied (loosely v.text [' '] .eq [' '] q).reverse
    (rephrased comparisonPhrases (quotedFront v q).reverse (w.text ++ [q])))

theorem quotedCondition_eq : quotedCondition v q w = quotedFront v q ++ (w.text ++ [q]) := by
  simp [quotedCondition, quotedFront]

theorem getLast?_quotedCondition : (quotedCondition v q w).getLast? = some q := by
  rw [quotedCondition_eq, ← List.append_assoc]
  exact List.getLast?_concat

theorem oneLine_quotedCondition (hq : isQuote q = true) : OneLine (quotedCondition v q w) := by
  have hquote : OneLine [q] := by
    rcases isQuote_iff.mp hq with rfl | rfl <;> decide
  have hword (c : Char) (hc : isWordChar c = true) : c ≠ '\n' := by
    rintro rfl
    exact absurd hc (by decide)
  have htext : OneLine w.text := w.forall_text (by decide) hword
  have hquoted : OneLine ([q] ++ (w.text ++ [q])) :=
    oneLine_append.mpr ⟨hquote, oneLine_append.mpr ⟨htext, hquote⟩⟩
  exact oneLine_append.mpr ⟨v.word.oneLine, oneLine_append.mpr ⟨by decide, hquoted⟩⟩

theorem apart_of_isQuote (hq : isQuote q = true) :
    isSign q = false ∧ isBlank q = false ∧ isNameStart q = false := by
  rcases isQuote_iff.mp hq with rfl | rfl <;> decide

theorem trim_compared (k : List Char) (hq : isBlank q = false) :
    trim (compared v.text .eq (q :: k)) = compared v.text .eq (q :: dropEndWhile isBlank k) := by
  have hfront (k : List Char) : compared v.text .eq (q :: k) =
      v.first :: (v.rest ++ " == ".toList) ++ [q] ++ k := by
    simp [compared, PlainWord.text, Script.Comparison.symbol]
  rw [hfront, hfront, trim, trimWhile]
  rw [List.cons_append, List.cons_append, List.dropWhile_cons_of_neg (by simp [v.isBlank_first]),
    ← List.cons_append, ← List.cons_append]
  refine dropEndWhile_append ?_ k
  rw [List.getLast?_concat]
  exact hq

/-- The quotes of a condition are kept, and so is the comparison in front of them. -/
theorem condition_quoted (hq : isQuote q = true) :
    condition (quotedCondition v q w) = compared v.text .eq (q :: quotedRest v w q) := by
  have hblank : ∀ c ∈ v.text, isSign c = false ∧ isBlank c = false := v.forall_text (by decide)
  have hloose : Loose v.text [' '] [' '] q := ⟨hblank, by decide, by decide, apart_of_isQuote hq⟩
  have hlast := getLast?_quotedCondition v w (q := q)
  have htrim : trim (quotedCondition v q w) = quotedCondition v q w :=
    trimWhile_eq_self (hblank v.first (by simp [PlainWord.text])).2
      (by rw [hlast]; exact (apart_of_isQuote hq).2.1)
  have hcut : dropEndWhile (fun c => c == ',' || c == ':') (quotedCondition v q w) =
      quotedCondition v q w := by
    refine dropEndWhile_eq_self ?_
    rw [hlast]
    rcases isQuote_iff.mp hq with rfl | rfl <;> rfl
  have htidy := hloose.tidy .eq
    (rephrased comparisonPhrases (quotedFront v q).reverse (w.text ++ [q]))
  rw [condition, htrim, hcut, htrim, quotedCondition_eq, phrases_behind v hq]
  exact (congrArg trim htidy).trans (trim_compared v _ (apart_of_isQuote hq).2.1)

theorem quotedFront_reverse :
    (quotedFront v q).reverse = q :: ' ' :: ("is".toList.reverse ++ ' ' :: v.text.reverse) := by
  simp [quotedFront]

variable {v w} in
theorem phrases_unmatched (h : Unphrased w.text) : ∀ e ∈ comparisonPhrases,
    e.1.Unmatched (quotedFront v '"').reverse (w.text ++ ['"']) [] := by
  intro e he
  rw [quotedFront_reverse]
  exact .append ((unphrased_iff _).mp h e he) (.cons (phrase_apart he (by decide)) unmatched_nil)

theorem quotedRest_of_unphrased (h : Unphrased w.text) :
    quotedRest v w '"' = narrow w.text ++ ['"'] := by
  have hsign : ∀ c ∈ w.text ++ ['"'], isSign c = false := by
    refine List.forall_mem_append.mpr ⟨fun c hc => ?_, by decide⟩
    have hstop := w.isStop_text c hc
    rw [isStop, Bool.or_assoc, Bool.or_eq_false_iff] at hstop
    exact hstop.1
  have hlonely : lonelyEquals.Unmatched (loosely v.text [' '] .eq [' '] '"').reverse
      (w.text ++ ['"']) [] := unmatched_of_forall (fun _ _ _ h => lonelyEquals_matchAt h) hsign
  have hwords : comparedWords.Unmatched (loosely v.text [' '] .eq [' '] '"').reverse
      (w.text ++ ['"']) [] := unmatched_of_forall (fun _ _ _ h => comparedWords_matchAt h) hsign
  rw [quotedRest, rephrased_eq_self (phrases_unmatched h), tidied,
    replaceFrom_of_unmatched hlonely, replaceFrom_of_unmatched hwords,
    narrow_gaps w.words (by decide)]
  exact dropEndWhile_eq_self (by rw [List.getLast?_concat]; decide)

theorem signed_quotedRest (h : ¬Unphrased w.text) : Signed (quotedRest v w '"') := by
  rw [unphrased_iff (' ' :: ("is".toList.reverse ++ ' ' :: v.text.reverse)),
    ← quotedFront_reverse] at h
  have hrephrased : Signed (rephrased comparisonPhrases (quotedFront v '"').reverse
      (w.text ++ ['"'])) :=
    signed_rephrased (fun e he => signed_phrase he) w.isStop_text
      (fun e he => .cons (phrase_apart he (by decide)) unmatched_nil) h
  exact (hrephrased.tidied _).dropEnd

/-! ## The sentence -/

variable (m : PlainWord)

def quotedSentence (q : Char) : List Char :=
  ifSentence (quotedCondition v q w ++ (" say ".toList ++ m.text))

def quotedScript (q : Char) : List Char :=
  joinLines ["if ".toList ++ compared v.text .eq (q :: quotedRest v w q) ++ [':'],
    "    ".toList ++ printText m.text]

theorem cuttingWords_steering : cuttingWords ⊆ steeringWords := by decide

theorem lacks_quotedCondition {ss : List String} (hss : ss ⊆ cuttingWords) (hq : isQuote q = true) :
    Lacks ss (quotedCondition v q w) := by
  have hquote : isWordChar q = false := isWordChar_of_isQuote hq
  have hsteer : ss ⊆ steeringWords := fun s hs => cuttingWords_steering (hss hs)
  have hword : Lacks ss "is".toList :=
    lacks_spelled (by decide) fun hs => absurd (hss hs) (by decide)
  have htext : Lacks ss (w.text ++ ([q] ++ [])) :=
    (w.plain.mono hss).between (lacks_apart nofun) (by simp) (by simp [hquote])
  have hrest : Lacks ss ("is".toList ++ ([' ', q] ++ (w.text ++ ([q] ++ [])))) :=
    hword.between htext (by simp) (by simp [hquote]; decide)
  exact (v.lacks.mono hsteer).between (g := [' ']) hrest (by simp) (by decide)

theorem branchClause?_quoted (hq : isQuote q = true) :
    branchClause? (quotedCondition v q w ++ (" say ".toList ++ m.text)) =
      some (compared v.text .eq (q :: quotedRest v w q), m.text) := by
  have hlast (z : Char) (hz : (quotedCondition v q w).getLast? = some z) : ¬isClauseGap z := by
    rw [getLast?_quotedCondition, Option.some.injEq] at hz
    rcases isQuote_iff.mp hq with rfl | rfl <;> subst hz <;> decide
  have hlacks : Lacks branchVerbs (quotedCondition v q w) :=
    lacks_quotedCondition v w (List.subset_append_right _ _) hq
  have hclause := branchClause?_say (c := quotedCondition v q w) (List.cons_ne_nil _ _)
    v.isBlank_first hlacks hlast m
  rw [condition_quoted v w hq] at hclause
  exact hclause rfl

theorem renderBranch_quoted (hq : isQuote q = true) :
    renderBranch (quotedSentence v w m q) = ⟨quotedScript v w m q, []⟩ := by
  have hsay {ss : List String} (hss : ss ⊆ cuttingWords) (hnot : "say" ∉ ss) :
      Lacks ss (quotedCondition v q w ++ (" say ".toList ++ m.text)) :=
    (lacks_quotedCondition v w hss hq).between (g := [' '])
      (lacks_say m (fun s hs => cuttingWords_steering (hss hs)) hnot) (by simp) (by decide)
  have hline : OneLine (quotedCondition v q w ++ (" say ".toList ++ m.text)) :=
    oneLine_append.mpr ⟨oneLine_quotedCondition v w hq,
      oneLine_append.mpr ⟨by decide, m.word.oneLine⟩⟩
  have hne : (trim (quotedCondition v q w ++ (" say ".toList ++ m.text))).isEmpty = false :=
    isEmpty_trim_cons v.isBlank_first _
  have harms := renderBranch_arms (u := quotedCondition v q w ++ " say ".toList) (m := m) rfl
    v.isBlank_first
  rw [List.append_assoc] at harms
  rw [quotedSentence, harms (hsay (by decide) (by decide)) hline,
    renderArms_single (hsay (by decide) (by decide)) hne (branchClause?_quoted v w m hq)]
  rfl

end Scribe.Instruction
