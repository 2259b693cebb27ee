import Scribe.Pattern.Search

/-!
# Running a pattern on a text that is known

Where a text is known as far as a pattern looks, each part of the pattern passes its piece of the
text and hands the rest over. Repetition goes on to the last character that fits, or stops at the
first place where what follows fits. A text in which no match starts stays as it is when matches
are replaced, and makes up one piece when a text is split.
-/
namespace Scribe.Pattern

variable {p q : Pattern} {k : Cursor → Option Cursor} {c d : Cursor} {b : Option Char}
  {w r : List Char} {g : List (Nat × List Char)} {f : Char → Bool}

theorem getLast?_cons_or (x : Char) (w : List Char) (b : Option Char) :
    (x :: w).getLast?.or b = w.getLast?.or (some x) := by
  rw [List.getLast?_cons]
  cases w.getLast? <;> rfl

/-! ## Parts that pass -/

theorem run_append (p q : Pattern) (k : Cursor → Option Cursor) (c : Cursor) :
    (p ++ q).run k c = p.run (q.run k) c := rfl

theorem cover_append (n : Nat) (w r : List Char) (b b' : Option Char)
    (g g' : List (Nat × List Char)) :
    Cursor.cover ⟨b, w ++ r, g⟩ n ⟨b', r, g'⟩ = ⟨b', r, (n, w) :: g'⟩ := by
  simp [Cursor.cover]

theorem run_one {x : Char} (h : f x = true) :
    (one f).run k ⟨b, x :: r, g⟩ = k ⟨some x, r, g⟩ := by
  simp only [run, h, if_true]

theorem run_one_eq_none (h : r.head?.any f = false) : (one f).run k ⟨b, r, g⟩ = none := by
  cases r with
  | nil => rfl
  | cons x r =>
    have hx : f x = false := h
    simp only [run, hx, Bool.false_eq_true, if_false]

theorem run_spelled (fold : Char → Char) {cs : List Char} (h : w.map fold = cs) :
    (cs.foldr (fun c p => seq (one fun x => fold x == c) p) empty).run k ⟨b, w ++ r, g⟩ =
      k ⟨w.getLast?.or b, r, g⟩ := by
  induction w generalizing b cs with
  | nil =>
    subst h
    rfl
  | cons x w ih =>
    subst h
    have hrest := ih (b := some x) rfl
    rw [List.map_cons, List.foldr_cons, List.cons_append, getLast?_cons_or, ← hrest]
    exact run_one (f := fun y => fold y == fold x) (beq_self_eq_true (fold x))

theorem run_word {s : String} (h : w.map foldCase = s.toList) :
    (word s).run k ⟨b, w ++ r, g⟩ = k ⟨w.getLast?.or b, r, g⟩ :=
  run_spelled foldCase h

theorem run_edge (h : c.atEdge = true) : edge.run k c = k c := by
  simp only [run, h, if_true]

theorem run_or_left (h : p.run k c = some d) : (p ||| q).run k c = some d := by
  change (alt p q).run k c = _
  rw [run, h]

theorem run_or_right (h : p.run k c = none) : (p ||| q).run k c = q.run k c := by
  change (alt p q).run k c = _
  rw [run, h]

theorem run_opt_some (h : p.run k c = some d) : (opt p).run k c = some d := run_or_left h

theorem run_opt_none (h : p.run k c = none) (hk : k c = some d) : (opt p).run k c = some d :=
  (run_or_right h).trans hk

theorem run_of_edge (h : (edge ++ p).run k c = some d) : p.run k c = some d := by
  have hedge : (if c.atEdge then p.run k c else none) = some d := h
  split at hedge
  · exact hedge
  · cases hedge

/-- A choice fits nowhere where no alternative does. -/
theorem run_choice_eq_none {ps : List Pattern} (h : ∀ p ∈ ps, p.run k c = none) :
    (choice ps).run k c = none := by
  induction ps with
  | nil => rfl
  | cons p rest ih =>
    have hfirst := h p (by simp)
    have hrest := ih fun q hq => h q (by simp [hq])
    cases rest with
    | nil => exact hfirst
    | cons q rest => exact (run_or_right hfirst).trans hrest

/-- An alternative that fits is enough for a choice to fit. -/
theorem exists_run_or_right (h : ∃ d, q.run k c = some d) : ∃ d, (p ||| q).run k c = some d := by
  cases hp : p.run k c with
  | some d => exact ⟨d, run_or_left hp⟩
  | none => rwa [run_or_right hp]

theorem exists_run_words {ss : List String} {s : String} (hs : s ∈ ss)
    (h : w.map foldCase = s.toList) (hk : ∃ d, k ⟨w.getLast?.or b, r, g⟩ = some d) :
    ∃ d, (words ss).run k ⟨b, w ++ r, g⟩ = some d := by
  have hword : ∃ d, (word s).run k ⟨b, w ++ r, g⟩ = some d := by rwa [run_word h]
  induction ss with
  | nil => cases hs
  | cons t rest ih =>
    cases rest with
    | nil => rwa [List.mem_singleton.mp hs] at hword
    | cons t' rest =>
      change ∃ d, (word t ||| words (t' :: rest)).run k ⟨b, w ++ r, g⟩ = some d
      rcases List.mem_cons.mp hs with rfl | hs
      · obtain ⟨d, hd⟩ := hword
        exact ⟨d, run_or_left hd⟩
      · exact exists_run_or_right (ih hs)

/-! ## Repetition -/

theorem run_many (hw : ∀ x ∈ w, f x = true) (hr : r.head?.any f = false)
    (hk : k ⟨w.getLast?.or b, r, g⟩ = some d) :
    (many (one f)).run k ⟨b, w ++ r, g⟩ = some d := by
  suffices h : ∀ n, w.length ≤ n → repeatMost (one f).run k n ⟨b, w ++ r, g⟩ = some d from
    h _ (by simp)
  induction w generalizing b with
  | nil =>
    intro n _
    cases n with
    | zero => exact hk
    | succ n =>
      rw [List.nil_append, repeatMost, run_one_eq_none hr]
      exact hk
  | cons x w ih =>
    intro n hn
    obtain ⟨m, rfl⟩ : ∃ m, n = m + 1 := ⟨n - 1, by rw [List.length_cons] at hn; omega⟩
    rw [getLast?_cons_or] at hk
    have hrest := ih (fun y hy => hw y (by simp [hy])) hk m (by simpa using hn)
    rw [List.cons_append, repeatMost, run_one (hw x (by simp)), hrest]

theorem run_some1 (hne : w ≠ []) (hw : ∀ x ∈ w, f x = true) (hr : r.head?.any f = false)
    (hk : k ⟨w.getLast?.or b, r, g⟩ = some d) :
    (some1 (one f)).run k ⟨b, w ++ r, g⟩ = some d := by
  cases w with
  | nil => exact absurd rfl hne
  | cons x w =>
    rw [getLast?_cons_or] at hk
    change (one f).run ((many (one f)).run k) ⟨b, x :: w ++ r, g⟩ = some d
    rw [List.cons_append, run_one (hw x (by simp))]
    exact run_many (fun y hy => hw y (by simp [hy])) hr hk

/-- One blank in front of a character that is none. -/
theorem run_blanks1_single (hr : r.head?.any Text.isBlank = false) :
    blanks1.run k ⟨b, ' ' :: r, g⟩ = k ⟨some ' ', r, g⟩ := by
  have hone : blanks1.run k ⟨b, ' ' :: r, g⟩ = blanks.run k ⟨some ' ', r, g⟩ := by
    change (one Text.isBlank).run (blanks.run k) ⟨b, ' ' :: r, g⟩ = _
    exact run_one rfl
  have hmore : ∀ n, repeatMost blank.run k n ⟨some ' ', r, g⟩ = k ⟨some ' ', r, g⟩ := by
    intro n
    cases n with
    | zero => rfl
    | succ n =>
      have hstop : blank.run (repeatMost blank.run k n) ⟨some ' ', r, g⟩ = none :=
        run_one_eq_none hr
      rw [repeatMost, hstop]
  exact hone.trans (hmore r.length)

/-- The first place where what follows fits, when none before it does. -/
theorem run_lazyMany (hw : ∀ x ∈ w, f x = true)
    (hnone : ∀ u x v, w = u ++ x :: v → k ⟨u.getLast?.or b, x :: (v ++ r), g⟩ = none)
    (hk : k ⟨w.getLast?.or b, r, g⟩ = some d) :
    (lazyMany (one f)).run k ⟨b, w ++ r, g⟩ = some d := by
  suffices h : ∀ n, w.length ≤ n → repeatLeast (one f).run k n ⟨b, w ++ r, g⟩ = some d from
    h _ (by simp)
  induction w generalizing b with
  | nil =>
    intro n _
    have hfirst : k ⟨b, r, g⟩ = some d := hk
    cases n with
    | zero => exact hk
    | succ n => rw [List.nil_append, repeatLeast, hfirst]
  | cons x w ih =>
    intro n hn
    obtain ⟨m, rfl⟩ : ∃ m, n = m + 1 := ⟨n - 1, by rw [List.length_cons] at hn; omega⟩
    rw [getLast?_cons_or] at hk
    have hfirst : k ⟨b, x :: (w ++ r), g⟩ = none := hnone [] x w rfl
    have hrest := ih (fun y hy => hw y (by simp [hy])) (fun u y v huv => by
      have hlater := hnone (x :: u) y v (by rw [huv, List.cons_append])
      rwa [getLast?_cons_or] at hlater) hk m (by simpa using hn)
    rw [List.cons_append, repeatLeast, hfirst, run_one (hw x (by simp)), hrest]

theorem run_lazySome1 {x : Char} (hw : ∀ y ∈ x :: w, f y = true)
    (hnone : ∀ u y v, w = u ++ y :: v → k ⟨(x :: u).getLast?, y :: (v ++ r), g⟩ = none)
    (hk : k ⟨(x :: w).getLast?, r, g⟩ = some d) :
    (lazySome1 (one f)).run k ⟨b, x :: w ++ r, g⟩ = some d := by
  have hlast (u : List Char) : (x :: u).getLast? = u.getLast?.or (some x) := by
    rw [← getLast?_cons_or x u none, Option.or_none]
  rw [hlast] at hk
  change (one f).run ((lazyMany (one f)).run k) ⟨b, x :: w ++ r, g⟩ = some d
  rw [List.cons_append, run_one (hw x (by simp))]
  refine run_lazyMany (fun y hy => hw y (by simp [hy])) (fun u y v huv => ?_) hk
  rw [← hlast]
  exact hnone u y v huv

/-! ## Matches -/

theorem matchAt_of_run {before : List Char}
    (h : p.run some ⟨before.head?, w ++ r, []⟩ = some ⟨b, r, g⟩) :
    p.matchAt before (w ++ r) = some ⟨before.reverse, w, r, g⟩ := by
  rw [matchAt, h]
  simp

theorem search_of_matchStart {cs : List Char} {m : Match} (h : p.matchStart cs = some m) :
    p.search cs = some m := by
  rw [matchStart] at h
  cases cs with
  | nil => exact h
  | cons c r => rw [search, searchFrom, h]

theorem dropFront_of_run {cs : List Char} (hcs : w ++ r = cs)
    (h : p.run some ⟨none, cs, []⟩ = some ⟨b, r, g⟩) : p.dropFront cs = r := by
  subst hcs
  have hmatch : p.matchStart (w ++ r) = some ⟨[], w, r, g⟩ := matchAt_of_run h
  rw [dropFront, hmatch]

theorem dropFront_eq_self {cs : List Char} (h : p.run some ⟨none, cs, []⟩ = none) :
    p.dropFront cs = cs := by
  have hmatch : p.matchStart cs = none := Option.map_eq_none_iff.mpr h
  rw [dropFront, hmatch]

/-- Patterns that run alike find alike. -/
theorem search_congr (h : ∀ k c, p.run k c = q.run k c) (cs : List Char) :
    p.search cs = q.search cs := by
  have hmatch (before rest : List Char) : p.matchAt before rest = q.matchAt before rest := by
    rw [matchAt, matchAt, h]
  suffices hfrom : ∀ before, p.searchFrom before cs = q.searchFrom before cs from hfrom []
  induction cs with
  | nil => exact fun before => hmatch before []
  | cons c r ih =>
    intro before
    rw [searchFrom, searchFrom, hmatch, ih]

/-- No match starts in `u`, which stands between `before`, read backwards, and `v`. -/
def Unmatched (p : Pattern) (before u v : List Char) : Prop :=
  ∀ a x z, u = a ++ x :: z → p.matchAt (a.reverse ++ before) (x :: (z ++ v)) = none

section Search
variable {before u v : List Char}

theorem Unmatched.head {x : Char} (h : p.Unmatched before (x :: u) v) :
    p.matchAt before (x :: (u ++ v)) = none :=
  h [] x u rfl

theorem Unmatched.tail {x : Char} (h : p.Unmatched before (x :: u) v) :
    p.Unmatched (x :: before) u v := by
  intro a y z hu
  have hlater := h (x :: a) y z (by rw [hu, List.cons_append])
  rwa [List.reverse_cons, List.append_assoc, List.singleton_append] at hlater

theorem unmatched_nil : p.Unmatched before [] v := fun a x z h => by
  cases a <;> cases h

theorem Unmatched.cons {x : Char} (h : p.matchAt before (x :: (u ++ v)) = none)
    (hu : p.Unmatched (x :: before) u v) : p.Unmatched before (x :: u) v := by
  intro a y z hcut
  cases a with
  | nil =>
    cases hcut
    exact h
  | cons x' a =>
    rw [List.cons_append] at hcut
    obtain ⟨rfl, rfl⟩ := List.cons_eq_cons.mp hcut
    rw [List.reverse_cons, List.append_assoc, List.singleton_append]
    exact hu a y z rfl

theorem Unmatched.append {u' : List Char} (hu : p.Unmatched before u (u' ++ v))
    (hu' : p.Unmatched (u.reverse ++ before) u' v) : p.Unmatched before (u ++ u') v := by
  induction u generalizing before with
  | nil => exact hu'
  | cons x u ih =>
    have hhead := hu.head
    rw [← List.append_assoc] at hhead
    refine .cons hhead (ih hu.tail ?_)
    rwa [List.reverse_cons, List.append_assoc, List.singleton_append] at hu'

theorem Unmatched.left {u' : List Char} (h : p.Unmatched before (u ++ u') v) :
    p.Unmatched before u (u' ++ v) := by
  rintro a x z rfl
  have hplace := h a x (z ++ u') (by simp)
  rwa [List.append_assoc] at hplace

/-- Of the text in front a pattern sees the last character only. -/
theorem Unmatched.behind {x : Char} (h : p.Unmatched (x :: before) u v) (before' : List Char) :
    p.Unmatched (x :: before') u v := by
  intro a y z hu
  have hrun := h a y z hu
  rw [matchAt, Option.map_eq_none_iff] at hrun ⊢
  rw [List.head?_append] at hrun ⊢
  exact hrun

/-- No choice at an edge matches where none of its alternatives does. -/
theorem unmatched_choice {ps : List Pattern} (h : ∀ q ∈ ps, (edge ++ q).Unmatched before u v) :
    (edge ++ choice ps).Unmatched before u v := by
  intro a x z hcut
  rw [matchAt, Option.map_eq_none_iff, Option.eq_none_iff_forall_not_mem]
  intro d hd
  rw [Option.mem_def, run_append] at hd
  cases hedge : (⟨(a.reverse ++ before).head?, x :: (z ++ v), []⟩ : Cursor).atEdge with
  | false =>
    simp only [run, hedge, Bool.false_eq_true, if_false] at hd
    cases hd
  | true =>
    rw [run_edge hedge, run_choice_eq_none] at hd
    · cases hd
    · intro q hq
      have hnone := h q hq a x z hcut
      rwa [matchAt, Option.map_eq_none_iff, run_append, run_edge hedge] at hnone

/-- A pattern that is not found does not match at any place. -/
theorem found_eq_false_iff {cs : List Char} :
    p.found cs = false ↔ p.Unmatched [] cs [] ∧ p.matchAt cs.reverse [] = none := by
  suffices h : ∀ before, p.searchFrom before cs = none ↔
      p.Unmatched before cs [] ∧ p.matchAt (cs.reverse ++ before) [] = none by
    have hsearch := h []
    rw [List.append_nil] at hsearch
    rw [found, search, ← hsearch, Option.isSome_eq_false_iff, Option.isNone_iff_eq_none]
  induction cs with
  | nil => exact fun before => ⟨fun h => ⟨unmatched_nil, h⟩, fun h => h.2⟩
  | cons c r ih =>
    intro before
    have hplace : (c :: r).reverse ++ before = r.reverse ++ (c :: before) := by simp
    rw [searchFrom, hplace]
    constructor
    · intro h
      split at h
      · cases h
      · rename_i hnone
        obtain ⟨hrest, hend⟩ := (ih _).mp h
        rw [← List.append_nil r] at hnone
        exact ⟨.cons hnone hrest, hend⟩
    · rintro ⟨hall, hend⟩
      have hnone := hall.head
      rw [List.append_nil] at hnone
      rw [hnone]
      exact (ih _).mpr ⟨hall.tail, hend⟩

/-- The leftmost match, behind a part where none starts. -/
theorem search_behind {m : Match} (h : p.Unmatched [] u v) (hm : p.matchAt u.reverse v = some m) :
    p.search (u ++ v) = some m := by
  suffices hfrom : ∀ before, p.Unmatched before u v →
      p.matchAt (u.reverse ++ before) v = some m → p.searchFrom before (u ++ v) = some m from
    hfrom [] h (by rwa [List.append_nil])
  clear h hm
  induction u with
  | nil =>
    intro before _ hm
    cases v with
    | nil => exact hm
    | cons c r => rw [List.nil_append, searchFrom, show p.matchAt before (c :: r) = some m from hm]
  | cons x u ih =>
    intro before h hm
    rw [List.cons_append, searchFrom, h.head]
    refine ih _ h.tail ?_
    rwa [List.reverse_cons, List.append_assoc, List.singleton_append] at hm

/-- A choice is found only if one of its alternatives is. -/
theorem found_choice {ps : List Pattern} {cs : List Char} (h : ∀ q ∈ ps, q.found cs = false) :
    (choice ps).found cs = false := by
  have hnone {before rest : List Char} (hall : ∀ q ∈ ps, q.matchAt before rest = none) :
      (choice ps).matchAt before rest = none :=
    Option.map_eq_none_iff.mpr (run_choice_eq_none fun q hq =>
      Option.map_eq_none_iff.mp (hall q hq))
  refine found_eq_false_iff.mpr ⟨fun a x z hcut => hnone fun q hq => ?_, hnone fun q hq => ?_⟩
  · exact (found_eq_false_iff.mp (h q hq)).1 a x z hcut
  · exact (found_eq_false_iff.mp (h q hq)).2

/-! ## Finding -/

theorem findFrom_skip (before u v : List Char) :
    p.findFrom before u.length (u ++ v) = p.findFrom (u.reverse ++ before) 0 v := by
  induction u generalizing before with
  | nil => rfl
  | cons x u ih =>
    rw [List.length_cons, List.cons_append, findFrom, ih, List.reverse_cons, List.append_assoc,
      List.singleton_append]

theorem findFrom_unmatched (h : p.Unmatched before u v) :
    p.findFrom before 0 (u ++ v) = p.findFrom (u.reverse ++ before) 0 v := by
  induction u generalizing before with
  | nil => rfl
  | cons x u ih =>
    rw [List.cons_append, findFrom, h.head]
    dsimp only
    rw [ih h.tail, List.reverse_cons, List.append_assoc, List.singleton_append]

theorem findFrom_matched {m : Match} (h : p.matchAt before (u ++ v) = some m)
    (hm : m.covered = u) (hne : u ≠ []) :
    p.findFrom before 0 (u ++ v) = m :: p.findFrom (u.reverse ++ before) 0 v := by
  cases u with
  | nil => exact absurd rfl hne
  | cons x u =>
    rw [List.cons_append] at h
    rw [List.cons_append, findFrom, h]
    dsimp only
    rw [hm, List.length_cons, Nat.add_sub_cancel, findFrom_skip, List.reverse_cons,
      List.append_assoc, List.singleton_append]

/-! ## Replacing -/

variable {f : Match → List Char}

theorem replaceFrom_skip (before u v : List Char) :
    p.replaceFrom f before u.length (u ++ v) = p.replaceFrom f (u.reverse ++ before) 0 v := by
  induction u generalizing before with
  | nil => rfl
  | cons x u ih =>
    rw [List.length_cons, List.cons_append, replaceFrom, ih, List.reverse_cons, List.append_assoc,
      List.singleton_append]

theorem replaceFrom_unmatched (h : p.Unmatched before u v) :
    p.replaceFrom f before 0 (u ++ v) = u ++ p.replaceFrom f (u.reverse ++ before) 0 v := by
  induction u generalizing before with
  | nil => rfl
  | cons x u ih =>
    rw [List.cons_append, replaceFrom, h.head]
    dsimp only
    rw [ih h.tail, List.reverse_cons, List.append_assoc, List.singleton_append, List.cons_append]

theorem replaceFrom_matched {m : Match} (h : p.matchAt before (u ++ v) = some m)
    (hm : m.covered = u) (hne : u ≠ []) :
    p.replaceFrom f before 0 (u ++ v) = f m ++ p.replaceFrom f (u.reverse ++ before) 0 v := by
  cases u with
  | nil => exact absurd rfl hne
  | cons x u =>
    rw [List.cons_append] at h
    rw [List.cons_append, replaceFrom, h]
    dsimp only
    rw [hm, List.length_cons, Nat.add_sub_cancel, replaceFrom_skip, List.reverse_cons,
      List.append_assoc, List.singleton_append]

theorem replaceFrom_of_unmatched (h : p.Unmatched before u []) :
    p.replaceFrom f before 0 u = u := by
  have hall := replaceFrom_unmatched (f := f) h
  rwa [List.append_nil, replaceFrom, List.append_nil] at hall

theorem replaceWith_of_unmatched (h : p.Unmatched [] u []) : p.replaceWith f u = u :=
  replaceFrom_of_unmatched h

/-- What follows a part without a match is rewritten on its own. -/
theorem replaceWith_behind (h : p.Unmatched [] u v) :
    p.replaceWith f (u ++ v) = u ++ p.replaceFrom f u.reverse 0 v := by
  rw [replaceWith, replaceFrom_unmatched h, List.append_nil]

/-! ## Splitting -/

theorem splitFrom_skip (before u v : List Char) :
    p.splitFrom before u.length (u ++ v) = p.splitFrom (u.reverse ++ before) 0 v := by
  induction u generalizing before with
  | nil => rfl
  | cons x u ih =>
    rw [List.length_cons, List.cons_append, splitFrom, ih, List.reverse_cons, List.append_assoc,
      List.singleton_append]

theorem splitFrom_unmatched (h : p.Unmatched before u v) {piece : List Char}
    {pieces : List (List Char)} (hv : p.splitFrom (u.reverse ++ before) 0 v = piece :: pieces) :
    p.splitFrom before 0 (u ++ v) = (u ++ piece) :: pieces := by
  induction u generalizing before with
  | nil => exact hv
  | cons x u ih =>
    rw [List.reverse_cons, List.append_assoc, List.singleton_append] at hv
    rw [List.cons_append, splitFrom, h.head]
    dsimp only
    rw [ih h.tail hv, List.cons_append]

theorem splitFrom_matched {m : Match} (h : p.matchAt before (u ++ v) = some m)
    (hm : m.covered = u) (hne : u ≠ []) :
    p.splitFrom before 0 (u ++ v) = [] :: p.splitFrom (u.reverse ++ before) 0 v := by
  cases u with
  | nil => exact absurd rfl hne
  | cons x u =>
    rw [List.cons_append] at h
    rw [List.cons_append, splitFrom, h]
    dsimp only
    rw [hm, List.length_cons, Nat.add_sub_cancel, splitFrom_skip, List.reverse_cons,
      List.append_assoc, List.singleton_append]

end Search

end Scribe.Pattern
