import Scribe.Proofs.Pattern.Evaluation
import Scribe.Proofs.Pattern.Words
import Scribe.Proofs.Text.Standing

/-!
# Patterns that open with a word

Most patterns for instructions look for a word between edges, and skip some marks before it. So a
match of such a pattern starts near a word that stands in the text, and where no such word stands
none starts.
-/
namespace Scribe.Pattern
open Text

/-- Wherever `p` fits, one of the words `ss` stands behind characters of `P` only. -/
def Opens (P : Char → Prop) (ss : List String) (p : Pattern) : Prop :=
  ∀ ⦃k : Cursor → Option Cursor⦄ ⦃c d : Cursor⦄, p.run k c = some d →
    ∃ x w y, c.rest = x ++ (w ++ y) ∧ (∀ z ∈ x, P z) ∧ (∃ s ∈ ss, w.map foldCase = s.toList) ∧
      (x.getLast?.or c.behind).any isWordChar = false ∧ ¬OpenStart y

def Closes (p : Pattern) : Prop :=
  ∀ ⦃k : Cursor → Option Cursor⦄ ⦃c d : Cursor⦄, p.run k c = some d →
    c.behind.any isWordChar = true → ¬OpenStart c.rest

variable {P : Char → Prop} {ss ss' : List String} {p q r : Pattern}

theorem closes_edge : Closes edge := by
  intro k c d h hbehind
  obtain ⟨e, hspan, -⟩ := run_sound edge h
  cases hspan with
  | edge hedge =>
    rw [OpenStart, Cursor.atEdge_of_word hedge hbehind]
    exact Bool.false_ne_true

theorem closes_blanks1 : Closes blanks1 := by
  intro k c d h _
  obtain ⟨e, hspan, -⟩ := run_sound blanks1 h
  cases hspan with
  | seq hblank _ =>
    cases hblank with
    | one hx => simp [OpenStart, isWordChar_of_isBlank hx]

theorem Closes.append (hp : Closes p) (q : Pattern) : Closes (p ++ q) :=
  fun _ _ _ h => hp h

theorem opens_assoc : Opens P ss (p ++ q ++ r) ↔ Opens P ss (p ++ (q ++ r)) := Iff.rfl

theorem Opens.mono {P' : Char → Prop} (h : Opens P ss p) (hP : ∀ z, P z → P' z) (hss : ss ⊆ ss') :
    Opens P' ss' p := by
  intro k c d hrun
  obtain ⟨x, w, y, hrest, hx, ⟨s, hs, hfold⟩, hbehind, hy⟩ := h hrun
  exact ⟨x, w, y, hrest, fun z hz => hP z (hx z hz), ⟨s, hss hs, hfold⟩, hbehind, hy⟩

theorem opens_words (hss : OfLetters ss) (hq : Closes q) :
    Opens P ss (edge ++ (words ss ++ q)) := by
  intro k c d h
  obtain ⟨e, hspan, hwords⟩ := run_sound (k := (words ss ++ q).run k) edge h
  cases hspan with
  | edge hedge =>
    obtain ⟨e, hspan, hrun⟩ := run_sound (k := q.run k) (words ss) hwords
    obtain ⟨w, s, hs, hfold, hrest, hbehind⟩ := spans_words hspan
    have hne : w ≠ [] := by
      rintro rfl
      exact (hss s hs).1 hfold.symm
    have hword : ∀ z ∈ w, isWordChar z = true := fun z hz =>
      (isWord_of_fold (hss s hs).2 hfold z hz).1
    have hend : e.behind.any isWordChar = true := by
      rw [hbehind, List.getLast?_eq_some_getLast hne]
      exact hword _ (List.getLast_mem hne)
    have hstart : OpenStart c.rest := by
      rw [hrest]
      exact (openStart_append hne _).mpr (openStart_of_word hne hword)
    refine ⟨[], w, e.rest, hrest, nofun, ⟨s, hs, hfold⟩, ?_, hq hrun hend⟩
    rw [OpenStart] at hstart
    rw [Cursor.atEdge, hstart] at hedge
    simpa using hedge

theorem opens_word {s : String} (hs : OfLetters [s]) (hq : Closes q) :
    Opens P [s] (edge ++ (word s ++ q)) :=
  opens_words hs hq

theorem Opens.run_nil (h : Opens P ss p) (hss : OfLetters ss) (k : Cursor → Option Cursor)
    (b : Option Char) (g : List (Nat × List Char)) : p.run k ⟨b, [], g⟩ = none := by
  rw [Option.eq_none_iff_forall_not_mem]
  intro d hd
  obtain ⟨x, w, y, hrest, -, ⟨s, hs, hfold⟩, -, -⟩ := h hd
  obtain ⟨-, hrest⟩ := List.append_eq_nil_iff.mp hrest.symm
  obtain ⟨rfl, -⟩ := List.append_eq_nil_iff.mp hrest
  exact (hss s hs).1 hfold.symm

/-- A pattern that starts with a word does not match where no word starts. -/
theorem Opens.matchAt_apart (h : Opens (fun _ => False) ss p) (hss : OfLetters ss) {x : Char}
    (hx : isWordChar x = false) (before u : List Char) : p.matchAt before (x :: u) = none := by
  rw [matchAt, Option.map_eq_none_iff, Option.eq_none_iff_forall_not_mem]
  intro d hd
  obtain ⟨a, w, y, hrest, ha, ⟨s, hs, hfold⟩, -, -⟩ := h hd
  obtain rfl : a = [] := List.eq_nil_iff_forall_not_mem.mpr ha
  cases w with
  | nil => exact (hss s hs).1 hfold.symm
  | cons c w =>
    obtain ⟨rfl, -⟩ := List.cons_eq_cons.mp hrest
    rw [(isWord_of_fold (hss s hs).2 hfold x (by simp)).1] at hx
    cases hx

theorem Opens.front (hq : Opens P ss q) (hp : p.Only P) : Opens P ss (p ++ q) := by
  intro k c d h
  obtain ⟨e, hspan, hrun⟩ := run_sound (k := q.run k) p h
  obtain ⟨u, hu, hbehind⟩ := hspan.behind
  obtain ⟨u', hu', hall⟩ := hspan.covered hp
  obtain rfl : u = u' := List.append_cancel_right (hu.symm.trans hu')
  obtain ⟨x, w, y, hrest, hx, hfold, hleft, hy⟩ := hq hrun
  refine ⟨u ++ x, w, y, by rw [hu, hrest, List.append_assoc], fun z hz => ?_, hfold, ?_, hy⟩
  · exact (List.mem_append.mp hz).elim (hall z) (hx z)
  · rwa [List.getLast?_append, Option.or_assoc, ← hbehind]

theorem only_word {s : String} (h : ∀ z, foldCase z ∈ s.toList → P z) : (word s).Only P := by
  unfold word
  generalize s.toList = cs at h
  induction cs with
  | nil => trivial
  | cons c cs ih =>
    refine ⟨fun z hz => h z ?_, ih fun z hz => h z (by simp [hz])⟩
    rw [beq_iff_eq.mp hz]
    exact List.mem_cons_self

/-- A part that may be left out behind an edge. -/
theorem Opens.maybe (hp : Opens P ss (edge ++ (p ++ q))) (hq : Opens P ss (edge ++ q)) :
    Opens P ss (edge ++ (opt p ++ q)) := by
  intro k c d h
  obtain ⟨e, hspan, hrun⟩ := run_sound (k := (opt p ++ q).run k) edge h
  cases hspan with
  | edge hedge =>
    cases hpart : p.run (q.run k) c with
    | some d => exact hp ((run_edge hedge).trans hpart)
    | none =>
      have hleft : (opt p ++ q).run k c = q.run k c := run_or_right hpart
      exact hq ((run_edge hedge).trans (hleft.symm.trans hrun))

def Lacks (ss : List String) (cs : List Char) : Prop :=
  ∀ w, Stands w cs → ∀ s ∈ ss, w.map foldCase ≠ s.toList

section Lacks
variable {u v : List Char}

/-- Characters that are passed over end before one that is not. -/
theorem passed_inside {x y : List Char} (hu : u ≠ []) (hlast : v = [] ∨ ¬P (u.getLast hu))
    (h : u ++ v = x ++ y) (hx : ∀ z ∈ x, P z) : ∃ u', u = x ++ u' ∧ y = u' ++ v := by
  rcases List.append_eq_append_iff.mp h with ⟨x', rfl, hv⟩ | ⟨u', hu', hy⟩
  · have hempty : x' = [] := by
      rcases hlast with rfl | hlast
      · exact (List.append_eq_nil_iff.mp hv.symm).1
      · exact absurd (hx _ (List.mem_append_left _ (List.getLast_mem hu))) hlast
    subst hempty
    exact ⟨[], by simp, by simpa using hv.symm⟩
  · exact ⟨u', hu', hy⟩

/-- A word ends before a character that does not go on with it. -/
theorem word_inside {w y : List Char} (hword : ∀ z ∈ w, isWordChar z = true)
    (hv : ¬OpenStart v) (h : w ++ y = u ++ v) : ∃ e, u = w ++ e ∧ y = e ++ v := by
  rcases List.append_eq_append_iff.mp h with ⟨e, he, hy⟩ | ⟨e, he, hv'⟩
  · exact ⟨e, he, hy⟩
  · cases e with
    | nil => exact ⟨[], by simpa using he.symm, by simpa using hv'.symm⟩
    | cons e es =>
      refine absurd ?_ hv
      rw [hv']
      exact hword e (by rw [he]; simp)

/-- A pattern that opens with a word does not fit in a part of the text where no such word
stands, and which ends with a character that is not passed over. -/
theorem Opens.run_eq_none (h : Opens P ss p) (hss : OfLetters ss) (hu : Lacks ss u)
    (hlast : v = [] ∨ ∀ z, u.getLast? = some z → ¬P z) (hv : ¬OpenStart v) {a z : List Char}
    {t : Char}
    (hcut : u = a ++ t :: z) (k : Cursor → Option Cursor) (b : Option Char)
    (g : List (Nat × List Char)) : p.run k ⟨a.getLast?.or b, t :: (z ++ v), g⟩ = none := by
  rw [Option.eq_none_iff_forall_not_mem]
  intro d hd
  obtain ⟨x, w, y, hrest, hx, ⟨s, hs, hfold⟩, hleft, hright⟩ := h hd
  dsimp only at hrest hleft
  have hne : w ≠ [] := by
    rintro rfl
    exact (hss s hs).1 hfold.symm
  have hword : ∀ z ∈ w, isWordChar z = true := fun z hz =>
    (isWord_of_fold (hss s hs).2 hfold z hz).1
  rw [← List.cons_append] at hrest
  have hlast' : v = [] ∨ ¬P ((t :: z).getLast (List.cons_ne_nil t z)) :=
    hlast.imp_right fun h => h _ (by
      rw [hcut, List.getLast?_append, List.getLast?_eq_some_getLast (List.cons_ne_nil t z)]
      rfl)
  -- The marks that are passed over end inside `u`, and so does the word.
  obtain ⟨u', hu', hrest'⟩ := passed_inside (List.cons_ne_nil t z) hlast' hrest hx
  obtain ⟨e, rfl, rfl⟩ := word_inside hword hv hrest'
  refine hu w ⟨hne, hword, a ++ x, e, ?_, fun hopen => ?_, fun hopen => ?_⟩ s hs hfold
  · rw [hcut, hu', List.append_assoc]
  · rw [OpenEnd, List.getLast?_append] at hopen
    rw [← Option.or_assoc] at hleft
    cases hx' : x.getLast?.or a.getLast? with
    | none =>
      rw [hx'] at hopen
      cases hopen
    | some z =>
      rw [hx'] at hopen hleft
      rw [Option.some_or] at hleft
      exact Bool.false_ne_true (hleft.symm.trans hopen)
  · have hne' : e ≠ [] := by
      rintro rfl
      cases hopen
    exact hright ((openStart_append hne' v).mpr hopen)

/-- A pattern of words that must end passes a word as a whole. -/
theorem run_past_word {k : Cursor → Option Cursor} {d : Cursor} {b : Option Char}
    {g : List (Nat × List Char)} (hp : p.Covers fun cs => cs ≠ [] ∧ ∀ c ∈ cs, isWordChar c = true)
    (hq : Closes q) (hu : ∀ c ∈ u, isWordChar c = true) (hv : ¬OpenStart v)
    (h : (p ++ q).run k ⟨b, u ++ v, g⟩ = some d) :
    ∃ g', Spans p ⟨b, u ++ v, g⟩ ⟨u.getLast?.or b, v, g'⟩ ∧
      q.run k ⟨u.getLast?.or b, v, g'⟩ = some d := by
  obtain ⟨⟨behind, rest, g'⟩, hspan, hrun⟩ := run_sound (k := q.run k) p h
  obtain ⟨w, hrest, hbehind⟩ := hspan.behind
  obtain ⟨hne, hword⟩ := hp hspan hrest
  dsimp only at hrest hbehind
  obtain ⟨e, rfl, rfl⟩ := word_inside hword hv hrest.symm
  have hend : behind.any isWordChar = true := by
    rw [hbehind, List.getLast?_eq_some_getLast hne]
    exact hword _ (List.getLast_mem hne)
  obtain rfl : e = [] := Classical.byContradiction fun he =>
    hq hrun hend ((openStart_append he v).mpr
      (openStart_of_word he fun c hc => hu c (List.mem_append_right _ hc)))
  rw [List.append_nil] at hspan ⊢
  rw [hbehind] at hspan hrun
  exact ⟨g', hspan, hrun⟩

/-- Words pass a word that is one of them, and no other. -/
theorem run_past_words {k : Cursor → Option Cursor} {d : Cursor} {b : Option Char}
    {g : List (Nat × List Char)} (hss : OfLetters ss) (hq : Closes q)
    (hu : ∀ c ∈ u, isWordChar c = true) (hv : ¬OpenStart v)
    (h : (words ss ++ q).run k ⟨b, u ++ v, g⟩ = some d) :
    (∃ s ∈ ss, u.map foldCase = s.toList) ∧ ∃ g', q.run k ⟨u.getLast?.or b, v, g'⟩ = some d := by
  have hwords : (words ss).Covers fun cs => cs ≠ [] ∧ ∀ c ∈ cs, isWordChar c = true := by
    intro c d cs hspan hcs
    obtain ⟨s, hs, hfold⟩ := covers_words ss hspan hcs
    refine ⟨?_, fun z hz => (isWord_of_fold (hss s hs).2 hfold z hz).1⟩
    rintro rfl
    exact (hss s hs).1 hfold.symm
  obtain ⟨g', hspan, hrun⟩ := run_past_word hwords hq hu hv h
  exact ⟨covers_words ss hspan rfl, g', hrun⟩

theorem Opens.unmatched (h : Opens P ss p) (hss : OfLetters ss) (hu : Lacks ss u)
    (hlast : v = [] ∨ ∀ z, u.getLast? = some z → ¬P z) (hv : ¬OpenStart v) (before : List Char) :
    p.Unmatched before u v := by
  intro a t z hcut
  rw [matchAt, List.head?_append, List.head?_reverse,
    h.run_eq_none hss hu hlast hv hcut]
  rfl

/-- Words do not match at another word. -/
theorem matchAt_words_eq_none (hss : OfLetters ss) (hq : Closes q)
    (hu : ∀ c ∈ u, isWordChar c = true) (hv : ¬OpenStart v)
    (hnot : ∀ s ∈ ss, u.map foldCase ≠ s.toList) (before : List Char) :
    (edge ++ (words ss ++ q)).matchAt before (u ++ v) = none := by
  rw [matchAt, Option.map_eq_none_iff, Option.eq_none_iff_forall_not_mem]
  intro d hd
  obtain ⟨⟨s, hs, hfold⟩, -⟩ := run_past_words hss hq hu hv (run_of_edge hd)
  exact hnot s hs hfold

/-- A pattern that starts with a word does not match behind a word character. -/
theorem Opens.matchAt_inside (h : Opens (fun _ => False) ss p) {c : Char}
    (hc : isWordChar c = true) (before rest : List Char) :
    p.matchAt (c :: before) rest = none := by
  rw [matchAt, Option.map_eq_none_iff, Option.eq_none_iff_forall_not_mem]
  intro d hd
  obtain ⟨a, w, y, -, ha, -, hbehind, -⟩ := h hd
  obtain rfl : a = [] := List.eq_nil_iff_forall_not_mem.mpr ha
  rw [show isWordChar c = false from hbehind] at hc
  cases hc

/-- A pattern that starts with a word and does not match at a word of the text matches nowhere
until the word has ended. -/
theorem Opens.unmatched_word (h : Opens (fun _ => False) ss p)
    (hu : ∀ c ∈ u, isWordChar c = true) {before : List Char} {x : Char}
    (hnone : p.matchAt before (u ++ x :: v) = none) : p.Unmatched before (u ++ [x]) v := by
  induction u generalizing before with
  | nil => exact .cons hnone unmatched_nil
  | cons c u ih =>
    have hhead : p.matchAt before (c :: (u ++ [x] ++ v)) = none := by
      rw [List.append_assoc]
      exact hnone
    refine .cons hhead (ih (fun z hz => hu z (by simp [hz])) ?_)
    exact h.matchAt_inside (hu c (by simp)) before _

end Lacks

end Scribe.Pattern
