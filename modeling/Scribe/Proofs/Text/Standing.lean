import Scribe.Text.WordChar

/-!
# Words that stand in a text

A word stands in a text where no word character touches it on either side. A text that is put
together from parts has the words of its parts and no others, as long as the words of the parts do
not touch.
-/
namespace Scribe.Text

variable {w x y : List Char}

def OpenEnd (cs : List Char) : Prop := cs.getLast?.any isWordChar = true

def OpenStart (cs : List Char) : Prop := cs.head?.any isWordChar = true

theorem openEnd_append (x : List Char) (hy : y ≠ []) : OpenEnd (x ++ y) ↔ OpenEnd y := by
  rw [OpenEnd, OpenEnd, List.getLast?_append, List.getLast?_eq_some_getLast hy, Option.some_or]

theorem openStart_append (hx : x ≠ []) (y : List Char) : OpenStart (x ++ y) ↔ OpenStart x := by
  rw [OpenStart, OpenStart, List.head?_append, List.head?_eq_some_head hx, Option.some_or]

structure Stands (w cs : List Char) : Prop where
  nonempty : w ≠ []
  word : ∀ c ∈ w, isWordChar c = true
  apart : ∃ a b, cs = a ++ (w ++ b) ∧ ¬OpenEnd a ∧ ¬OpenStart b

theorem openEnd_of_word (hne : w ≠ []) (hw : ∀ c ∈ w, isWordChar c = true) : OpenEnd w := by
  rw [OpenEnd, List.getLast?_eq_some_getLast hne]
  exact hw _ (List.getLast_mem hne)

theorem openStart_of_word (hne : w ≠ []) (hw : ∀ c ∈ w, isWordChar c = true) : OpenStart w := by
  rw [OpenStart, List.head?_eq_some_head hne]
  exact hw _ (List.head_mem hne)

/-- A word of a text stands in one of its parts. -/
theorem Stands.append (h : Stands w (x ++ y)) (hxy : ¬OpenEnd x ∨ ¬OpenStart y) :
    Stands w x ∨ Stands w y := by
  obtain ⟨hne, hw, a, b, heq, ha, hb⟩ := h
  rcases List.append_eq_append_iff.mp heq with ⟨as, rfl, rfl⟩ | ⟨bs, rfl, hrest⟩
  · refine .inr ⟨hne, hw, as, b, rfl, fun has => ?_, hb⟩
    have hne' : as ≠ [] := by
      rintro rfl
      cases has
    exact ha ((openEnd_append x hne').mpr has)
  · rcases List.append_eq_append_iff.mp hrest with ⟨cs, rfl, rfl⟩ | ⟨cs, hcut, rfl⟩
    · refine .inl ⟨hne, hw, a, cs, rfl, ha, fun hcs => ?_⟩
      have hne' : cs ≠ [] := by
        rintro rfl
        cases hcs
      exact hb ((openStart_append hne' y).mpr hcs)
    · -- The word spans the joint, unless one of its halves is empty.
      subst hcut
      cases bs with
      | nil => exact .inr ⟨hne, hw, [], b, by simp, nofun, hb⟩
      | cons d bs =>
        cases cs with
        | nil => exact .inl ⟨hne, hw, a, [], by simp, ha, nofun⟩
        | cons e cs =>
          have hend : OpenEnd (a ++ d :: bs) :=
            (openEnd_append a (List.cons_ne_nil d bs)).mpr (openEnd_of_word (List.cons_ne_nil d bs)
              fun c hc => hw c (List.mem_append_left _ hc))
          have hstart : OpenStart (e :: cs ++ b) := hw e (by simp)
          exact hxy.elim (absurd hend) (absurd hstart)

theorem not_stands_of_apart (h : ∀ c ∈ x, isWordChar c = false) : ¬Stands w x := by
  rintro ⟨hne, hw, a, b, rfl, -⟩
  obtain ⟨c, r, rfl⟩ := List.exists_cons_of_ne_nil hne
  have hc := hw c (by simp)
  rw [h c (by simp)] at hc
  cases hc

/-- A part without words may stand between two parts. -/
theorem Stands.between {sep : List Char} (h : Stands w (x ++ (sep ++ y))) (hne : sep ≠ [])
    (hsep : ∀ c ∈ sep, isWordChar c = false) : Stands w x ∨ Stands w y := by
  have hstart : ¬OpenStart (sep ++ y) := by
    rw [openStart_append hne, OpenStart, List.head?_eq_some_head hne]
    simp [hsep _ (List.head_mem hne)]
  have hend : ¬OpenEnd sep := by
    rw [OpenEnd, List.getLast?_eq_some_getLast hne]
    simp [hsep _ (List.getLast_mem hne)]
  refine (h.append (.inr hstart)).imp_right fun h => ?_
  exact (h.append (.inl hend)).resolve_left (not_stands_of_apart hsep)

/-- A word that stands in a word is the whole word. -/
theorem Stands.eq_word (h : Stands w x) (hx : ∀ c ∈ x, isWordChar c = true) : w = x := by
  obtain ⟨-, -, a, b, rfl, ha, hb⟩ := h
  have hleft : a = [] := Classical.byContradiction fun hne =>
    ha (openEnd_of_word hne fun c hc => hx c (by simp [hc]))
  have hright : b = [] := Classical.byContradiction fun hne =>
    hb (openStart_of_word hne fun c hc => hx c (by simp [hc]))
  rw [hleft, hright, List.nil_append, List.append_nil]

end Scribe.Text
