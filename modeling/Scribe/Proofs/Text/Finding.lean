import Scribe.Text.Slice

/-!
# Finding a piece in a text

A piece is found only where it stands, and what cannot end the piece brings no new place when it
is put behind the text.
-/
namespace Scribe.Text

variable {cs piece more : List Char}

theorem find?_of_absent {c : Char} (piece : List Char) (h : ∀ x ∈ cs, x ≠ c) :
    find? (c :: piece) cs = none := by
  induction cs with
  | nil => rfl
  | cons x r ih =>
    obtain ⟨hhead, htail⟩ := List.forall_mem_cons.mp h
    have hprefix : (c :: piece).isPrefixOf (x :: r) = false := by
      simp [List.isPrefixOf, Ne.symm hhead]
    rw [find?, hprefix, ih htail]
    rfl

/-- The piece stands where it is found. -/
theorem prefix_of_find? {i : Nat} (h : find? piece cs = some i) : piece <+: cs.drop i := by
  induction cs generalizing i with
  | nil =>
    rw [find?] at h
    split at h
    · rename_i hempty
      rw [List.isEmpty_iff.mp hempty]
      exact List.nil_prefix
    · cases h
  | cons c r ih =>
    rw [find?] at h
    split at h
    · rename_i hfront
      cases h
      exact List.isPrefixOf_iff_prefix.mp hfront
    · obtain ⟨j, hj, rfl⟩ := Option.map_eq_some_iff.mp h
      exact ih hj

section Append
variable {last : Char} (hlast : piece.getLast? = some last) (hmore : ∀ c ∈ more, c ≠ last)
include hlast hmore

theorem prefix_append_iff : piece <+: cs ++ more ↔ piece <+: cs := by
  refine ⟨fun h => ?_, fun h => h.trans (List.prefix_append cs more)⟩
  rcases List.prefix_or_prefix_of_prefix h (List.prefix_append cs more) with hshort | ⟨y, rfl⟩
  · exact hshort
  · cases y with
    | nil => simp
    | cons c r =>
      rw [List.getLast?_append, List.getLast?_eq_some_getLast (List.cons_ne_nil c r),
        Option.some_or] at hlast
      have hmem := List.getLast_mem (List.cons_ne_nil c r)
      have hin := ((List.prefix_append_right_inj cs).mp h).subset hmem
      exact absurd (Option.some.inj hlast) (hmore _ hin)

/-- What does not end the piece may as well not stand behind the text. -/
theorem find?_append (cs : List Char) : find? piece (cs ++ more) = find? piece cs := by
  have hmem : last ∈ piece := List.mem_of_getLast? hlast
  have hne : piece.isEmpty = false := List.isEmpty_eq_false_iff.mpr (List.ne_nil_of_mem hmem)
  induction cs with
  | nil =>
    have hnone : find? piece [] = none := by simp [find?, hne]
    rw [hnone, List.nil_append, Option.eq_none_iff_forall_ne_some]
    intro i hi
    exact hmore last ((List.drop_suffix i more).subset ((prefix_of_find? hi).subset hmem)) rfl
  | cons c r ih =>
    have hfront : piece.isPrefixOf (c :: r ++ more) = piece.isPrefixOf (c :: r) := by
      rw [Bool.eq_iff_iff, List.isPrefixOf_iff_prefix, List.isPrefixOf_iff_prefix,
        prefix_append_iff hlast hmore]
    rw [List.cons_append] at hfront ⊢
    rw [find?, find?, hfront, ih]

end Append

end Scribe.Text
