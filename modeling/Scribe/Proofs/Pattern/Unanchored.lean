import Scribe.Proofs.Pattern.Evaluation
import Scribe.Proofs.Pattern.Matches

/-!
# Patterns without anchors

A pattern that looks at nothing but the text it covers fits wherever that text stands: what lies
around it can only let more be covered. So where such a pattern is not found in a text, it is not
found in a part of the text.
-/
namespace Scribe.Pattern

def Unanchored : Pattern → Prop
  | empty | one _ => True
  | seq p q | alt p q => p.Unanchored ∧ q.Unanchored
  | many p | lazyMany p | group _ p => p.Unanchored
  | edge | atStart | atEnd | notAhead _ | notBehind _ => False

def Cursor.Grows (c d : Cursor) : Prop := c.rest <+: d.rest

def Outgrows (k k' : Cursor → Option Cursor) : Prop :=
  ∀ ⦃c d : Cursor⦄, c.Grows d → (k c).isSome = true → (k' d).isSome = true

variable {p : Pattern} {k k' : Cursor → Option Cursor}

theorem outgrows_repeatMost {step : (Cursor → Option Cursor) → Cursor → Option Cursor}
    (hstep : ∀ {k k'}, Outgrows k k' → Outgrows (step k) (step k')) (hk : Outgrows k k')
    {n m : Nat} (hnm : n ≤ m) : Outgrows (repeatMost step k n) (repeatMost step k' m) := by
  have stop {m : Nat} {c d : Cursor} (hcd : c.Grows d) (h : (k c).isSome = true) :
      (repeatMost step k' m d).isSome = true := by
    cases m with
    | zero => exact hk hcd h
    | succ m =>
      rw [repeatMost]
      split
      · rfl
      · exact hk hcd h
  induction n generalizing m with
  | zero => exact fun c d hcd h => stop hcd h
  | succ n ih =>
    obtain ⟨m, rfl⟩ : ∃ l, m = l + 1 := ⟨m - 1, by omega⟩
    intro c d hcd h
    rw [repeatMost] at h
    split at h
    · rename_i hmore
      have hgo := hstep (ih (Nat.le_of_succ_le_succ hnm)) hcd (Option.isSome_of_eq_some hmore)
      obtain ⟨e, he⟩ := Option.isSome_iff_exists.mp hgo
      rw [repeatMost, he]
      rfl
    · exact stop hcd h

theorem outgrows_repeatLeast {step : (Cursor → Option Cursor) → Cursor → Option Cursor}
    (hstep : ∀ {k k'}, Outgrows k k' → Outgrows (step k) (step k')) (hk : Outgrows k k')
    {n m : Nat} (hnm : n ≤ m) : Outgrows (repeatLeast step k n) (repeatLeast step k' m) := by
  have stop {m : Nat} {c d : Cursor} (hcd : c.Grows d) (h : (k c).isSome = true) :
      (repeatLeast step k' m d).isSome = true := by
    obtain ⟨e, he⟩ := Option.isSome_iff_exists.mp (hk hcd h)
    cases m with
    | zero => exact hk hcd h
    | succ m =>
      rw [repeatLeast, he]
      rfl
  induction n generalizing m with
  | zero => exact fun c d hcd h => stop hcd h
  | succ n ih =>
    obtain ⟨m, rfl⟩ : ∃ l, m = l + 1 := ⟨m - 1, by omega⟩
    intro c d hcd h
    rw [repeatLeast] at h
    split at h
    · rename_i hnow
      exact stop hcd (Option.isSome_of_eq_some hnow)
    · rw [repeatLeast]
      split
      · rfl
      · exact hstep (ih (Nat.le_of_succ_le_succ hnm)) hcd h

/-- An unanchored pattern fits where more follows if it fits where less does. -/
theorem outgrows_run (hp : p.Unanchored) (hk : Outgrows k k') : Outgrows (p.run k) (p.run k') := by
  induction p generalizing k k' with
  | empty => exact hk
  | one f =>
    rintro ⟨b, rest, g⟩ ⟨b', rest', g'⟩ ⟨v, rfl⟩ h
    cases rest with
    | nil => cases h
    | cons x r =>
      simp only [run] at h
      split at h
      · rename_i hx
        rw [List.cons_append, run_one hx]
        exact hk ⟨v, rfl⟩ h
      · cases h
  | seq p q ihp ihq => exact ihp hp.1 (ihq hp.2 hk)
  | alt p q ihp ihq =>
    intro c d hcd h
    simp only [run] at h ⊢
    split at h
    · rename_i hfirst
      obtain ⟨e, he⟩ :=
        Option.isSome_iff_exists.mp (ihp hp.1 hk hcd (Option.isSome_of_eq_some hfirst))
      rw [he]
      rfl
    · split
      · rfl
      · exact ihq hp.2 hk hcd h
  | many p ih =>
    exact fun c d hcd h => outgrows_repeatMost (fun hk => ih hp hk) hk hcd.length_le hcd h
  | lazyMany p ih =>
    exact fun c d hcd h => outgrows_repeatLeast (fun hk => ih hp hk) hk hcd.length_le hcd h
  | group n p ih =>
    -- What a group remembers differs, but nothing that follows asks for it.
    intro c d hcd h
    have hcover : Outgrows (fun e => k (c.cover n e)) (fun e => k' (d.cover n e)) :=
      fun e e' he => hk he
    exact ih hp hcover hcd h
  | edge | atStart | atEnd | notAhead | notBehind => exact hp.elim

theorem matchAt_grows (hp : p.Unanchored) {before before' rest : List Char} {m : Match}
    (h : p.matchAt before rest = some m) (more : List Char) :
    (p.matchAt before' (rest ++ more)).isSome = true := by
  obtain ⟨d, hd, -⟩ := Option.map_eq_some_iff.mp h
  rw [matchAt, Option.isSome_map]
  exact outgrows_run hp (fun _ _ _ _ => rfl) ⟨more, rfl⟩ (Option.isSome_of_eq_some hd)

/-- What is not found in a text is not found in a part of it. -/
theorem search_eq_none_of_isInfix (hp : p.Unanchored) {part cs : List Char} (hpart : part <:+: cs)
    (h : p.found cs = false) : p.search part = none := by
  rw [Option.eq_none_iff_forall_ne_some]
  intro m hm
  obtain ⟨x, y, rfl⟩ := hpart
  obtain ⟨before, rest, hplace, hmatch⟩ := searchFrom_sound hm
  obtain rfl : before.reverse ++ rest = part := hplace
  obtain ⟨hinside, hend⟩ := found_eq_false_iff.mp h
  have hgrown (before' : List Char) : (p.matchAt before' (rest ++ y)).isSome = true :=
    matchAt_grows hp hmatch y
  cases hrest : rest ++ y with
  | nil =>
    have hsome := hgrown (x ++ (before.reverse ++ rest) ++ y).reverse
    rw [hrest, hend] at hsome
    cases hsome
  | cons c r =>
    have hnone := hinside (x ++ before.reverse) c r (by simp [← hrest])
    have hsome := hgrown ((x ++ before.reverse).reverse ++ [])
    rw [List.append_nil r] at hnone
    rw [hrest, hnone] at hsome
    cases hsome

theorem unanchored_word (s : String) : (word s).Unanchored := by
  unfold word
  induction s.toList with
  | nil => trivial
  | cons c r ih => exact ⟨trivial, ih⟩

end Scribe.Pattern
