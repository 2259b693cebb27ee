import Scribe.Pattern.Search

/-!
# Groups do not decide a match

A group remembers what it covered and has no part in what matches. So a pattern is found exactly
where it is found without its groups.
-/
namespace Scribe.Pattern

def bare : Pattern → Pattern
  | seq p q => seq p.bare q.bare
  | alt p q => alt p.bare q.bare
  | many p => many p.bare
  | lazyMany p => lazyMany p.bare
  | group _ p => p.bare
  | notAhead p => notAhead p.bare
  | p => p

def Alike (k k' : Cursor → Option Cursor) : Prop :=
  ∀ ⦃c d : Cursor⦄, c.behind = d.behind → c.rest = d.rest → (k c).isSome = (k' d).isSome

theorem alike_some : Alike some some := fun _ _ _ _ => rfl

section Steps
variable {k k' l l' : Cursor → Option Cursor}

theorem Alike.orElse (hk : Alike k k') (hl : Alike l l') :
    Alike
      (fun c => match k c with
        | some d => some d
        | none => l c)
      (fun c => match k' c with
        | some d => some d
        | none => l' c) := by
  intro c d hbehind hrest
  have hfirst := hk hbehind hrest
  have hsecond := hl hbehind hrest
  cases hc : k c <;> cases hd : k' d <;> simp_all

/-- A test that looks at the place alone may stand in front. -/
theorem Alike.guard {test test' : Cursor → Bool}
    (htest : ∀ ⦃c d : Cursor⦄, c.behind = d.behind → c.rest = d.rest → test c = test' d)
    (hk : Alike k k') :
    Alike (fun c => if test c then k c else none) fun c => if test' c then k' c else none := by
  intro c d hbehind hrest
  have hkcd := hk hbehind hrest
  simp only [htest hbehind hrest]
  split
  · exact hkcd
  · rfl

variable {step step' : (Cursor → Option Cursor) → Cursor → Option Cursor}
  (hstep : ∀ {k k'}, Alike k k' → Alike (step k) (step' k'))

include hstep

theorem Alike.repeatMost (hk : Alike k k') (n : Nat) :
    Alike (Pattern.repeatMost step k n) (Pattern.repeatMost step' k' n) := by
  induction n with
  | zero => exact hk
  | succ n ih => exact (hstep ih).orElse hk

theorem Alike.repeatLeast (hk : Alike k k') (n : Nat) :
    Alike (Pattern.repeatLeast step k n) (Pattern.repeatLeast step' k' n) := by
  induction n with
  | zero => exact hk
  | succ n ih => exact hk.orElse (hstep ih)

end Steps

theorem run_bare (p : Pattern) {k k' : Cursor → Option Cursor} (h : Alike k k') :
    Alike (p.run k) (p.bare.run k') := by
  induction p generalizing k k' with
  | empty => exact h
  | one q =>
    rintro ⟨b, rest, g⟩ ⟨_, _, g'⟩ rfl rfl
    cases rest with
    | nil => rfl
    | cons x r =>
      simp only [run, bare]
      split
      · exact h rfl rfl
      · rfl
  | seq p q ihp ihq => exact ihp (ihq h)
  | alt p q ihp ihq => exact (ihp h).orElse (ihq h)
  | many p ih =>
    intro c d hbehind hrest
    simp only [run, bare, hrest]
    exact Alike.repeatMost ih h _ hbehind hrest
  | lazyMany p ih =>
    intro c d hbehind hrest
    simp only [run, bare, hrest]
    exact Alike.repeatLeast ih h _ hbehind hrest
  | group n p ih =>
    intro c d hbehind hrest
    have hcover : Alike (fun e => k (c.cover n e)) k' := fun _ _ hb hr => h hb hr
    exact ih hcover hbehind hrest
  | edge =>
    exact h.guard fun c d hbehind hrest => by rw [Cursor.atEdge, Cursor.atEdge, hbehind, hrest]
  | atStart => exact h.guard fun c d hbehind hrest => by rw [hbehind]
  | atEnd => exact h.guard fun c d hbehind hrest => by rw [hrest]
  | notAhead p ih =>
    intro c d hbehind hrest
    have htest := ih alike_some hbehind hrest
    have hk := h hbehind hrest
    simp only [run, bare, htest]
    split
    · rfl
    · exact hk
  | notBehind q =>
    intro c d hbehind hrest
    have hk := h hbehind hrest
    simp only [run, bare, hbehind]
    split
    · rfl
    · exact hk

theorem isSome_searchFrom_bare (p : Pattern) (before rest : List Char) :
    (p.searchFrom before rest).isSome = (p.bare.searchFrom before rest).isSome := by
  have hmatch (before rest : List Char) :
      (p.matchAt before rest).isSome = (p.bare.matchAt before rest).isSome := by
    rw [matchAt, matchAt, Option.isSome_map, Option.isSome_map]
    exact run_bare p alike_some rfl rfl
  induction rest generalizing before with
  | nil => exact hmatch before []
  | cons c r ih =>
    have hhere := hmatch before (c :: r)
    have hlater := ih (c :: before)
    rw [searchFrom, searchFrom]
    cases hm : p.matchAt before (c :: r) <;> cases hm' : p.bare.matchAt before (c :: r) <;> simp_all

/-- A pattern is found where it is found without its groups. -/
theorem found_bare (p : Pattern) (cs : List Char) : p.bare.found cs = p.found cs :=
  (isSome_searchFrom_bare p [] cs).symm

end Scribe.Pattern
