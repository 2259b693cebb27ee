import Scribe.Run.Interpreter

/-!
# Tasks as functions of the state

What a chain of tasks does follows from what its parts do. A task *keeps* a part of the state if
that part is the same afterwards, whether the task ends or crashes.
-/
namespace Scribe

namespace Task

variable {σ α β : Type} {t : Task σ α} {f : α → Task σ β} {s s' : σ}

theorem bind_of_ok {a : α} (h : t s = (.ok a, s')) : (t >>= f) s = f a s' := by
  simp only [bind, ExceptT.bind, ExceptT.mk, StateT.bind, h]
  rfl

theorem bind_of_error {e : Crash} (h : t s = (.error e, s')) : (t >>= f) s = (.error e, s') := by
  simp only [bind, ExceptT.bind, ExceptT.mk, StateT.bind, h]
  rfl

theorem bind_eq_ok {b : β} {s'' : σ} (h : (t >>= f) s = (.ok b, s'')) :
    ∃ a s', t s = (.ok a, s') ∧ f a s' = (.ok b, s'') := by
  cases ht : t s with
  | mk result s' =>
    cases result with
    | ok a => exact ⟨a, s', rfl, (bind_of_ok ht).symm.trans h⟩
    | error e => rw [bind_of_error ht] at h; cases h

def Yields (I : σ → Prop) (t : Task σ α) (a : α) : Prop := ∃ s s', I s ∧ t s = (.ok a, s')

/-- A judgement on tasks that is closed under chaining. What follows a task may rely on what it is
given having been returned, from a state with `I`. -/
structure Chains (I : σ → Prop) (J : (α : Type) → Task σ α → Prop) : Prop where
  pure : ∀ {α : Type} (a : α), J α (pure a)
  bind : ∀ {α β : Type} {t : Task σ α} {f : α → Task σ β}, J α t →
    (∀ a, t.Yields I a → J β (f a)) → J β (t >>= f)

theorem Chains.seq {I : σ → Prop} {J : (α : Type) → Task σ α → Prop} (hJ : Chains I J)
    (ht : J α t) (hf : ∀ a, J β (f a)) : J β (t >>= f) :=
  hJ.bind ht fun a _ => hf a

def Returns (t : Task σ α) : Prop := ∀ s, ∃ a s', t s = (.ok a, s')

theorem Returns.pure (a : α) : Returns (pure a : Task σ α) := fun s => ⟨a, s, rfl⟩

theorem Returns.chains {I : σ → Prop} (hI : ∀ s, I s) :
    Chains I fun _ (t : Task σ _) => t.Returns where
  pure := .pure
  bind := by
    intro α β t f ht hf s
    obtain ⟨a, s₁, ha⟩ := ht s
    obtain ⟨b, s₂, hb⟩ := hf a ⟨s, s₁, hI s, ha⟩ s₁
    exact ⟨b, s₂, (bind_of_ok ha).trans hb⟩

def Keeps {γ : Type} (part : σ → γ) (t : Task σ α) : Prop := ∀ s, part (t s).2 = part s

theorem Keeps.pure {γ : Type} {part : σ → γ} (a : α) : Keeps part (pure a : Task σ α) :=
  fun _ => rfl

theorem Keeps.chains {γ : Type} (part : σ → γ) {I : σ → Prop} (hI : ∀ s, I s) :
    Chains I fun _ t => Keeps part t where
  pure := .pure
  bind := by
    intro α β t f ht hf s
    have hs := ht s
    cases hrun : t s with
    | mk result s' =>
      rw [hrun] at hs
      cases result with
      | ok a =>
        rw [bind_of_ok hrun]
        exact (hf a ⟨s, s', hI s, hrun⟩ s').trans hs
      | error e =>
        rw [bind_of_error hrun]
        exact hs

theorem Keeps.bind {γ : Type} {part : σ → γ} (ht : Keeps part t) (hf : ∀ a, Keeps part (f a)) :
    Keeps part (t >>= f) :=
  (Keeps.chains part fun _ => trivial).seq ht hf

def Respects (R : σ → σ → Prop) (t : Task σ α) : Prop :=
  ∀ w w', R w w' → (t w).1 = (t w').1 ∧ R (t w).2 (t w').2

theorem Respects.chains (R : σ → σ → Prop) {I : σ → Prop} (hI : ∀ s, I s) :
    Chains I fun _ t => Respects R t where
  pure := fun _ _ _ hs => ⟨rfl, hs⟩
  bind := by
    intro α β t f ht hf s s' hs
    obtain ⟨hresult, hafter⟩ := ht s s' hs
    cases hrun : t s with
    | mk result s₁ =>
      cases hrun' : t s' with
      | mk result' s₁' =>
        rw [hrun, hrun'] at hresult hafter
        cases hresult
        cases result with
        | error e =>
          rw [bind_of_error hrun, bind_of_error hrun']
          exact ⟨rfl, hafter⟩
        | ok a =>
          rw [bind_of_ok hrun, bind_of_ok hrun']
          exact hf a ⟨s, s₁, hI s, hrun⟩ s₁ s₁' hafter

section Zoom
variable {τ : Type} {get : τ → σ} {set : σ → τ → τ}

theorem zoom_bind (hget : ∀ w s, get (set w s) = w)
    (hset : ∀ w w' s, set w (set w' s) = set w s) (t : Task σ α) (f : α → Task σ β) :
    zoom get set (t >>= f) = zoom get set t >>= fun a => zoom get set (f a) := by
  funext s
  cases ht : t (get s) with
  | mk result w =>
    have hzoom : zoom get set t s = (result, set w s) := by simp only [zoom, ht]
    cases result with
    | error e =>
      rw [bind_of_error hzoom]
      simp only [zoom, bind_of_error ht]
    | ok a =>
      rw [bind_of_ok hzoom]
      simp only [zoom, bind_of_ok ht, hget, hset]

end Zoom

end Task

namespace Run

variable {σ α : Type}

theorem Exec.world_of {t : Task σ α} {s : Session σ} {result : Except Crash α} {w : σ}
    (h : t s.world = (result, w)) : Exec.world t s = (result, { s with world := w }) := by
  change ((t s.world).1, { s with world := (t s.world).2 }) = (result, { s with world := w })
  rw [h]

theorem Exec.yields_of_world {t : Task σ α} {I : Session σ → Prop} {a : α}
    (h : (Exec.world t).Yields I a) : t.Yields (fun _ => True) a := by
  obtain ⟨s, s', -, hrun⟩ := h
  have hresult : (t s.world).1 = .ok a := congrArg Prod.fst hrun
  exact ⟨s.world, (t s.world).2, trivial, Prod.ext hresult rfl⟩

theorem Exec.change_run (f : Machine → Machine) (s : Session σ) :
    Exec.change f s = (.ok (), { s with machine := f s.machine }) := rfl

theorem Exec.machine_run (s : Session σ) : (Exec.machine : Exec σ Machine) s = (.ok s.machine, s) :=
  rfl

theorem Exec.keeps_world (t : Task σ α) : Task.Keeps Session.machine (Exec.world t) := fun _ => rfl

end Run
end Scribe
