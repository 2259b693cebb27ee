import Scribe.Proofs.Run.Containment
import Scribe.Proofs.Run.Sharing

/-!
# Runs that crash

A run of an engine ends with a report, unless it meets a hazard at a model that it asks for, is
answered with a label that is no text of characters, cannot look up the count of an instruction, or
cannot write to a log. The models that it asks for are those that its script selects and, if there
are instructions, the one of intents.
-/
namespace Scribe

namespace Task
variable {σ α : Type} {W : σ → Prop} {P : Crash → Prop}

/-- From states with `W` the task leads to such states, and crashes only as `P` says. -/
def Fails (W : σ → Prop) (P : Crash → Prop) (t : Task σ α) : Prop :=
  ∀ s, W s → W (t s).2 ∧ ∀ crash, (t s).1 = .error crash → P crash

theorem Fails.pure (a : α) : Fails W P (pure a : Task σ α) := fun _ hs => ⟨hs, nofun⟩

theorem Fails.crash {crash : Crash} (h : P crash) : Fails W P (throw crash : Task σ α) := by
  refine fun s hs => ⟨hs, ?_⟩
  rintro _ ⟨⟩
  exact h

theorem Fails.chains {I : σ → Prop} (hI : ∀ s, W s → I s) :
    Chains I fun _ t => Fails W P t where
  pure := .pure
  bind := by
    intro α β t f ht hf s hs
    obtain ⟨hafter, hcrash⟩ := ht s hs
    cases hrun : t s with
    | mk result s' =>
      rw [hrun] at hafter hcrash
      cases result with
      | error crash =>
        rw [bind_of_error hrun]
        refine ⟨hafter, ?_⟩
        rintro _ ⟨⟩
        exact hcrash crash rfl
      | ok a =>
        rw [bind_of_ok hrun]
        exact hf a ⟨s, s', hI s hs, hrun⟩ s' hafter

end Task

namespace Run
open Script Instruction Cache

section Session
variable {σ : Type} {h : Host σ} {A : String → Prop} {W : σ → Prop} {P : Crash → Prop}

def Session.Sound (A : String → Prop) (W : σ → Prop) (s : Session σ) : Prop :=
  s.machine.Selects A ∧ W s.world

theorem Exec.world_fails {α : Type} {t : Task σ α} (ht : t.Fails W P) :
    (Exec.world t).Fails (Session.Sound A W) P := by
  intro s hs
  obtain ⟨hafter, hcrash⟩ := ht s.world hs.2
  exact ⟨⟨hs.1, hafter⟩, hcrash⟩

structure Host.Fails (h : Host σ) (A : String → Prop) (W : σ → Prop) (P : Crash → Prop) : Prop where
  emit : ∀ line, (h.emit line).Fails W P
  classify : ∀ f, h.classify = some f → ∀ model, A model → ∀ text, (f model text).Fails W P

theorem Host.Fails.upholds (hh : h.Fails A W P) :
    h.Upholds A fun _ t => t.Fails (Session.Sound A W) P where
  toChains := Task.Fails.chains fun _ hs => hs.1
  machine := fun _ hs => ⟨hs, nofun⟩
  change := fun _ hf _ hs => ⟨⟨hf _ hs.1, hs.2⟩, nofun⟩
  emit := fun line => Exec.world_fails (hh.emit line)
  classify := fun f hf model hmodel text => Exec.world_fails (hh.classify f hf model hmodel text)

theorem tame_of_prints {body : List Stmt} (hb : ∀ s ∈ body, s.IsPrint) : ∀ s ∈ body, s.Tame := by
  intro s hs
  have hprint := hb s hs
  cases s with
  | print => trivial
  | _ => exact hprint.elim

/-- Tame programs are tame throughout. -/
theorem tame_of_occurs {q : Program} {stmt : Stmt} (hq : ∀ s ∈ q, s.Tame)
    (ho : Occurs stmt q) : stmt.Tame := by
  induction ho with
  | head => exact hq _ List.mem_cons_self
  | tail _ ih => exact ih fun s hs => hq s (List.mem_cons_of_mem _ hs)
  | arm ha _ ih => exact ih (tame_of_prints ((hq _ List.mem_cons_self).1 _ ha))
  | last _ ih => exact ih (tame_of_prints ((hq _ List.mem_cons_self).2 _ rfl))

end Session

/-- Files that come from `start` when texts are appended to some of the paths. -/
inductive Grown (written : List String) (start : Files) : Files → Prop where
  | start : Grown written start start
  | append {files : Files} {path : String} (hpath : path ∈ written) (text : String)
    (hfiles : Grown written start files) : Grown written start (Files.append path text files).2

/-- A model that is known when a run starts, or that its file holds then or later. -/
def Known (written : List String) (start : World Cache) (path : String) (model : Model) : Prop :=
  start.memory.lookup (Path.normalize path) = some model ∨
    ∃ files, Grown written start.around.files files ∧ readModel files path = .ok model

section Engine
variable {c : Config} {written : List String} {start : World Cache} {source : List Char}

def Surroundings.Grown (written : List String) (start : World Cache) (a : Surroundings) : Prop :=
  Run.Grown written start.around.files a.files

structure World.Grown (written : List String) (start w : World Cache) : Prop where
  around : Surroundings.Grown written start w.around
  memory : ∀ path model, w.memory.lookup (Path.normalize path) = some model →
    Known written start path model

structure Stage.Grown (written : List String) (start : World Cache) (st : Stage Cache) :
    Prop where
  world : World.Grown written start st.world
  paths : filePaths st.sinks ⊆ written

/-- A model that is loaded is known. -/
theorem World.Grown.known {w : World Cache} (hw : World.Grown written start w) {path : String}
    {model : Model} (h : (w.memory.load w.around.files path).1 = .ok model) :
    Known written start path model := by
  rw [load_result] at h
  unfold recalled at h
  split at h
  · cases h
  · split at h
    · rename_i model' hlookup
      cases h
      exact hw.memory path _ hlookup
    · exact .inr ⟨_, hw.around, h⟩

theorem World.Grown.load {w : World Cache} (hw : World.Grown written start w) (path : String) :
    World.Grown written start { w with memory := (w.memory.load w.around.files path).2 } where
  around := hw.around
  memory := by
    intro path' model h
    rw [lookup_load, Option.or_eq_some_iff] at h
    rcases h with h | ⟨-, h⟩
    · exact hw.memory path' model h
    · obtain ⟨-, hpath, hread⟩ := readAs?_eq_some.mp h
      exact .inr ⟨_, hw.around, readModel_congr hread hpath⟩

end Engine

/-- A label with a surrogate that has no partner. -/
example : (run {} classifyByModel [] "AI: \"m.json\"\nset x from AI: hi".toList
    ⟨{ files := holding "\\ud800" }, []⟩).1 = .error .unpairedSurrogate := by decide +kernel

end Run
end Scribe
