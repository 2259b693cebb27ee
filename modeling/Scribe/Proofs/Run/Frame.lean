import Mathlib.Logic.Relation
import Scribe.Proofs.Run.Nesting

/-!
# What a run leaves alone

The machine changes only through the statements that are executed, those of expanded scripts
included, and each of them changes it in one way: an assignment binds its own name, a selection
sets the model, an expansion is recorded. So whatever no executed statement writes to is the same
after a run, whether the run ends or crashes.
-/
namespace Scribe

def Script.Stmt.target? : Script.Stmt → Option String
  | .assign _ name _ => some name
  | .ask _ name _ => some name
  | _ => none

namespace Run
open Script Relation

variable {σ : Type}

def ownExecuted (expanded : String → Int → Session σ → List (Stmt × Session σ))
    (origin : Option Int) : Stmt × Session σ → List (Stmt × Session σ)
  | (.expand line instruction, s) =>
    (.expand line instruction, s) :: expanded instruction (reportedLine origin line) s
  | v => [v]

/-- The statements that are executed in the place of an instruction where `allowance` more levels
may be nested, each with the session it starts in. -/
def expandExecuted (h : Host σ) :
    (allowance : Nat) → String → Int → Session σ → List (Stmt × Session σ)
  | 0, _, _, _ => []
  | allowance + 1, instruction, line, s =>
    match h.expand instruction s.world with
    | (.error _, _) => []
    | (.ok expansion, w) =>
      match parse expansion.script.toList with
      | .error _ => []
      | .ok program =>
        (visitsBlock h (execExpand h allowance) (some line) program
          ⟨s.machine.record expansion, w⟩).flatMap
            (ownExecuted (expandExecuted h allowance) (some line))

def blockExecuted (h : Host σ) (k : String → Int → Exec σ Unit)
    (n : String → Int → Session σ → List (Stmt × Session σ)) (origin : Option Int)
    (body : List Stmt) (s : Session σ) : List (Stmt × Session σ) :=
  (visitsBlock h k origin body s).flatMap (ownExecuted n origin)

/-- The statements that are executed by a program whose statements stand `depth` expansions deep. -/
def executed (h : Host σ) (depth : Int) (origin : Option Int) (program : Program) :
    Session σ → List (Stmt × Session σ) :=
  let allowance := (h.maxDepth - depth).toNat
  blockExecuted h (execExpand h allowance) (expandExecuted h allowance) origin program

theorem expandExecuted_crash {h : Host σ} {instruction : String} {s : Session σ} {w : σ}
    {crash : Crash} (hx : h.expand instruction s.world = (.error crash, w)) (allowance : Nat)
    (line : Int) : expandExecuted h (allowance + 1) instruction line s = [] := by
  simp only [expandExecuted, hx]

theorem expandExecuted_rejected {h : Host σ} {instruction : String} {s : Session σ} {w : σ}
    {expansion : Expansion} {fault : Fault}
    (hx : h.expand instruction s.world = (.ok expansion, w))
    (hq : parse expansion.script.toList = .error fault) (allowance : Nat) (line : Int) :
    expandExecuted h (allowance + 1) instruction line s = [] := by
  simp only [expandExecuted, hx, hq]

theorem expandExecuted_read {h : Host σ} {instruction : String} {s : Session σ} {w : σ}
    {expansion : Expansion} {q : Program} (hx : h.expand instruction s.world = (.ok expansion, w))
    (hq : parse expansion.script.toList = .ok q) (allowance : Nat) (line : Int) :
    expandExecuted h (allowance + 1) instruction line s =
      blockExecuted h (execExpand h allowance) (expandExecuted h allowance) (some line) q
        ⟨s.machine.record expansion, w⟩ := by
  simp only [expandExecuted, hx, hq]
  rfl

/-- A statement that a block executes is visited, or executed in the place of an instruction that
is visited. -/
theorem mem_blockExecuted {h : Host σ} {k : String → Int → Exec σ Unit}
    {n : String → Int → Session σ → List (Stmt × Session σ)} {origin : Option Int}
    {body : List Stmt} {s : Session σ} {v : Stmt × Session σ}
    (hv : v ∈ blockExecuted h k n origin body s) :
    v ∈ visitsBlock h k origin body s ∨ ∃ line instruction t,
      (.expand line instruction, t) ∈ visitsBlock h k origin body s ∧
        v ∈ n instruction (reportedLine origin line) t := by
  obtain ⟨⟨stmt, t⟩, hvisit, hown⟩ := List.mem_flatMap.mp hv
  cases stmt with
  | expand line instruction =>
    rcases List.mem_cons.mp hown with rfl | hown
    · exact .inl hvisit
    · exact .inr ⟨line, instruction, t, hvisit, hown⟩
  | _ =>
    rw [List.mem_singleton.mp hown]
    exact .inl hvisit

/-- What is executed in the place of an instruction stands in the script of one of its calls. -/
theorem occurs_of_expandExecuted {h : Host σ} {allowance : Nat} {instruction : String} {line : Int}
    {s : Session σ} {v : Stmt × Session σ}
    (hv : v ∈ expandExecuted h allowance instruction line s) :
    ∃ c ∈ expandCalls h allowance instruction line s, ∃ expansion q,
      c.result = .ok expansion ∧ parse expansion.script.toList = .ok q ∧ Occurs v.1 q := by
  induction allowance generalizing instruction line s with
  | zero => cases hv
  | succ allowance ih =>
    cases hx : h.expand instruction s.world with
    | mk result w =>
      cases result with
      | error crash =>
        rw [expandExecuted_crash hx] at hv
        cases hv
      | ok expansion =>
        cases hq : parse expansion.script.toList with
        | error fault =>
          rw [expandExecuted_rejected hx hq] at hv
          cases hv
        | ok q =>
          rw [expandExecuted_read hx hq] at hv
          rw [expandCalls_read hx hq]
          rcases mem_blockExecuted hv with hv | ⟨line', inner, t, hvisit, hv⟩
          · exact ⟨_, List.mem_cons_self, expansion, q, rfl, hq, occurs_of_visits hv⟩
          · obtain ⟨c, hc, expansion', q', hresult, hq', ho⟩ := ih hv
            have hmem : c ∈ blockCalls h (execExpand h allowance) (expandCalls h allowance)
                (some line) q ⟨s.machine.record expansion, w⟩ :=
              List.mem_flatMap.mpr ⟨_, hvisit, hc⟩
            exact ⟨c.inside instruction, List.mem_cons_of_mem _ (List.mem_map_of_mem hmem),
              expansion', q', hresult, hq', ho⟩

/-- Every statement that is executed stands in the program or in the script of a call. -/
theorem occurs_of_executed {h : Host σ} {depth : Int} {origin : Option Int} {program : Program}
    {s : Session σ} {v : Stmt × Session σ} (hv : v ∈ executed h depth origin program s) :
    Occurs v.1 program ∨ ∃ c ∈ executeCalls h depth origin program s, ∃ expansion q,
      c.result = .ok expansion ∧ parse expansion.script.toList = .ok q ∧ Occurs v.1 q := by
  rcases mem_blockExecuted hv with hv | ⟨line, instruction, t, hvisit, hv⟩
  · exact .inl (occurs_of_visits hv)
  · obtain ⟨c, hc, hcall⟩ := occurs_of_expandExecuted hv
    exact .inr ⟨c, List.mem_flatMap.mpr ⟨_, hvisit, hc⟩, hcall⟩

/-- What executing a statement can do to the machine that it finds. -/
inductive Alters : Stmt → Machine → Machine → Prop
  | assign {line name e m} : Alters (.assign line name e) m
      { m with bindings := m.bindings.set name ((evaluate m.bindings e).toOption.getD .null) }
  | ask {line name prompt m} (label : Option String) : Alters (.ask line name prompt) m
      { m with bindings := m.bindings.set name (label.elim .null .text) }
  | select {line path m value} (hv : evaluate m.bindings path = .ok value) :
      Alters (.select line path) m { m with activeModel := some value.display }
  | expand {line instruction m} (expansion : Expansion) :
      Alters (.expand line instruction) m (m.record expansion)

namespace Alters
variable {stmt : Stmt} {m m' : Machine}

theorem get? (ha : Alters stmt m m') {name : String} (hn : stmt.target? ≠ some name) :
    m'.bindings.get? name = m.bindings.get? name := by
  have hset (other : String) (value : Value) (ho : some other ≠ some name) :
      (m.bindings.set other value).get? name = m.bindings.get? name := by
    rw [Bindings.get?_set, if_neg fun heq => ho (congrArg some heq.symm)]
  cases ha with
  | assign => exact hset _ _ hn
  | ask => exact hset _ _ hn
  | select => rfl
  | expand => rfl

theorem has (ha : Alters stmt m m') {name : String} (hb : m.bindings.has name = true) :
    m'.bindings.has name = true := by
  have hset (other : String) (value : Value) : (m.bindings.set other value).has name = true := by
    rw [Bindings.has, Bindings.get?_set]
    split
    · rfl
    · exact hb
  cases ha with
  | assign => exact hset _ _
  | ask => exact hset _ _
  | select => exact hb
  | expand => exact hb

theorem activeModel (ha : Alters stmt m m') :
    m'.activeModel = m.activeModel ∨ ∃ line path value, stmt = .select line path ∧
      evaluate m.bindings path = .ok value ∧ m'.activeModel = some value.display := by
  cases ha with
  | @select line path _ value hv => exact .inr ⟨line, path, value, rfl, hv, rfl⟩
  | assign | ask | expand => exact .inl rfl

end Alters

def Step (executed : List (Stmt × Session σ)) (m m' : Machine) : Prop :=
  ∃ v ∈ executed, v.2.machine = m ∧ Alters v.1 m m'

def Moves {α : Type} (t : Exec σ α) (executed : Session σ → List (Stmt × Session σ)) : Prop :=
  ∀ s, ReflTransGen (Step (executed s)) s.machine (t s).2.machine

section Moves
variable {α β : Type} {h : Host σ}

theorem Step.mono {xs ys : List (Stmt × Session σ)} (hsub : xs ⊆ ys) {m m' : Machine}
    (hs : ReflTransGen (Step xs) m m') : ReflTransGen (Step ys) m m' := by
  refine ReflTransGen.mono ?_ _ _ hs
  rintro m m' ⟨v, hv, hstep⟩
  exact ⟨v, hsub hv, hstep⟩

theorem Moves.still {t : Exec σ α} (ht : t.Keeps Session.machine)
    (n : Session σ → List (Stmt × Session σ)) : Moves t n := by
  intro s
  rw [ht s]

theorem Moves.mono {t : Exec σ α} {n m : Session σ → List (Stmt × Session σ)} (ht : Moves t n)
    (hsub : ∀ s, n s ⊆ m s) : Moves t m :=
  fun s => Step.mono (hsub s) (ht s)

theorem Moves.bind {t : Exec σ α} {f : α → Exec σ β} {n : Session σ → List (Stmt × Session σ)}
    {m : α → Session σ → List (Stmt × Session σ)} (ht : Moves t n) (hf : ∀ a, Moves (f a) (m a)) :
    Moves (t >>= f) fun s => n s ++ t.afterwards m s := by
  intro s
  have hfirst := Step.mono (List.subset_append_left (n s) (t.afterwards m s)) (ht s)
  cases hrun : t s with
  | mk result s' =>
    rw [hrun] at hfirst
    cases result with
    | error e =>
      rw [Task.bind_of_error hrun]
      exact hfirst
    | ok a =>
      rw [Task.bind_of_ok hrun]
      refine hfirst.trans (Step.mono ?_ (hf a s'))
      rw [Exec.afterwards_of_ok hrun]
      exact List.subset_append_right _ _

/-- A task that makes at most one change, at its end. -/
theorem Moves.last {stmt : Stmt} {t : Exec σ α} {f : α → Exec σ Unit}
    (ht : t.Keeps Session.machine)
    (hf : ∀ s a s', t s = (.ok a, s') → s'.machine = s.machine →
      (f a s').2.machine = s.machine ∨ Alters stmt s.machine (f a s').2.machine) :
    Moves (t >>= f) fun s => [(stmt, s)] := by
  intro s
  have hkeep := ht s
  cases hrun : t s with
  | mk result s' =>
    rw [hrun] at hkeep
    cases result with
    | error e =>
      rw [Task.bind_of_error hrun, hkeep]
    | ok a =>
      rw [Task.bind_of_ok hrun]
      rcases hf s a s' hrun hkeep with heq | halters
      · rw [heq]
      · exact .single ⟨_, List.mem_singleton_self _, rfl, halters⟩

theorem keeps_labelOf? (h : Host σ) (line : Int) (prompt : String) :
    Task.Keeps Session.machine (labelOf? h line prompt) := by
  refine keeps_machine.bind fun m => ?_
  split
  · exact (keeps_diagnose h _ line _).bind fun _ => .pure _
  · exact (keeps_diagnose h _ line _).bind fun _ => .pure _
  · refine (Exec.keeps_world _).bind fun answer => ?_
    split
    · exact .pure _
    · exact (keeps_diagnose h _ line _).bind fun _ => .pure _

theorem moves_gathers (h : Host σ) :
    Gathers h fun _ t (n : Session σ → List (Stmt × Session σ)) => Moves t n where
  pure := fun a => .still (.pure a) _
  bind := .bind
  valueOf? := fun line e => .still (keeps_valueOf? h line e) _

theorem moves_block {k : String → Int → Exec σ Unit}
    {n : String → Int → Session σ → List (Stmt × Session σ)} {origin : Option Int}
    (hk : ∀ own instruction line,
      Moves (k instruction line) fun s => (.expand own instruction, s) :: n instruction line s)
    (body : List Stmt) :
    Moves (execBlock h k origin body) (blockExecuted h k n origin body) := by
  refine (moves_gathers h).block (ownExecuted n origin) (fun stmt _ hn => ?_)
    fun _ _ _ ht => ht.mono fun s => List.subset_append_right _ _
  cases stmt with
  | print line e => exact .still keeps_print _
  | assign line name e =>
    rw [execStmt]
    refine .last (keeps_valueOf? h _ e) fun s value s' hrun hkeep => .inr ?_
    change Alters _ _ { s'.machine with bindings := s'.machine.bindings.set name _ }
    rw [hkeep, value_of_valueOf? hrun]
    exact .assign
  | ask line name prompt =>
    rw [execStmt]
    refine .last (keeps_labelOf? h _ prompt) fun s label s' hrun hkeep => .inr ?_
    change Alters _ _ { s'.machine with bindings := s'.machine.bindings.set name _ }
    rw [hkeep]
    exact .ask label
  | select line path =>
    rw [execStmt]
    refine .last (keeps_valueOf? h _ path) fun s value s' hrun hkeep => ?_
    cases value with
    | none => exact .inl hkeep
    | some value =>
      refine .inr ?_
      change Alters _ _ { s'.machine with activeModel := some value.display }
      rw [hkeep]
      exact .select (evaluate_of_valueOf? hrun)
  | expand line instruction =>
    rw [execStmt]
    exact hk line instruction _
  | choose line arms last => exact absurd rfl (hn line arms last)

theorem moves_expand (allowance own : Nat) (instruction : String) (line : Int) :
    Moves (execExpand h allowance instruction line)
      fun s => (.expand own instruction, s) :: expandExecuted h allowance instruction line s := by
  induction allowance generalizing own instruction line with
  | zero =>
    rw [execExpand]
    exact .still (keeps_diagnose h _ line _) _
  | succ allowance ih =>
    intro s
    dsimp only
    cases hx : h.expand instruction s.world with
    | mk result w =>
      cases result with
      | error crash => rw [execExpand_crash hx]
      | ok expansion =>
        have hself (e : Expansion) (xs : List (Stmt × Session σ)) :
            Step ((.expand own instruction, s) :: xs) s.machine (s.machine.record e) :=
          ⟨_, List.mem_cons_self, rfl, .expand e⟩
        cases hq : parse expansion.script.toList with
        | error fault =>
          rw [execExpand_rejected hx hq, keeps_emit, Machine.note, Machine.record, noteLast_append]
          exact .single (hself _ _)
        | ok q =>
          rw [execExpand_read hx hq, expandExecuted_read hx hq]
          refine .head (hself expansion _) (Step.mono (List.subset_cons_self _ _) ?_)
          exact moves_block ih q ⟨s.machine.record expansion, w⟩

/-- A run takes its machine through steps of the statements that it executes. -/
theorem moves_execute (h : Host σ) (depth : Int) (origin : Option Int) (program : Program) :
    Moves (execute h depth origin program) (executed h depth origin program) :=
  moves_block (moves_expand _) program

end Moves

section Steps
variable {xs : List (Stmt × Session σ)} {m m' : Machine}

theorem get?_of_steps (hs : ReflTransGen (Step xs) m m') {name : String}
    (hn : ∀ v ∈ xs, v.1.target? ≠ some name) : m'.bindings.get? name = m.bindings.get? name := by
  induction hs with
  | refl => rfl
  | tail _ hstep ih =>
    obtain ⟨v, hv, -, ha⟩ := hstep
    exact (ha.get? (hn v hv)).trans ih

theorem has_of_steps (hs : ReflTransGen (Step xs) m m') {name : String}
    (hb : m.bindings.has name = true) : m'.bindings.has name = true := by
  induction hs with
  | refl => exact hb
  | tail _ hstep ih =>
    obtain ⟨v, -, -, ha⟩ := hstep
    exact ha.has ih

/-- The model that is selected in the end is the one of the last selection, if there is one. -/
theorem activeModel_of_steps (hs : ReflTransGen (Step xs) m m') :
    m'.activeModel = m.activeModel ∨ ∃ line path t value, (.select line path, t) ∈ xs ∧
      evaluate t.machine.bindings path = .ok value ∧ m'.activeModel = some value.display := by
  induction hs with
  | refl => exact .inl rfl
  | tail _ hstep ih =>
    obtain ⟨⟨stmt, t⟩, hv, rfl, ha⟩ := hstep
    rcases ha.activeModel with hsame | ⟨line, path, value, rfl, hvalue, hmodel⟩
    · rw [hsame]
      exact ih
    · exact .inr ⟨line, path, t, value, hv, hvalue, hmodel⟩

end Steps

/-- A statement of a program, or of the script of an expansion. -/
def Within (program : Program) (expansions : List Expansion) (stmt : Stmt) : Prop :=
  Occurs stmt program ∨ ∃ e ∈ expansions, ∃ q, parse e.script.toList = .ok q ∧ Occurs stmt q

theorem expansions_of_execute (h : Host σ) (depth : Int) (origin : Option Int) (program : Program)
    (s : Session σ) :
    (execute h depth origin program s).2.machine.expansions =
      s.machine.expansions ++ (executeCalls h depth origin program s).flatMap Call.recorded := by
  have hc : h.Counts fun _ _ => True := ⟨by simp, by simp, by simp⟩
  exact (hc.makes_block (hc.makes_expand _) program s [] trivial).2

theorem within_of_executed {h : Host σ} {depth : Int} {origin : Option Int} {program : Program}
    {s : Session σ} {v : Stmt × Session σ} (hv : v ∈ executed h depth origin program s) :
    Within program ((executeCalls h depth origin program s).flatMap Call.recorded) v.1 := by
  rcases occurs_of_executed hv with ho | ⟨c, hc, expansion, q, hresult, hq, ho⟩
  · exact .inl ho
  · have hrecorded : expansion ∈ c.recorded := by simp [Call.recorded, hresult, hq]
    exact .inr ⟨expansion, List.mem_flatMap.mpr ⟨c, hc, hrecorded⟩, q, hq, ho⟩

/-- Whatever classifier and writer of scripts the host has, a run binds only names that are
assigned to in its program or in the script of an expansion that it records, it unbinds none, and
it selects a model only by executing a selection of one of these. -/
theorem frame_of_execute (h : Host σ) (depth : Int) (origin : Option Int) (program : Program)
    (s : Session σ) :
    let after := (execute h depth origin program s).2.machine
    ∃ recorded, after.expansions = s.machine.expansions ++ recorded ∧
      (∀ v ∈ executed h depth origin program s, Within program recorded v.1) ∧
      (∀ name, (∀ stmt, Within program recorded stmt → stmt.target? ≠ some name) →
        after.bindings.get? name = s.machine.bindings.get? name) ∧
      (∀ name, after.bindings.get? name ≠ s.machine.bindings.get? name →
        ∃ v ∈ executed h depth origin program s, v.1.target? = some name) ∧
      (∀ name, s.machine.bindings.has name = true → after.bindings.has name = true) ∧
      (after.activeModel ≠ s.machine.activeModel → ∃ line path t value,
        (.select line path, t) ∈ executed h depth origin program s ∧
          evaluate t.machine.bindings path = .ok value ∧
          after.activeModel = some value.display) := by
  intro after
  have hsteps : ReflTransGen (Step (executed h depth origin program s)) s.machine after :=
    moves_execute h depth origin program s
  refine ⟨_, expansions_of_execute h depth origin program s, fun v hv => within_of_executed hv,
    fun name hn => ?_, fun name hne => ?_, fun name hb => has_of_steps hsteps hb, fun hne => ?_⟩
  · exact get?_of_steps hsteps fun v hv => hn v.1 (within_of_executed hv)
  · refine Classical.byContradiction fun hnone => hne ?_
    exact get?_of_steps hsteps fun v hv htarget => hnone ⟨v, hv, htarget⟩
  · rcases activeModel_of_steps hsteps with hsame | hselect
    · exact absurd hsame hne
    · exact hselect

/-- A name that only an expanded script assigns to is bound, the others are as they were. -/
example :
    let h : Host Unit :=
      { emit := fun _ => pure ()
        classify := none
        expand := fun instruction =>
          pure ⟨instruction, .setVar, "set b = 2", none, 0.0, true, []⟩ }
    let s : Session Unit := ⟨{ bindings := [("c", .text "old")] }, ()⟩
    let program : Program := [.assign 1 "a" (.lit (.text "new")), .expand 2 "go"]
    (executed h 0 none program s).map (fun v => v.1.target?) = [some "a", none, some "b"] ∧
      (execute h 0 none program s).2.machine.bindings.map Prod.fst = ["c", "a", "b"] := by
  decide +kernel

end Run
end Scribe
