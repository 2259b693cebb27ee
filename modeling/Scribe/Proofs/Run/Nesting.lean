import Scribe.Proofs.Run.Notices
import Scribe.Proofs.Run.TameRun

/-!
# How deep expansions nest

A script that is written for an instruction may hold further instructions, so what runs is not a
part of what was read. The calls of the writer of scripts are listed here in the order in which
they are made, each with the instructions whose scripts are running at the time. However scripts
are written, a run ends, no more calls are nested than the limit leaves room for, and every call
that returns leaves one expansion behind.
-/
namespace Scribe.Run
open Script

variable {σ : Type}

/-- A call of the writer of scripts: the instructions whose scripts are running, the outermost one
first, the instruction that is to be expanded, and what is returned for it. -/
structure Call where
  within : List String
  instruction : String
  result : Except Crash Expansion

namespace Call

def inside (instruction : String) (c : Call) : Call :=
  { c with within := instruction :: c.within }

def recorded (c : Call) : List Expansion :=
  match c.result with
  | .error _ => []
  | .ok expansion =>
    match parse expansion.script.toList with
    | .ok _ => [expansion]
    | .error fault =>
      [{ expansion with degradations := expansion.degradations ++ [rejectedNote fault] }]

/-- A call that returns leaves one expansion. -/
theorem recorded_of_ok {c : Call} {expansion : Expansion} (h : c.result = .ok expansion) :
    ∃ notes, c.recorded =
      [{ expansion with degradations := expansion.degradations ++ notes }] := by
  cases hq : parse expansion.script.toList with
  | ok program => exact ⟨[], by simp only [recorded, h, hq, List.append_nil]⟩
  | error fault => exact ⟨[rejectedNote fault], by simp only [recorded, h, hq]⟩

end Call

/-! ## Calls of a program -/

/-- The calls that a statement makes itself, without the blocks that it enters; `expanded` are
those of an instruction on a line. -/
def ownCalls (expanded : String → Int → Session σ → List Call) (origin : Option Int) :
    Stmt × Session σ → List Call
  | (.expand line instruction, s) => expanded instruction (reportedLine origin line) s
  | _ => []

def expandCalls (h : Host σ) : (allowance : Nat) → String → Int → Session σ → List Call
  | 0, _, _, _ => []
  | allowance + 1, instruction, line, s =>
    match h.expand instruction s.world with
    | (.error crash, _) => [⟨[], instruction, .error crash⟩]
    | (.ok expansion, w) =>
      ⟨[], instruction, .ok expansion⟩ ::
        match parse expansion.script.toList with
        | .error _ => []
        | .ok program =>
          ((visitsBlock h (execExpand h allowance) (some line) program
            ⟨s.machine.record expansion, w⟩).flatMap
              (ownCalls (expandCalls h allowance) (some line))).map (Call.inside instruction)

def blockCalls (h : Host σ) (k : String → Int → Exec σ Unit)
    (n : String → Int → Session σ → List Call) (origin : Option Int) (body : List Stmt)
    (s : Session σ) : List Call :=
  (visitsBlock h k origin body s).flatMap (ownCalls n origin)

/-- The calls of a program whose statements stand `depth` expansions deep. -/
def executeCalls (h : Host σ) (depth : Int) (origin : Option Int) (program : Program) :
    Session σ → List Call :=
  let allowance := (h.maxDepth - depth).toNat
  blockCalls h (execExpand h allowance) (expandCalls h allowance) origin program

theorem expandCalls_crash {h : Host σ} {instruction : String} {s : Session σ} {w : σ}
    {crash : Crash} (hx : h.expand instruction s.world = (.error crash, w)) (allowance : Nat)
    (line : Int) : expandCalls h (allowance + 1) instruction line s =
      [⟨[], instruction, .error crash⟩] := by
  simp only [expandCalls, hx]

theorem expandCalls_rejected {h : Host σ} {instruction : String} {s : Session σ} {w : σ}
    {expansion : Expansion} {fault : Fault}
    (hx : h.expand instruction s.world = (.ok expansion, w))
    (hq : parse expansion.script.toList = .error fault) (allowance : Nat) (line : Int) :
    expandCalls h (allowance + 1) instruction line s = [⟨[], instruction, .ok expansion⟩] := by
  simp only [expandCalls, hx, hq]

theorem expandCalls_read {h : Host σ} {instruction : String} {s : Session σ} {w : σ}
    {expansion : Expansion} {q : Program} (hx : h.expand instruction s.world = (.ok expansion, w))
    (hq : parse expansion.script.toList = .ok q) (allowance : Nat) (line : Int) :
    expandCalls h (allowance + 1) instruction line s =
      ⟨[], instruction, .ok expansion⟩ ::
        (blockCalls h (execExpand h allowance) (expandCalls h allowance) (some line) q
          ⟨s.machine.record expansion, w⟩).map (Call.inside instruction) := by
  simp only [expandCalls, hx, hq]
  rfl

/-! ## Nesting -/

/-- What holds of the calls of every instruction holds of the calls of a program. -/
theorem of_mem_blockCalls {h : Host σ} {k : String → Int → Exec σ Unit}
    {n : String → Int → Session σ → List Call} {origin : Option Int} {body : List Stmt}
    {s : Session σ} {c : Call} (hc : c ∈ blockCalls h k n origin body s) :
    ∃ instruction line s', c ∈ n instruction line s' := by
  obtain ⟨⟨stmt, s'⟩, -, hown⟩ := List.mem_flatMap.mp hc
  cases stmt with
  | expand line instruction => exact ⟨instruction, reportedLine origin line, s', hown⟩
  | _ => cases hown

/-- A call of an instruction is the one that expands it, or a call of an instruction in its
script, which has one level less. -/
theorem mem_expandCalls {h : Host σ} {allowance : Nat} {instruction : String} {line : Int}
    {s : Session σ} {c : Call} (hc : c ∈ expandCalls h allowance instruction line s) :
    ∃ left, allowance = left + 1 ∧
      (c = ⟨[], instruction, (h.expand instruction s.world).1⟩ ∨
        ∃ instruction' line' s' inner, inner ∈ expandCalls h left instruction' line' s' ∧
          c = inner.inside instruction) := by
  cases allowance with
  | zero => cases hc
  | succ left =>
    refine ⟨left, rfl, ?_⟩
    cases hx : h.expand instruction s.world with
    | mk result w =>
      cases result with
      | error crash =>
        rw [expandCalls_crash hx] at hc
        exact .inl (List.mem_singleton.mp hc)
      | ok expansion =>
        cases hq : parse expansion.script.toList with
        | error fault =>
          rw [expandCalls_rejected hx hq] at hc
          exact .inl (List.mem_singleton.mp hc)
        | ok q =>
          rw [expandCalls_read hx hq] at hc
          rcases List.mem_cons.mp hc with rfl | hc
          · exact .inl rfl
          · obtain ⟨inner, hinner, rfl⟩ := List.mem_map.mp hc
            obtain ⟨instruction', line', s', hmem⟩ := of_mem_blockCalls hinner
            exact .inr ⟨instruction', line', s', inner, hmem, rfl⟩

/-- No call is made within more scripts than the allowance leaves room for. -/
theorem within_lt_of_mem_expandCalls {h : Host σ} {allowance : Nat} {instruction : String}
    {line : Int} {s : Session σ} {c : Call} (hc : c ∈ expandCalls h allowance instruction line s) :
    c.within.length < allowance := by
  induction allowance generalizing instruction line s c with
  | zero => cases hc
  | succ allowance ih =>
    obtain ⟨_, ⟨⟩, rfl | ⟨instruction', line', s', inner, hinner, rfl⟩⟩ := mem_expandCalls hc
    · exact Nat.succ_pos allowance
    · have hlt := ih hinner
      rw [Call.inside, List.length_cons]
      omega

/-- What a call returns is what the writer of scripts returns for its instruction. -/
theorem result_of_mem_expandCalls {h : Host σ} {allowance : Nat} {instruction : String}
    {line : Int} {s : Session σ} {c : Call} (hc : c ∈ expandCalls h allowance instruction line s) :
    ∃ w, c.result = (h.expand c.instruction w).1 := by
  induction allowance generalizing instruction line s c with
  | zero => cases hc
  | succ allowance ih =>
    obtain ⟨_, ⟨⟩, rfl | ⟨instruction', line', s', inner, hinner, rfl⟩⟩ := mem_expandCalls hc
    · exact ⟨s.world, rfl⟩
    · obtain ⟨w, hresult⟩ := ih hinner
      exact ⟨w, hresult⟩

/-- Where one level is left, an instruction is expanded once, whatever its script holds. -/
theorem expandCalls_one (h : Host σ) (instruction : String) (line : Int) (s : Session σ) :
    expandCalls h 1 instruction line s = [⟨[], instruction, (h.expand instruction s.world).1⟩] := by
  cases hx : h.expand instruction s.world with
  | mk result w =>
    cases result with
    | error crash => exact expandCalls_crash hx 0 line
    | ok expansion =>
      cases hq : parse expansion.script.toList with
      | error fault => exact expandCalls_rejected hx hq 0 line
      | ok q =>
        have hnone : blockCalls h (execExpand h 0) (expandCalls h 0) (some line) q
            ⟨s.machine.record expansion, w⟩ = [] := by
          refine List.eq_nil_iff_forall_not_mem.mpr fun c hc => ?_
          obtain ⟨_, _, _, hmem⟩ := of_mem_blockCalls hc
          cases hmem
        rw [expandCalls_read hx hq, hnone, List.map_nil]

/-! ## What calls leave behind -/

theorem noteLast_append (note : String) (earlier : List Expansion) (e : Expansion) :
    noteLast note (earlier ++ [e]) =
      earlier ++ [{ e with degradations := e.degradations ++ [note] }] := by
  induction earlier with
  | nil => rfl
  | cons x rest ih =>
    cases rest with
    | nil => rfl
    | cons y rest =>
      rw [List.cons_append, List.cons_append, noteLast, ← List.cons_append, ih]
      · rfl
      · simp

structure Host.Counts (h : Host σ) (counted : σ → List String → Prop) : Prop where
  emit : ∀ {w calls}, counted w calls → ∀ line, counted (h.emit line w).2 calls
  classify : ∀ {w calls}, counted w calls → ∀ f, h.classify = some f → ∀ model text,
    counted (f model text w).2 calls
  expand : ∀ {w calls}, counted w calls → ∀ instruction,
    counted (h.expand instruction w).2 (calls ++ [instruction])

/-- The calls of a task are counted in their order, and leave their expansions behind. -/
def Makes {α : Type} (counted : σ → List String → Prop) (t : Exec σ α)
    (calls : Session σ → List Call) : Prop :=
  ∀ s earlier, counted s.world earlier →
    counted (t s).2.world (earlier ++ (calls s).map Call.instruction) ∧
      (t s).2.machine.expansions = s.machine.expansions ++ (calls s).flatMap Call.recorded

section Makes
variable {α β : Type} {counted : σ → List String → Prop} {h : Host σ}

/-- A task that calls nothing. -/
theorem Makes.silent {t : Exec σ α}
    (hworld : ∀ s earlier, counted s.world earlier → counted (t s).2.world earlier)
    (hkeep : ∀ s, (t s).2.machine.expansions = s.machine.expansions) :
    Makes counted t fun _ => [] := by
  intro s earlier hs
  rw [List.map_nil, List.flatMap_nil, List.append_nil, List.append_nil]
  exact ⟨hworld s earlier hs, hkeep s⟩

theorem Makes.pure (a : α) : Makes counted (pure a : Exec σ α) fun _ => [] :=
  .silent (fun _ _ hs => hs) fun _ => rfl

theorem Makes.bind {t : Exec σ α} {f : α → Exec σ β} {n : Session σ → List Call}
    {m : α → Session σ → List Call} (ht : Makes counted t n) (hf : ∀ a, Makes counted (f a) (m a)) :
    Makes counted (t >>= f) fun s => n s ++ t.afterwards m s := by
  intro s earlier hs
  dsimp only
  obtain ⟨hcount, hleft⟩ := ht s earlier hs
  cases hrun : t s with
  | mk result s' =>
    rw [hrun] at hcount hleft
    cases result with
    | error e =>
      rw [Task.bind_of_error hrun, Exec.afterwards_of_error hrun, List.append_nil]
      exact ⟨hcount, hleft⟩
    | ok a =>
      obtain ⟨hcount', hleft'⟩ := hf a s' _ hcount
      rw [Task.bind_of_ok hrun, Exec.afterwards_of_ok hrun, List.map_append, List.flatMap_append,
        ← List.append_assoc, ← List.append_assoc, ← hleft]
      exact ⟨hcount', hleft'⟩

theorem Makes.of_eq {t : Exec σ α} {n m : Session σ → List Call} (ht : Makes counted t n)
    (h : ∀ s, m s = n s) : Makes counted t m := by
  have heq : m = n := funext h
  exact heq ▸ ht

/-- What follows a task that calls nothing makes the calls. -/
theorem Makes.silent_bind {t : Exec σ α} {f : α → Exec σ β} {m : α → Session σ → List Call}
    (ht : Makes counted t fun _ => []) (hf : ∀ a, Makes counted (f a) (m a)) :
    Makes counted (t >>= f) (t.afterwards m) :=
  (ht.bind hf).of_eq fun _ => (List.nil_append _).symm

theorem Makes.silent_then {t : Exec σ α} {f : α → Exec σ β} (ht : Makes counted t fun _ => [])
    (hf : ∀ a, Makes counted (f a) fun _ => []) : Makes counted (t >>= f) fun _ => [] :=
  (ht.silent_bind hf).of_eq fun _ => Exec.afterwards_nil.symm

theorem Makes.machine : Makes counted (Exec.machine : Exec σ Machine) fun _ => [] :=
  .silent (fun _ _ hs => hs) fun _ => rfl

theorem Makes.change (f : Machine → Machine) (hf : ∀ m, (f m).expansions = m.expansions) :
    Makes counted (Exec.change f) fun _ => [] :=
  .silent (fun _ _ hs => hs) fun s => hf s.machine

namespace Host.Counts
variable (hc : h.Counts counted)
include hc

theorem makes_emit (line : String) : Makes counted (Run.emit h line) fun _ => [] :=
  .silent (fun _ _ hs => hc.emit hs line) fun _ => rfl

theorem makes_diagnose (kind : String) (line : Int) (message : String) :
    Makes counted (diagnose h kind line message) fun _ => [] :=
  Makes.machine.silent_then fun _ => hc.makes_emit _

theorem makes_valueOf? (line : Int) (e : Expr) :
    Makes counted (valueOf? h line e) fun _ => [] := by
  refine Makes.machine.silent_then fun m => ?_
  split
  · exact .pure _
  · exact (hc.makes_diagnose _ line _).silent_then fun _ => .pure _

theorem makes_labelOf? (line : Int) (prompt : String) :
    Makes counted (labelOf? h line prompt) fun _ => [] := by
  refine Makes.machine.silent_then fun m => ?_
  split
  · exact (hc.makes_diagnose _ line _).silent_then fun _ => .pure _
  · exact (hc.makes_diagnose _ line _).silent_then fun _ => .pure _
  · rename_i model classify _ hclassify
    have hask : Makes counted (Exec.world (classify model prompt)) fun _ => [] :=
      .silent (fun _ _ hs => hc.classify hs classify hclassify model prompt) fun _ => rfl
    refine hask.silent_then fun answer => ?_
    split
    · exact .pure _
    · exact (hc.makes_diagnose _ line _).silent_then fun _ => .pure _

variable {k : String → Int → Exec σ Unit} {n : String → Int → Session σ → List Call}
  {origin : Option Int}

theorem gathers : Gathers h fun _ t calls => Makes counted t calls where
  pure := .pure
  bind := .bind
  valueOf? := hc.makes_valueOf?

theorem makes_block
    (hk : ∀ instruction line, Makes counted (k instruction line) (n instruction line))
    (body : List Stmt) :
    Makes counted (execBlock h k origin body) (blockCalls h k n origin body) := by
  refine hc.gathers.block (ownCalls n origin) (fun stmt _ hn => ?_) fun _ _ _ ht => ht
  cases stmt with
  | print line e =>
    rw [execStmt]
    refine (hc.makes_valueOf? _ e).silent_then fun value => ?_
    split
    · exact hc.makes_emit _
    · exact .pure _
  | assign line name e =>
    rw [execStmt]
    exact (hc.makes_valueOf? _ e).silent_then fun _ => .change _ fun _ => rfl
  | ask line name prompt =>
    rw [execStmt]
    exact (hc.makes_labelOf? _ prompt).silent_then fun _ => .change _ fun _ => rfl
  | select line path =>
    rw [execStmt]
    refine (hc.makes_valueOf? _ path).silent_then fun value => ?_
    split
    · exact .change _ fun _ => rfl
    · exact .pure _
  | expand line instruction =>
    rw [execStmt]
    exact hk instruction _
  | choose line arms last => exact absurd rfl (hn line arms last)

theorem makes_expand (allowance : Nat) (instruction : String) (line : Int) :
    Makes counted (execExpand h allowance instruction line)
      (expandCalls h allowance instruction line) := by
  induction allowance generalizing instruction line with
  | zero =>
    rw [execExpand]
    exact hc.makes_diagnose _ line _
  | succ allowance ih =>
    intro s earlier hs
    have hcount := hc.expand hs instruction
    cases hx : h.expand instruction s.world with
    | mk result w =>
      rw [hx] at hcount
      cases result with
      | error crash =>
        rw [execExpand_crash hx, expandCalls_crash hx]
        exact ⟨hcount, (List.append_nil _).symm⟩
      | ok expansion =>
        cases hq : parse expansion.script.toList with
        | error fault =>
          rw [execExpand_rejected hx hq, expandCalls_rejected hx hq]
          refine ⟨hc.emit hcount _, ?_⟩
          rw [keeps_emit, Machine.note, Machine.record, noteLast_append, List.flatMap_singleton]
          simp only [Call.recorded, hq]
        | ok q =>
          rw [execExpand_read hx hq, expandCalls_read hx hq]
          obtain ⟨hinner, hleft⟩ := hc.makes_block ih q ⟨s.machine.record expansion, w⟩ _ hcount
          have hself : Call.recorded ⟨[], instruction, .ok expansion⟩ = [expansion] := by
            simp only [Call.recorded, hq]
          rw [List.map_cons, List.map_map, List.flatMap_cons, List.flatMap_map, hself]
          refine ⟨?_, ?_⟩
          · rw [List.append_assoc] at hinner
            exact hinner
          · rw [Machine.record, List.append_assoc] at hleft
            exact hleft

end Host.Counts

end Makes

/-! ## The limit -/

section Limit
variable {h : Host σ} {depth : Int} {origin : Option Int} {line : Nat} {instruction : String}
  {s : Session σ}

theorem execute_one (h : Host σ) (depth : Int) (origin : Option Int) (line : Nat)
    (instruction : String) (s : Session σ) :
    execute h depth origin [.expand line instruction] s =
      execExpand h (h.maxDepth - depth).toNat instruction (reportedLine origin line) s := by
  rw [execute, execBlock, execStmt, execBlock]
  exact congrFun (bind_pure _) s

theorem executeCalls_one (h : Host σ) (depth : Int) (origin : Option Int) (line : Nat)
    (instruction : String) (s : Session σ) :
    executeCalls h depth origin [.expand line instruction] s =
      expandCalls h (h.maxDepth - depth).toNat instruction (reportedLine origin line) s := by
  have hnone (t : Exec σ Unit) : t.afterwards (fun _ _ => ([] : List Call)) s = [] :=
    Exec.afterwards_nil
  rw [executeCalls, blockCalls, flatMap_visitsBlock_cons, flatMap_visitsStmt_simple _ _ _ _ (by simp)]
  exact (congrArg _ (hnone _)).trans (List.append_nil _)

def limitLine (h : Host σ) (m : Machine) (line : Int) : String :=
  (Notice.report "MacroError" line s!"macro nesting deeper than {h.maxDepth} is not allowed").text
    (sourceLine m.lineMap)

/-- Where no level is left, an instruction emits one line and does nothing else. -/
theorem execute_at_limit (hd : h.maxDepth ≤ depth) (origin : Option Int) (line : Nat)
    (instruction : String) (s : Session σ) :
    execute h depth origin [.expand line instruction] s =
      emit h (limitLine h s.machine (reportedLine origin line)) s := by
  have hzero : (h.maxDepth - depth).toNat = 0 := Int.toNat_eq_zero.mpr (by omega)
  rw [execute_one, hzero, execExpand, diagnose, Task.bind_of_ok (Exec.machine_run s)]
  rfl

theorem executeCalls_at_limit (hd : h.maxDepth ≤ depth) (origin : Option Int) (line : Nat)
    (instruction : String) (s : Session σ) :
    executeCalls h depth origin [.expand line instruction] s = [] := by
  have hzero : (h.maxDepth - depth).toNat = 0 := Int.toNat_eq_zero.mpr (by omega)
  rw [executeCalls_one, hzero, expandCalls]

/-- Where a level is left, the script of an instruction runs one level deeper. -/
theorem execute_below_limit {expansion : Expansion} {w : σ} {q : Program}
    (hd : depth < h.maxDepth) (hx : h.expand instruction s.world = (.ok expansion, w))
    (hq : parse expansion.script.toList = .ok q) :
    execute h depth origin [.expand line instruction] s =
      execute h (depth + 1) (some (reportedLine origin line)) q ⟨s.machine.record expansion, w⟩ ∧
    executeCalls h depth origin [.expand line instruction] s =
      ⟨[], instruction, .ok expansion⟩ ::
        (executeCalls h (depth + 1) (some (reportedLine origin line)) q
          ⟨s.machine.record expansion, w⟩).map (Call.inside instruction) := by
  have hsucc : (h.maxDepth - depth).toNat = (h.maxDepth - (depth + 1)).toNat + 1 := by omega
  rw [execute_one, executeCalls_one, hsucc, execExpand_read hx hq, expandCalls_read hx hq]
  exact ⟨rfl, rfl⟩

end Limit

/-- However scripts are written, a run ends. The writer of scripts is called only where a level is
left, so no more calls are nested than there are levels; its calls leave one expansion each, in the
order in which they are made. Where no level is left, an instruction emits one line that says so and
changes nothing. -/
theorem nesting_bounded {h : Host σ} (hh : h.Reliable) (depth : Int) (origin : Option Int)
    (program : Program) (s : Session σ) :
    let calls := executeCalls h depth origin program s
    (∃ s', execute h depth origin program s = (.ok (), s') ∧
      s'.machine.expansions = s.machine.expansions ++ calls.flatMap Call.recorded ∧
      ∀ (counted : σ → List String → Prop) (earlier : List String), h.Counts counted →
        counted s.world earlier → counted s'.world (earlier ++ calls.map Call.instruction)) ∧
    (∀ c ∈ calls, depth + c.within.length < h.maxDepth ∧
      c.within.length + 1 ≤ max 0 (h.maxDepth - depth) ∧
      ∃ expansion notes, c.result = .ok expansion ∧
        c.recorded = [{ expansion with degradations := expansion.degradations ++ notes }]) ∧
    (∀ (deep : Int) (line : Nat) (instruction : String) (t : Session σ), h.maxDepth ≤ deep →
      executeCalls h deep origin [.expand line instruction] t = [] ∧
      execute h deep origin [.expand line instruction] t =
        emit h (limitLine h t.machine (reportedLine origin line)) t ∧
      (execute h deep origin [.expand line instruction] t).2.machine = t.machine) ∧
    ∀ (deep : Int) (line : Nat) (instruction : String) (t : Session σ) (expansion : Expansion)
      (w : σ) (q : Program), deep < h.maxDepth →
      h.expand instruction t.world = (.ok expansion, w) →
      parse expansion.script.toList = .ok q →
      execute h deep origin [.expand line instruction] t =
        execute h (deep + 1) (some (reportedLine origin line)) q ⟨t.machine.record expansion, w⟩ ∧
      executeCalls h deep origin [.expand line instruction] t =
        ⟨[], instruction, .ok expansion⟩ ::
          (executeCalls h (deep + 1) (some (reportedLine origin line)) q
            ⟨t.machine.record expansion, w⟩).map (Call.inside instruction) := by
  intro calls
  have hmakes {counted : σ → List String → Prop} (hc : h.Counts counted) :
      Makes counted (execute h depth origin program) (executeCalls h depth origin program) :=
    hc.makes_block (hc.makes_expand _) program
  have hnothing : h.Counts fun _ _ => True := ⟨by simp, by simp, by simp⟩
  obtain ⟨⟨⟩, s', hrun⟩ : ∃ u s', execute h depth origin program s = (.ok u, s') :=
    hh.block (hh.expanded _) program s
  refine ⟨⟨s', hrun, ?_, fun counted earlier hc hs => ?_⟩, fun c hc => ?_,
    fun deep line instruction t hd => ?_,
    fun deep line instruction t expansion w q hd hx hq => execute_below_limit hd hx hq⟩
  · have hleft := (hmakes hnothing s [] trivial).2
    rw [hrun] at hleft
    exact hleft
  · have hcounted := (hmakes hc s earlier hs).1
    rw [hrun] at hcounted
    exact hcounted
  · obtain ⟨instruction, line, t, hmem⟩ := of_mem_blockCalls hc
    have hlt := within_lt_of_mem_expandCalls hmem
    obtain ⟨w, hresult⟩ := result_of_mem_expandCalls hmem
    obtain ⟨expansion, w', hx⟩ := hh.expand c.instruction w
    rw [hx] at hresult
    obtain ⟨notes, hrecorded⟩ := Call.recorded_of_ok hresult
    exact ⟨by omega, by omega, expansion, notes, hresult, hrecorded⟩
  · have hlimit := execute_at_limit hd origin line instruction t
    refine ⟨executeCalls_at_limit hd origin line instruction t, hlimit, ?_⟩
    rw [hlimit]
    exact keeps_emit h _ t

/-- A writer of scripts that always asks for one more expansion is called twice where two levels
are left, the second time within the first script. -/
theorem nesting_bounded_again :
    let h : Host (List String) :=
      { emit := fun _ => pure ()
        classify := none
        expand := fun instruction => do
          modify (· ++ [instruction])
          return ⟨instruction, .unknown, "macro from AI: again", none, 0.0, true, []⟩
        maxDepth := 3 }
    h.Reliable ∧
      (executeCalls h 1 none [.expand 1 "go"] ⟨{}, []⟩).map (fun c => (c.within, c.instruction)) =
        [([], "go"), (["go"], "again")] ∧
      ∃ s', execute h 1 none [.expand 1 "go"] ⟨{}, []⟩ = (.ok (), s') ∧
        s'.world = ["go", "again"] := by
  intro h
  have hh : h.Reliable := ⟨fun _ => .pure (), nofun, fun _ w => ⟨_, _, rfl⟩⟩
  have hcounts : h.Counts fun w calls => w = calls := by
    refine ⟨fun hw _ => hw, nofun, ?_⟩
    rintro w calls rfl instruction
    rfl
  have hcalls : (executeCalls h 1 none [.expand 1 "go"] ⟨{}, []⟩).map
      (fun c => (c.within, c.instruction)) = [([], "go"), (["go"], "again")] := by
    decide +kernel
  obtain ⟨s', hrun, -, hcounted⟩ := (nesting_bounded hh 1 none [.expand 1 "go"] ⟨{}, []⟩).1
  refine ⟨hh, hcalls, s', hrun, (hcounted _ [] hcounts rfl).trans ?_⟩
  have hnames := congrArg (List.map Prod.snd) hcalls
  rw [List.map_map] at hnames
  exact hnames

end Scribe.Run
