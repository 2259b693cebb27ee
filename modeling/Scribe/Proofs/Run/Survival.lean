import Scribe.Proofs.Run.Visits

/-!
# Runs that end

A run on a host whose services answer ends without a crash, however its instructions are expanded.
It halts exactly if its script cannot be read, and has then emitted one line and changed nothing
else. Whatever can be read is a well-formed tree, so no evaluation meets a part that has no value
by its kind.
-/
namespace Scribe

open Script

/-- An evaluation that does not stop at a part which has no value by its kind. -/
def Regular {α : Type} (r : Except EvalError α) : Prop := ∀ kind, r ≠ .error (.unsupported kind)

section
variable {α β : Type}

theorem Regular.ok (a : α) : Regular (.ok a) := fun _ => nofun

theorem Regular.bind {x : Except EvalError α} {f : α → Except EvalError β} (hx : Regular x)
    (hf : ∀ a, Regular (f a)) : Regular (x >>= f) := by
  cases x with
  | ok a => exact hf a
  | error e =>
    intro kind heq
    cases heq
    exact hx kind rfl

end

theorem regular_arithmetic (op : Arith) (left right : Value) :
    Regular (arithmetic op left right) := by
  intro kind
  unfold arithmetic arithNumbers
  repeat' split
  all_goals exact nofun

theorem regular_chain {b : Bindings} {rest : List (Comparison × Expr)}
    (h : ∀ p ∈ rest, Regular (evaluate b p.2)) (left : Value) :
    Regular (evaluateChain b left rest) := by
  induction rest generalizing left with
  | nil => exact .ok true
  | cons p rest ih =>
    obtain ⟨op, operand⟩ := p
    rw [evaluateChain]
    refine (h (op, operand) (by simp)).bind fun right => ?_
    split
    · exact ih (fun q hq => h q (by simp [hq])) right
    · exact .ok false

theorem regular_all {b : Bindings} {operands : List Expr}
    (h : ∀ e ∈ operands, Regular (evaluate b e)) : Regular (evaluateAll b operands) := by
  induction operands with
  | nil => exact .ok true
  | cons operand rest ih =>
    rw [evaluateAll]
    refine (h operand (by simp)).bind fun value => ?_
    split
    · exact ih fun e he => h e (by simp [he])
    · exact .ok false

theorem regular_any {b : Bindings} {operands : List Expr}
    (h : ∀ e ∈ operands, Regular (evaluate b e)) : Regular (evaluateAny b operands) := by
  induction operands with
  | nil => exact .ok false
  | cons operand rest ih =>
    rw [evaluateAny]
    refine (h operand (by simp)).bind fun value => ?_
    split
    · exact .ok true
    · exact ih fun e he => h e (by simp [he])

theorem Script.Expr.WellFormed.regular {e : Expr} (h : e.WellFormed) (b : Bindings) :
    Regular (evaluate b e) := by
  induction h with
  | lit | var =>
    rw [evaluate]
    exact .ok _
  | arith hl hr ihl ihr =>
    rw [evaluate]
    exact ihl.bind fun x => ihr.bind fun y => regular_arithmetic _ x y
  | neg h ih =>
    rw [evaluate]
    refine ih.bind fun value => ?_
    split
    · exact .ok _
    · exact fun _ => nofun
  | compare hfirst hrest more ihfirst ihrest =>
    rw [evaluate]
    exact ihfirst.bind fun value => (regular_chain ihrest value).bind fun _ => .ok _
  | all h more ih =>
    rw [evaluate]
    exact (regular_all ih).bind fun _ => .ok _
  | any h more ih =>
    rw [evaluate]
    exact (regular_any ih).bind fun _ => .ok _

namespace Run

variable {σ : Type}

/-- Every service of the host answers, if only with an error that can be reported. -/
structure Host.Reliable (h : Host σ) : Prop where
  emit : ∀ line, (h.emit line).Returns
  classify : ∀ f, h.classify = some f → ∀ model text, (f model text).Returns
  expand : ∀ instruction, (h.expand instruction).Returns

theorem Exec.world_returns {α : Type} {t : Task σ α} (ht : t.Returns) : (Exec.world t).Returns := by
  intro s
  obtain ⟨a, w, h⟩ := ht s.world
  exact ⟨a, _, Exec.world_of h⟩

theorem Exec.change_returns (f : Machine → Machine) : (Exec.change f : Exec σ Unit).Returns :=
  fun s => ⟨(), _, Exec.change_run f s⟩

theorem Exec.machine_returns : (Exec.machine : Exec σ Machine).Returns :=
  fun s => ⟨s.machine, s, rfl⟩

variable {h : Host σ} {k : String → Int → Exec σ Unit} {origin : Option Int}

theorem Host.Reliable.upholds (hh : h.Reliable) :
    h.Upholds (fun _ => True) fun _ t => t.Returns where
  toChains := Task.Returns.chains fun _ _ _ => trivial
  machine := Exec.machine_returns
  change := fun f _ => Exec.change_returns f
  emit := fun line => Exec.world_returns (hh.emit line)
  classify := fun f hf model _ text => Exec.world_returns (hh.classify f hf model text)

theorem Host.Reliable.block (hh : h.Reliable)
    (hk : ∀ instruction line, (k instruction line).Returns) (program : List Stmt) :
    (execBlock h k origin program).Returns :=
  hh.upholds.block (fun _ _ => trivial) fun _ instruction _ => hk instruction _

/-- However the instructions of expanded scripts nest. -/
theorem Host.Reliable.expanded (hh : h.Reliable) (allowance : Nat) (instruction : String)
    (line : Int) : (execExpand h allowance instruction line).Returns :=
  hh.upholds.nested (fun _ => trivial)
    (fun instruction => Exec.world_returns (hh.expand instruction)) allowance instruction line

def haltLine (lineMap : List Int) (fault : Fault) : String :=
  s!"❌ {({ fault with line := fault.line.map (sourceLine lineMap) } : Fault).text}"

def Session.started (s : Session σ) (lineMap : List Int) : Session σ :=
  { s with machine := { s.machine with phase := .running, lineMap } }

def Exec.finish (phase : Phase) : Exec σ Phase :=
  fun s => (.ok phase, { s with machine := { s.machine with phase } })

theorem runSource_unread {source : List Char} {fault : Fault} (hp : parse source = .error fault)
    (lineMap : List Int) (s : Session σ) :
    runSource h source lineMap s =
      (emit h (haltLine lineMap fault) >>= fun _ => Exec.finish .halted) (s.started lineMap) := by
  rw [runSource, Task.bind_of_ok (Exec.change_run _ _), hp]
  rfl

theorem runSource_read {source : List Char} {program : Program} (hp : parse source = .ok program)
    (lineMap : List Int) (s : Session σ) :
    runSource h source lineMap s =
      (execute h 0 none program >>= fun _ => Exec.finish .finished) (s.started lineMap) := by
  rw [runSource, Task.bind_of_ok (Exec.change_run _ _), hp]
  rfl

/-- A script that cannot be read emits one line, and nothing but that line and the end of the run
is left of it. -/
theorem runSource_halts (hh : h.Reliable) {source : List Char} {fault : Fault}
    (hp : parse source = .error fault) (lineMap : List Int) (s : Session σ) :
    ∃ w, h.emit (haltLine lineMap fault) s.world = (.ok (), w) ∧
      runSource h source lineMap s =
        (.ok .halted, ⟨{ s.machine with lineMap, phase := .halted }, w⟩) := by
  obtain ⟨⟨⟩, w, hw⟩ := hh.emit (haltLine lineMap fault) s.world
  refine ⟨w, hw, ?_⟩
  have hemit : emit h (haltLine lineMap fault) (s.started lineMap) =
      (.ok (), { s.started lineMap with world := w }) := Exec.world_of hw
  rw [runSource_unread hp, Task.bind_of_ok hemit]
  rfl

theorem runSource_finishes (hh : h.Reliable) {source : List Char} {program : Program}
    (hp : parse source = .ok program) (lineMap : List Int) (s : Session σ) :
    ∃ s', runSource h source lineMap s = (.ok .finished, s') ∧ s'.machine.phase = .finished := by
  have hrun : (execute h 0 none program).Returns := hh.block (hh.expanded _) program
  obtain ⟨⟨⟩, s₁, hs₁⟩ := hrun (s.started lineMap)
  refine ⟨{ s₁ with machine := { s₁.machine with phase := .finished } }, ?_, rfl⟩
  rw [runSource_read hp, Task.bind_of_ok hs₁]
  rfl

/-- A run ends, and halts exactly if its script cannot be read: it has then emitted one line and
changed nothing else. Every operator of a script is written as one that is known, and no statement
of a program meets a part of its expressions that has no value by its kind. -/
theorem run_ends (hh : h.Reliable) (source : List Char) (lineMap : List Int) (s : Session σ) :
    (∃ phase s', runSource h source lineMap s = (.ok phase, s') ∧ s'.machine.phase = phase ∧
      (phase = .halted ↔ ∃ fault, parse source = .error fault) ∧
      (phase = .finished ↔ ∃ program, parse source = .ok program) ∧
      ∀ fault, parse source = .error fault →
        ∃ w, h.emit (haltLine lineMap fault) s.world = (.ok (), w) ∧
          s' = ⟨{ s.machine with lineMap, phase := .halted }, w⟩) ∧
    ∀ (text : List Char) (program : Program), parse text = .ok program →
      (∀ tokens, tokenize text = .ok tokens → ∀ t ∈ tokens, ∀ symbol,
        t.kind.symbol? = some symbol → t.lexeme = symbol) ∧
      ∀ stmt, Occurs stmt program → stmt.WellFormed ∧
        ∀ e ∈ stmt.exprs, ∀ b kind, evaluate b e ≠ .error (.unsupported kind) := by
  refine ⟨?_, fun text program hp => ⟨fun tokens htokens t ht symbol hs => ?_, fun stmt hx => ?_⟩⟩
  · cases hp : parse source with
    | error fault =>
      obtain ⟨w, hw, hrun⟩ := runSource_halts hh hp lineMap s
      refine ⟨_, _, hrun, rfl, by simp, by simp, ?_⟩
      rintro _ ⟨⟩
      exact ⟨w, hw, rfl⟩
    | ok program =>
      obtain ⟨s', hrun, hphase⟩ := runSource_finishes hh hp lineMap s
      exact ⟨_, s', hrun, hphase, by simp, by simp, nofun⟩
  · exact symbol_of_tokenize htokens ht hs
  · have hw := wellFormed_of_parse hp hx
    exact ⟨hw, fun e he b => (hw.exprs e he).regular b⟩

/-- A writer of scripts that always asks for one more expansion does not keep a run from ending. -/
theorem run_ends_nested :
    let h : Host (List String) :=
      { emit := fun line => modify (· ++ [line])
        classify := some fun _ _ => pure (.error (.stated "none"))
        expand := fun instruction =>
          pure ⟨instruction, .unknown, "macro from AI: again", none, 0.0, true, []⟩
        maxDepth := 2 }
    h.Reliable ∧ ∃ phase s', runSource h "macro from AI: go".toList [] ⟨{}, []⟩ = (.ok phase, s') ∧
      (phase = .halted ↔ ∃ fault, parse "macro from AI: go".toList = .error fault) := by
  intro h
  have hh : h.Reliable := by
    refine ⟨fun line w => ⟨(), _, rfl⟩, ?_, fun instruction => .pure _⟩
    rintro f ⟨⟩ model text
    exact .pure _
  obtain ⟨phase, s', hrun, -, hphase, -⟩ := (run_ends hh "macro from AI: go".toList [] ⟨{}, []⟩).1
  exact ⟨hh, phase, s', hrun, hphase⟩

end Run
end Scribe
