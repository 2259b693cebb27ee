import Scribe.Crash
import Scribe.Eval
import Scribe.Instruction.Expansion
import Scribe.Script.Parser

/-!
# Running a script

Statements run in order. An error of a statement becomes one line of output, and the run goes on;
only a script that cannot be read stops it. An instruction is expanded into script text, which
runs in its place; how deep such calls may nest is bounded. How deep blocks may nest is not: a
limit on the depth of recursion is not modelled.
-/
namespace Scribe.Run
open Script

inductive Phase where
  | running
  | halted
  | finished
deriving DecidableEq, Repr

/-- The state of a script: its variables, the selected model, the expansions so far, the lines
that its own lines come from, and whether it has ended. -/
structure Machine where
  bindings : Bindings := []
  activeModel : Option String := none
  expansions : List Expansion := []
  lineMap : List Int := []
  phase : Phase := .running

/-- The line that line `line` of a modernized script comes from; lines beyond the last one are
counted on from it. -/
def sourceLine (lineMap : List Int) (line : Int) : Int :=
  match lineMap.getLast? with
  | none => line
  | some last =>
    if 1 ≤ line && line ≤ lineMap.length then lineMap[(line - 1).toNat]?.getD last
    else last + (line - lineMap.length)

/-- What a run talks to: a place for its lines, a classifier, and a writer of scripts. -/
structure Host (σ : Type) where
  emit : String → Task σ Unit
  classify : Option (String → String → Task σ (Except ClassifierError Verdict))
  expand : String → Task σ Expansion
  maxDepth : Int := 1

structure Session (σ : Type) where
  machine : Machine
  world : σ

abbrev Exec (σ : Type) := Task (Session σ)

namespace Exec
variable {σ : Type}

def world {α : Type} (t : Task σ α) : Exec σ α :=
  Task.zoom Session.world (fun w s => { s with world := w }) t

def machine : Exec σ Machine := return (← get).machine

def change (f : Machine → Machine) : Exec σ Unit :=
  modify fun s => { s with machine := f s.machine }

def bind (name : String) (value : Value) : Exec σ Unit :=
  change fun m => { m with bindings := m.bindings.set name value }

end Exec

variable {σ : Type}

def emit (h : Host σ) (line : String) : Exec σ Unit :=
  Exec.world (h.emit line)

def diagnose (h : Host σ) (kind : String) (line : Int) (message : String) : Exec σ Unit := do
  let m ← Exec.machine
  let line := sourceLine m.lineMap line
  emit h s!"❌ {kind} on line {line}: {message}"

def valueOf? (h : Host σ) (line : Int) (e : Expr) : Exec σ (Option Value) := do
  match evaluate (← Exec.machine).bindings e with
  | .ok value => return some value
  | .error error =>
    diagnose h "EvalError" line error.message
    return none

def labelOf? (h : Host σ) (line : Int) (prompt : String) : Exec σ (Option String) := do
  match (← Exec.machine).activeModel, h.classify with
  | none, _ =>
    diagnose h "ClassifierError" line "no model selected, add an `AI: \"path\"` line first"
    return none
  | some _, none =>
    diagnose h "ClassifierError" line "no classifier available"
    return none
  | some model, some classify =>
    match ← Exec.world (classify model prompt) with
    | .ok verdict => return some verdict.label
    | .error error =>
      diagnose h "ClassifierError" line error.message
      return none

/-- Expanded statements report the line of the instruction that they come from. -/
def reportedLine (origin : Option Int) (line : Nat) : Int :=
  match origin with
  | none => line
  | some origin => if origin == 0 then line else origin

mutual

/-- Runs a statement; `expand` runs an instruction on a line. -/
def execStmt (h : Host σ) (expand : String → Int → Exec σ Unit) (origin : Option Int) :
    Stmt → Exec σ Unit
  | .print line e => do
    match ← valueOf? h (reportedLine origin line) e with
    | some value => emit h value.display
    | none => return
  | .assign line name e => do
    let value ← valueOf? h (reportedLine origin line) e
    Exec.bind name (value.getD .null)
  | .ask line name prompt => do
    let label ← labelOf? h (reportedLine origin line) prompt
    Exec.bind name (label.elim .null .text)
  | .select line path => do
    match ← valueOf? h (reportedLine origin line) path with
    | some value => Exec.change fun m => { m with activeModel := some value.display }
    | none => return
  | .expand line instruction => expand instruction (reportedLine origin line)
  | .choose line arms otherwise =>
    execArms h expand origin (reportedLine origin line) (execElse h expand origin otherwise) arms

def execArms (h : Host σ) (expand : String → Int → Exec σ Unit) (origin : Option Int)
    (line : Int) (otherwise : Exec σ Unit) : List (Expr × List Stmt) → Exec σ Unit
  | [] => otherwise
  | (condition, body) :: rest => do
    let value ← valueOf? h line condition
    if value.any Value.truthy then execBlock h expand origin body
    else execArms h expand origin line otherwise rest

def execElse (h : Host σ) (expand : String → Int → Exec σ Unit) (origin : Option Int) :
    Option (List Stmt) → Exec σ Unit
  | none => return
  | some body => execBlock h expand origin body

def execBlock (h : Host σ) (expand : String → Int → Exec σ Unit) (origin : Option Int) :
    List Stmt → Exec σ Unit
  | [] => return
  | stmt :: rest => do
    execStmt h expand origin stmt
    execBlock h expand origin rest

end

def noteLast (note : String) : List Expansion → List Expansion
  | [] => []
  | [e] => [{ e with degradations := e.degradations ++ [note] }]
  | e :: rest => e :: noteLast note rest

/-- Runs an instruction where `allowance` more levels may be nested. A script that cannot be read
is replaced by the instruction itself. -/
def execExpand (h : Host σ) : (allowance : Nat) → String → Int → Exec σ Unit
  | 0, _, line =>
    diagnose h "MacroError" line s!"macro nesting deeper than {h.maxDepth} is not allowed"
  | allowance + 1, instruction, line => do
    let expansion ← Exec.world (h.expand instruction)
    Exec.change fun m => { m with expansions := m.expansions ++ [expansion] }
    match parse expansion.script.toList with
    | .ok program => execBlock h (execExpand h allowance) (some line) program
    | .error fault =>
      let note := s!"synthesized DSL rejected ({fault.text}), echoed instruction"
      Exec.change fun m => { m with expansions := noteLast note m.expansions }
      emit h (String.ofList (Instruction.unwrap instruction.toList))

/-- Runs a program whose statements stand `depth` expansions deep. -/
def execute (h : Host σ) (depth : Int) (origin : Option Int) (program : Program) : Exec σ Unit :=
  execBlock h (execExpand h (h.maxDepth - depth).toNat) origin program

/-- Reads and runs a script whose lines come from the lines in `lineMap`. -/
def runSource (h : Host σ) (source : List Char) (lineMap : List Int) : Exec σ Phase := do
  Exec.change fun m => { m with phase := .running, lineMap }
  match parse source with
  | .error fault =>
    let fault : Fault := { fault with line := fault.line.map (sourceLine lineMap) }
    emit h s!"❌ {fault.text}"
    Exec.change fun m => { m with phase := .halted }
    return .halted
  | .ok program =>
    execute h 0 none program
    Exec.change fun m => { m with phase := .finished }
    return .finished

end Scribe.Run
