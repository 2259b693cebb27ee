import Scribe.Evaluation.Summary
import Scribe.Run.Engine

/-!
# Evaluating a case

A case is an instruction with what is wanted of it. It runs on a machine of its own, after a
setup script if there is one, and is judged by the intent of the last expansion and by the lines
that the instruction wrote.
-/
namespace Scribe.Evaluation
open Run
variable {κ : Type}

structure Case where
  instruction : String
  /-- The wanted intent, which may be anything. -/
  wanted : Datum := .text ""
  setup : Option (List Char) := none
  expected : Option (List String) := none

namespace Case

/-- The texts that a datum lists: the entries of a list, the characters of a text, the names of
an object's fields. -/
def listed : Datum → Except CaseFault (List String)
  | .list items => .ok (items.map Datum.display)
  | .text s => .ok (s.toList.map fun c => String.ofList [c])
  | .object fields => .ok (fields.map Prod.fst)
  | d => .error (.expectedNotList d.kind)

def isVoid : Datum → Bool
  | .null | .bool false | .text "" | .list [] | .object [] => true
  | .int n => n == 0
  | .float x => x == 0.0
  | _ => false

def setupOf (d : Datum) : Except CaseFault (Option (List Char)) :=
  if isVoid d then .ok none
  else
    match d with
    | .text s => .ok (some s.toList)
    | d => .error (.setupNotText d.kind)

def instructionOf (d : Datum) : Except CaseFault Datum :=
  match d with
  | .object fields =>
    match Datum.field? fields "instruction" with
    | some instruction => .ok instruction
    | none => .error .instructionMissing
  | d => .error (.notObject d.kind)

def ofDatum (d : Datum) : Except CaseFault Case := do
  let instruction ← instructionOf d
  let fields := match d with
    | .object fields => fields
    | _ => []
  let expected ← (Datum.field? fields "expected_output").mapM listed
  let setup ← setupOf ((Datum.field? fields "setup").getD .null)
  match instruction with
  | .text instruction =>
    let wanted := (Datum.field? fields "intent").getD (.text "")
    return { instruction, wanted, setup, expected }
  | d => throw (.instructionNotText d.kind)

end Case

/-- The writer of scripts under test: words alone, or a model. -/
structure Subject where
  modelPath : Option String := none
  threshold : Float := Instruction.defaultThreshold

def heuristicName : String := "heuristic"

def Subject.ofName (files : Files) (name : String) (threshold : Float) : Except Crash Subject :=
  if name == heuristicName then .ok { threshold }
  else
    match files.isThere (Path.normalize name) with
    | .error fault => .error (.file fault)
    | .ok true => .ok { modelPath := some name, threshold }
    | .ok false => .error (.unknownModel name)

def Subject.expand (s : Subject) (classify : Classify κ) (instruction : String) :
    Task (World κ) Expansion :=
  expandWith (s.modelPath.map fun _ => World.ask classify) (s.modelPath.getD "") s.threshold
    (fun _ _ => pure ()) instruction

/-- The host of a case: scripts have no classifier, and `expand` writes those of instructions. -/
def caseHost (expand : String → Task (World κ) Expansion) : Host (Stage κ) where
  emit := Stage.emit
  classify := none
  expand := fun instruction => Stage.zoom (expand instruction)

structure Result where
  case : Case
  expansion : Expansion
  output : List String
  setupOk : Bool
  duration : Float := 0.0

namespace Result

def intentRight (r : Result) : Bool :=
  match r.case.wanted with
  | .text wanted => r.expansion.intent.label == wanted
  | _ => false

def outputRight (r : Result) : Option Bool :=
  r.case.expected.map (r.output == ·)

def error (r : Result) : String :=
  if r.setupOk then "" else "setup script failed"

/-- A wanted intent must be a text where reports name it. -/
def judged (r : Result) : Except CaseFault Judged :=
  match r.case.wanted with
  | .text wanted =>
    .ok { wanted, given := r.expansion.intent.label, script := r.expansion.script,
          intentRight := r.intentRight, outputRight := r.outputRight,
          usedFallback := r.expansion.usedFallback, notes := r.expansion.degradations,
          duration := r.duration }
  | .list _ => .error (.intentNotName .list)
  | .object _ => .error (.intentNotName .object)
  | d => .error (.intentNotText d.kind)

def texts (xs : List String) : Datum := .list (xs.map .text)

def toDatum (r : Result) : Datum :=
  .object [
    ("instruction", .text r.case.instruction),
    ("gold_intent", r.case.wanted),
    ("pred_intent", .text r.expansion.intent.label),
    ("label", (r.expansion.label.map Datum.text).getD .null),
    ("score", .float r.expansion.score),
    ("used_fallback", .bool r.expansion.usedFallback),
    ("pred_dsl", .text r.expansion.script),
    ("output", texts r.output),
    ("expected_output", texts (r.case.expected.getD [])),
    ("ok_intent", .bool r.intentRight),
    ("ok_output", (r.outputRight.map Datum.bool).getD .null),
    ("degradations", texts r.expansion.degradations),
    ("latency_ms", .float r.duration),
    ("error", .text r.error)]

end Result

/-- Runs the setup script, and forgets what it wrote. -/
def runSetup (h : Host (Stage κ)) (source : List Char) : Exec (Stage κ) Bool := do
  let (text, lineMap) := modernize (preprocess source)
  let phase ← runSource h text (lineMap.map Int.ofNat)
  Exec.world (modify fun s => { s with sinks := s.sinks.map Sink.clear })
  return phase == .finished

def runCase (h : Host (Stage κ)) (c : Case) : Exec (Stage κ) Bool := do
  let setupOk ← (c.setup.mapM (runSetup h))
  execute h 0 none [.expand 1 c.instruction]
  return setupOk.getD true

def lastExpansion (c : Case) (m : Machine) : Expansion :=
  m.expansions.getLast?.getD { instruction := c.instruction, intent := .unknown, script := "" }

def evaluateWith (expand : String → Task (World κ) Expansion) (c : Case) :
    Task (World κ) Result :=
  fun w =>
    match runCase (caseHost expand) c ⟨{}, ⟨w, [.buffer []]⟩⟩ with
    | (.error crash, t) => (.error crash, t.world.world)
    | (.ok setupOk, t) =>
      let output := t.world.sinks.flatMap Sink.lines
      (.ok { case := c, expansion := lastExpansion c t.machine, output, setupOk }, t.world.world)

def evaluateCase (s : Subject) (classify : Classify κ) (c : Case) : Task (World κ) Result :=
  evaluateWith (s.expand classify) c

end Scribe.Evaluation
