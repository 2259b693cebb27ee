import Scribe.Classifier.Cache
import Scribe.Run.Interpreter
import Scribe.Run.Legacy
import Scribe.Run.Sink

/-!
# Engines

An engine has settings and a classifier. Each run gets a fresh machine and fresh sinks, while
files and what the classifier has learnt stay.
-/
namespace Scribe.Run

structure Config where
  threshold : Float := Instruction.defaultThreshold
  /-- The model of intents; the empty path stands for none. -/
  modelPath : String := "models/intent_macro/model.json"
  maxDepth : Int := 1
  outputLog : Bool := false
  traceLog : Bool := false
  logDir : String := "logs"

def defaultModelPath (modelsDir : String) : String :=
  Path.join modelsDir "intent_macro/model.json"

def Config.outputLogPath (c : Config) : String := Path.join c.logDir "run_latest.log"

def Config.traceLogPath (c : Config) : String := Path.join c.logDir "macro_raw_latest.log"

/-- A classifier with a memory of its own, which may look at the files. -/
abbrev Classify (κ : Type) :=
  Files → (model text : String) → κ → Except Crash (Except ClassifierError Verdict) × κ

/-- An answer as a run takes it. A run is not followed beyond a label that is no plain text. -/
def plainAnswer :
    Except ClassifierError (Verdict CodePoints) → Except Crash (Except ClassifierError Verdict)
  | .error error => .ok (.error error)
  | .ok verdict =>
    match verdict.plain? with
    | some verdict => .ok (.ok verdict)
    | none => .error .unpairedSurrogate

def classifyByModel : Classify Cache :=
  fun files model text cache =>
    let (answer, cache) := cache.classify files model text
    (answer >>= plainAnswer, cache)

structure World (κ : Type) where
  around : Surroundings
  memory : κ

structure Stage (κ : Type) where
  world : World κ
  sinks : List Sink

variable {κ σ : Type}

namespace World

def surroundings {α : Type} (t : Task Surroundings α) : Task (World κ) α :=
  Task.zoom World.around (fun a w => { w with around := a }) t

def print (text : String) : Task (World κ) Unit :=
  surroundings (Surroundings.print text)

def printLine (line : String) : Task (World κ) Unit :=
  surroundings (Surroundings.printLine line)

def complainLine (line : String) : Task (World κ) Unit :=
  surroundings (Surroundings.complainLine line)

def ask (classify : Classify κ) (model text : String) :
    Task (World κ) (Except ClassifierError Verdict) :=
  fun w =>
    let (result, memory) := classify w.around.files model text w.memory
    (result, { w with memory })

end World

namespace Stage

def zoom {α : Type} (t : Task (World κ) α) : Task (Stage κ) α :=
  Task.zoom Stage.world (fun w s => { s with world := w }) t

def emit (line : String) : Task (Stage κ) Unit :=
  fun s =>
    let ((result, around), sinks) := emitAll line s.sinks s.world.around
    (result, ⟨{ s.world with around }, sinks⟩)

end Stage

def askIntent (classify : Option (String → String → Task σ (Except ClassifierError Verdict)))
    (modelPath : String) (text : List Char) : Task σ Expansion.Answer :=
  match classify with
  | none => pure .absent
  | some classify =>
    if modelPath == "" then pure .absent
    else do
      match ← classify modelPath (String.ofList text) with
      | .ok verdict => return .verdict verdict
      | .error error => return .failed error

def traceAll (trace : String → String → Task σ Unit) : List Expansion.Trace → Task σ Unit
  | [] => return
  | (heading, content) :: rest => do
    trace heading content
    traceAll trace rest

def expandAnswered (threshold : Float) (trace : String → String → Task σ Unit)
    (instruction : String) (answer : Expansion.Answer) : Task σ Expansion := do
  traceAll trace [Expansion.answerTrace answer (Instruction.unwrap instruction.toList)]
  match Expansion.ofAnswer threshold instruction answer with
  | .error word => throw (.unknownCount word)
  | .ok expansion =>
    traceAll trace expansion.traces
    return expansion

def expandWith (classify : Option (String → String → Task σ (Except ClassifierError Verdict)))
    (modelPath : String) (threshold : Float) (trace : String → String → Task σ Unit)
    (instruction : String) : Task σ Expansion := do
  let answer ← askIntent classify modelPath (Instruction.unwrap instruction.toList)
  expandAnswered threshold trace instruction answer

/-- Expands an instruction by its words alone. -/
def expandPlain (threshold : Float) (instruction : String) : Task σ Expansion :=
  expandWith none "" threshold (fun _ _ => pure ()) instruction

def Config.trace (c : Config) (heading content : String) : Task (World κ) Unit :=
  if c.traceLog then
    World.surroundings (Surroundings.append c.traceLogPath (traceRecord heading content))
  else pure ()

/-- Expands an instruction without running it. -/
def generate (c : Config) (classify : Classify κ) (instruction : String) :
    Task (World κ) Expansion :=
  expandWith (some (World.ask classify)) c.modelPath c.threshold c.trace instruction

def host (c : Config) (classify : Classify κ) : Host (Stage κ) where
  emit := Stage.emit
  classify := some fun model text => Stage.zoom (World.ask classify model text)
  expand := fun instruction => Stage.zoom (generate c classify instruction)
  maxDepth := c.maxDepth

structure Interpreter where
  machine : Machine := {}
  sinks : List Sink

def interpreter (c : Config) (sinks : List Sink) : Interpreter where
  sinks := sinks ++ if c.outputLog then [.file c.outputLogPath defaultMark] else []

/-- Runs a script, which may use older spellings, on a machine. -/
def Interpreter.run (c : Config) (classify : Classify κ) (source : List Char)
    (i : Interpreter) (w : World κ) : (Except Crash Phase × Interpreter) × World κ :=
  let (text, lineMap) := modernize (preprocess source)
  let lineMap := lineMap.map Int.ofNat
  let (result, s) := runSource (host c classify) text lineMap ⟨i.machine, ⟨w, i.sinks⟩⟩
  ((result, ⟨s.machine, s.world.sinks⟩), s.world.world)

structure Report where
  phase : Phase
  output : List String
  bindings : Bindings
  expansions : List Expansion

def Report.ok (r : Report) : Bool := r.phase == .finished

def Report.text (r : Report) : String := "\n".intercalate r.output

/-- Runs a script on a fresh machine; `sinks` get its lines too, and are returned. -/
def run (c : Config) (classify : Classify κ) (sinks : List Sink) (source : List Char) :
    Task (World κ) (Report × List Sink) :=
  fun w =>
    match (interpreter c (.buffer [] :: sinks)).run c classify source w with
    | ((.error crash, _), w) => (.error crash, w)
    | ((.ok phase, i), w) =>
      let output := (i.sinks.head?.map Sink.lines).getD []
      (.ok (⟨phase, output, i.machine.bindings, i.machine.expansions⟩, i.sinks.tail), w)

def runFile (c : Config) (classify : Classify κ) (sinks : List Sink) (path : String) :
    Task (World κ) (Report × List Sink) := do
  match (← get).around.files.readText (Path.normalize path) with
  | .ok source => run c classify sinks source
  | .error fault => throw (Crash.ofText fault)

end Scribe.Run
