import Scribe.CommandLine.Dialogue
import Scribe.CommandLine.Options
import Scribe.Settings

/-!
# The command line

The command runs a script, shows what an instruction expands to, or holds a dialogue. It ends
with a number: zero when all is well, one when a script could not be read or run, and two when
its arguments make no sense.
-/
namespace Scribe.CommandLine
open Run
variable {κ : Type}

def grammar : Grammar where
  flags := ["--syntax", "--version", "--about"]
  valued := ["--generate", "--threshold", "--macro-model"]
  takesFree := true

inductive Job where
  | version
  | about
  | showSyntax
  | generate (instruction : String)
  | script (path : String)
  | dialogue
deriving DecidableEq, Repr

structure Request where
  job : Job
  threshold : Option Float := none
  modelPath : Option String := none

/-- Showing something about the program comes before everything else. -/
def jobOf (c : Choices) : Job :=
  if c.has "--version" then .version
  else if c.has "--about" then .about
  else if c.has "--syntax" then .showSyntax
  else
    match c.value? "--generate" with
    | some instruction => .generate instruction
    | none =>
      match c.free.filter (· != "") with
      | some path => .script path
      | none => .dialogue

def Request.read (arguments : List String) : Except Stop Request := do
  let c ← grammar.read arguments
  let threshold ← c.read? Decimal.read? "--threshold"
  return { job := jobOf c, threshold, modelPath := (c.value? "--macro-model").filter (· != "") }

def Request.configure (r : Request) (config : Config) : Config :=
  { config with
    threshold := r.threshold.getD config.threshold
    modelPath := r.modelPath.getD config.modelPath }

def showExpansion (c : Config) (classify : Classify κ) (instruction : String) :
    Task (World κ) Unit := do
  let e ← generate c classify instruction
  let source := if e.usedFallback then "keyword fallback" else "classifier"
  World.printLine s!"Intent: {e.intent.label} ({source})"
  for note in e.degradations do
    World.printLine s!"⚠️  {note}"
  World.printLine e.script

def runScript (c : Config) (classify : Classify κ) (path : String) : Task (World κ) Nat := do
  match (← get).around.files.readText (Path.normalize path) with
  | .error (.file ⟨.nullByte, path⟩) => throw (.file ⟨.nullByte, path⟩)
  | .error fault =>
    World.complainLine s!"❌ Error reading file: {fault.message}"
    return 1
  | .ok source =>
    World.printLine s!"Running script: {path}"
    let (report, _) ← run c classify [.console defaultMark] source
    if report.ok then
      World.printLine "Script finished."
      return 0
    else return 1

def withSettings (env : Variables) (r : Request) : Task (World κ) Config := do
  let settings ← World.surroundings (Settings.load env Settings.defaultFile)
  return r.configure settings.config

def perform (env : Variables) (classify : Classify κ) (input : List (List Char))
    (r : Request) : Task (World κ) Nat := do
  match r.job with
  | .version =>
    World.printLine versionLine
    return 0
  | .about =>
    World.printLine about
    return 0
  | .showSyntax =>
    World.printLine syntaxHelp
    return 0
  | .generate instruction =>
    showExpansion (← withSettings env r) classify instruction
    return 0
  | .script path => runScript (← withSettings env r) classify path
  | .dialogue =>
    Dialogue.hold (← withSettings env r) classify input
    return 0

def stopWith (usage : String) : Stop → Task (World κ) Nat
  | .help => do
    World.printLine usage
    return 0
  | .misuse fault => do
    World.complainLine usage
    World.complainLine s!"error: {fault.message}"
    return 2

def command (env : Variables) (classify : Classify κ) (arguments : List String)
    (input : List (List Char)) : Task (World κ) Nat :=
  match Request.read arguments with
  | .ok request => perform env classify input request
  | .error stop => stopWith usage stop

end Scribe.CommandLine
