import Scribe.Run.Engine
import Scribe.Settings.File

/-!
# Settings

Settings come from variables. A settings file adds variables, but does not replace those that
are there; in its values `${name}` and `${name:-default}` stand for variables.
-/
namespace Scribe
open Run

structure Settings where
  modelsDir : String := "models"
  config : Config := {}
  /-- What the user should know. -/
  warnings : List String := []

namespace Settings

/-- A reference to a variable: its name, and perhaps a default behind `:-`. -/
def reference : Pattern :=
  .exactly ['$', '\x7b'] ++ .group 1 (.many (.noneOf "\x7d:")) ++
    .opt (.exactly [':', '-'] ++ .group 2 (.many (.noneOf "\x7d"))) ++ .char '\x7d'

/-- Replaces the references in a value. A name that is known without a value is empty. -/
def expand (known : List (String × Option String)) (value : List Char) : List Char :=
  reference.replaceWith (fun m =>
    match known.lookup (String.ofList (m.group 1)) with
    | some value => (value.getD "").toList
    | none => m.group 2) value

/-- What the entries of a file say, the last one first; each may refer to those before it, and
variables win over them. -/
def resolveEntries (env : Variables) (statements : List Statement) :
    List (String × Option String) :=
  statements.foldl (fun known statement =>
    match statement with
    | .entry name value =>
      let given := env.map fun (n, v) => (n, some v)
      let value := value.map fun v => String.ofList (expand (given ++ known) v)
      (String.ofList name, value) :: known
    | _ => known) []

def extend (env : Variables) (statements : List Statement) : Except VariableFault Variables :=
  let known := resolveEntries env statements
  (known.map Prod.fst).reverse.eraseDups.foldlM (fun env name =>
    match (known.lookup name).getD none with
    | some value => env.add name value
    | none => .ok env) env

def given? (env : Variables) (name : String) : Option String :=
  (env.lookup name).filter (· != "")

def isOn (env : Variables) (name : String) : Bool :=
  let word := Text.lower (Text.trim ((env.lookup name).getD "").toList)
  ["1", "true", "yes", "on"].contains (String.ofList word)

def number (env : Variables) (name : String) (default : Float) : Float × List String :=
  match env.lookup name with
  | none => (default, [])
  | some raw =>
    match Decimal.read? (Text.trim raw.toList) with
    | some x => (x, [])
    | none =>
      let value := Text.quoted raw
      let used := String.ofList (Decimal.text default)
      (default, [s!"⚠️  {name}={value} is not a number, using {used}"])

def ofVariables (env : Variables) : Settings :=
  let modelsDir := (given? env "NC_MODELS_DIR").getD "models"
  let model := (given? env "NC_MACRO_MODEL").or (given? env "NC_MACRO_MODEL_PATH")
  let (threshold, warnings) :=
    number env "NC_INTENT_THRESHOLD" Instruction.defaultThreshold
  { modelsDir
    config := {
      threshold
      modelPath := model.getD (defaultModelPath modelsDir)
      outputLog := isOn env "NEUROCHAIN_OUTPUT_LOG"
      traceLog := isOn env "NEUROCHAIN_RAW_LOG" }
    warnings }

def defaultFile : String := ".env"

def report : Nat × Statement → Task Surroundings Unit
  | (line, .unreadable) =>
    Surroundings.complainLine s!"python-dotenv could not parse statement starting at line {line}"
  | _ => pure ()

/-- The variable that keeps settings files from being read. -/
def disablingVariable : String := "PYTHON_DOTENV_DISABLED"

def isDisabled (env : Variables) : Bool :=
  let word := ((env.lookup disablingVariable).getD "").toList.map Pattern.foldCase
  ["1", "true", "t", "yes", "y"].contains (String.ofList word)

def readFile (env : Variables) (path : String) : Task Surroundings Variables := do
  match (← get).files.readText path with
  | .error fault => throw (Crash.ofText fault)
  | .ok cs =>
    let found := statements cs
    found.forM report
    Task.ofExcept Crash.setting (extend env (found.map Prod.snd))

/-- The variables after the settings file has been read, if there is one and it is not disabled.
A path that is no path at all is a fault even so. -/
def readFile? (env : Variables) (path : String) : Task Surroundings Variables := do
  if isDisabled env then return env
  else if Path.hasNull path then throw (Crash.file ⟨.nullByte, path⟩)
  else if ((← get).files.isFile path).toOption == some true then readFile env path
  else return env

def load (env : Variables) (path : String) : Task Surroundings Settings := do
  let env ← readFile? env path
  let settings := ofVariables env
  settings.warnings.forM Surroundings.printLine
  return settings

end Settings
end Scribe
