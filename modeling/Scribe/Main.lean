import Scribe.CommandLine

/-!
# The program

The program hands the command the files it needs from the disk, runs it, prints what it printed
and writes back the logs. Models are fetched when they are asked for: a step that asks for one
that is not at hand is taken again once the model is there.
-/
namespace Scribe.Program
open Run CommandLine

structure Memory where
  cache : Cache := []
  asked : List String := []

def classify : Classify Memory := fun files model text m =>
  let (result, cache) := classifyByModel files model text m.cache
  (result, ⟨cache, model :: m.asked⟩)

def variableNames : List String :=
  ["NC_MODELS_DIR", "NC_MACRO_MODEL", "NC_MACRO_MODEL_PATH", "NC_INTENT_THRESHOLD",
    "NEUROCHAIN_OUTPUT_LOG", "NEUROCHAIN_RAW_LOG", Settings.disablingVariable]

def readVariables : IO Variables :=
  variableNames.filterMapM fun name => return (← IO.getEnv name).map (name, ·)

def fetch (files : Files) (path : String) : IO Files := do
  if path == "" then return files
  try
    let bytes ← IO.FS.readBinFile path
    let (_, files) := Files.makeDirectory (Path.parent path) files
    return files.put (Path.names path) (.file bytes.toList)
  catch _ => return files

def store (files : Files) (path : String) : IO Unit := do
  match files.readBytes path with
  | .ok bytes =>
    IO.FS.createDirAll (Path.parent path)
    IO.FS.writeBinFile path (ByteArray.mk bytes.toArray)
  | .error _ => pure ()

def logPaths : List String :=
  let c : Config := {}
  [c.outputLogPath, c.traceLogPath]

def flush (w : World Memory) : IO (World Memory) := do
  let out ← IO.getStdout
  out.putStr w.around.console
  out.flush
  (← IO.getStderr).putStr (String.join w.around.complaints)
  logPaths.forM (store w.around.files)
  return { w with around := { files := w.around.files } }

/-- Takes a step, as often as it asks for files that have not been sought. -/
partial def settle {α : Type} (task : Task (World Memory) α) (sought : List String)
    (w : World Memory) : IO (Except Crash α × World Memory) := do
  let (result, after) := task w
  let fresh := after.memory.asked.eraseDups.filter fun path =>
    !sought.contains path && (w.around.files.isFile path).toOption != some true
  if fresh.isEmpty then return (result, after)
  else
    let files ← fresh.foldlM fetch w.around.files
    settle task (sought ++ fresh) { w with around := { w.around with files } }

def crashed (crash : Crash) : IO UInt32 := do
  (← IO.getStderr).putStrLn s!"{crash.kindName}: {crash.message}"
  return 1

partial def converse (c : Config) (d : Dialogue) (w : World Memory) : IO UInt32 := do
  let line ← (← IO.getStdin).getLine
  if line == "" then return 0
  let cs := line.toList
  let cs := if cs.getLast? == some '\n' then cs.dropLast else cs
  let (result, w) ← settle (d.take c classify cs) [] w
  let w ← flush w
  match result with
  | .error crash => crashed crash
  | .ok none => return 0
  | .ok (some d) => converse c d w

def startDialogue (given : Variables) (r : Request) (w : World Memory) : IO UInt32 := do
  let opening : Task (World Memory) Config := do
    let c ← withSettings given r
    Dialogue.greet
    return c
  let (result, w) ← settle opening [] w
  let w ← flush w
  match result with
  | .error crash => crashed crash
  | .ok c => converse c (Dialogue.start c) w

def once (given : Variables) (arguments : List String) (w : World Memory) : IO UInt32 := do
  let (result, w) ← settle (command given classify arguments []) [] w
  let _ ← flush w
  match result with
  | .error crash => crashed crash
  | .ok code => return UInt32.ofNat code

end Scribe.Program

open Scribe Scribe.Program Scribe.CommandLine in
def main (arguments : List String) : IO UInt32 := do
  let given ← readVariables
  let files ← (Settings.defaultFile :: logPaths ++ arguments).foldlM fetch {}
  let w : Run.World Memory := ⟨{ files }, {}⟩
  match Request.read arguments with
  | .ok request =>
    if request.job == .dialogue then startDialogue given request w else once given arguments w
  | .error _ => once given arguments w
