import Scribe.Crash

/-!
# Where lines go

The lines of a run go to a list of sinks: a buffer, the console, a file. A file takes each line
behind a mark, and is made when the first line comes.
-/
namespace Scribe.Run

structure Surroundings where
  files : Files := {}
  printed : List String := []
  complaints : List String := []

namespace Surroundings

def print (text : String) : Task Surroundings Unit :=
  modify fun s => { s with printed := s.printed ++ [text] }

def printLine (line : String) : Task Surroundings Unit :=
  print (line ++ "\n")

def complainLine (line : String) : Task Surroundings Unit :=
  modify fun s => { s with complaints := s.complaints ++ [line ++ "\n"] }

def change (c : Files.Change) : Task Surroundings Unit := fun s =>
  let (result, files) := c s.files
  (result.mapError Crash.file, { s with files })

def append (path text : String) : Task Surroundings Unit :=
  change (Files.append path text)

def write (path text : String) : Task Surroundings Unit :=
  change (Files.write path text)

def console (s : Surroundings) : String :=
  String.join s.printed

end Surroundings

inductive Sink where
  | buffer (lines : List String)
  | console (mark : String)
  | file (path mark : String)
deriving DecidableEq, Repr

def defaultMark : String := "neuro: "

namespace Sink

def emit (line : String) : Sink → Task Surroundings Sink
  | .buffer lines => return .buffer (lines ++ [line])
  | .console mark => do
    Surroundings.printLine (mark ++ line)
    return .console mark
  | .file path mark => do
    Surroundings.append path (mark ++ line ++ "\n")
    return .file path mark

def lines : Sink → List String
  | .buffer lines => lines
  | _ => []

def clear : Sink → Sink
  | .buffer _ => .buffer []
  | sink => sink

end Sink

/-- Sends a line to sinks, one after the other; those it has reached keep it if one fails. -/
def emitAll (line : String) :
    List Sink → Surroundings → (Except Crash Unit × Surroundings) × List Sink
  | [], s => ((.ok (), s), [])
  | sink :: rest, s =>
    match sink.emit line s with
    | (.ok sink, s) =>
      let (result, rest) := emitAll line rest s
      (result, sink :: rest)
    | (.error crash, s) => ((.error crash, s), sink :: rest)

def traceRecord (heading content : String) : String :=
  s!">>> {heading}\n{content}\n----\n"

def defaultTraceLog : String := "logs/macro_raw_latest.log"

end Scribe.Run
