import Scribe.Datum.Reader
import Scribe.Evaluation.Fault
import Scribe.Files
import Scribe.Instruction.Count
import Scribe.Variables

/-!
# Crashes

What ends a run instead of being reported by it.
-/
namespace Scribe

inductive Crash where
  | unknownCount (word : Instruction.UnknownCount)
  | numberTooLarge
  | numberTooLong (digits : Nat)
  | file (fault : FileFault)
  | encoding (fault : Text.Utf8.Fault)
  /-- A data file that is not well formed. -/
  | data (message : String)
  | unknownModel (name : String)
  | case (fault : Evaluation.CaseFault)
  | setting (fault : VariableFault)
  /-- A text with a surrogate that has no partner. It could be kept and compared, and fails to be
  written, but nothing is followed beyond it. -/
  | unpairedSurrogate
deriving DecidableEq

def Crash.message : Crash → String
  | unknownCount w => Text.quoted (String.ofList w.word)
  | numberTooLarge => "int too large to convert to float"
  | numberTooLong digits => (Datum.Cause.tooManyDigits digits).text
  | file fault => fault.message
  | encoding fault => fault.message
  | data message => message
  | unknownModel name => s!"Unknown model: {name}. Supported: heuristic or a JSON model path"
  | case fault => fault.message
  | setting fault => fault.message
  | unpairedSurrogate => "surrogates not allowed"

def FileCause.kindName : FileCause → String
  | .missing => "FileNotFoundError"
  | .exists => "FileExistsError"
  | .notDirectory => "NotADirectoryError"
  | .isDirectory => "IsADirectoryError"
  | .nameTooLong => "OSError"
  | .nullByte => "ValueError"

def Crash.kindName : Crash → String
  | unknownCount _ => "KeyError"
  | numberTooLarge => "OverflowError"
  | numberTooLong _ => "ValueError"
  | file fault => fault.cause.kindName
  | encoding _ => "UnicodeDecodeError"
  | data _ => "JSONDecodeError"
  | unknownModel _ => "ValueError"
  | case fault => fault.kindName
  | setting _ => "ValueError"
  | unpairedSurrogate => "UnicodeEncodeError"

def Crash.ofData (source : List Char) (fault : Datum.Fault) : Crash :=
  match fault.cause with
  | .tooManyDigits count => .numberTooLong count
  | _ => .data (fault.message source)

def Crash.ofText : TextFault → Crash
  | .file fault => .file fault
  | .encoding fault => .encoding fault

/-- A computation with a state, which survives a crash. -/
abbrev Task (σ : Type) := ExceptT Crash (StateM σ)

namespace Task

def crash {σ α : Type} (c : Crash) : Task σ α := throw c

def ofExcept {σ ε α : Type} (f : ε → Crash) : Except ε α → Task σ α
  | .ok a => pure a
  | .error e => throw (f e)

def zoom {σ τ α : Type} (get : τ → σ) (set : σ → τ → τ) (t : Task σ α) : Task τ α :=
  fun s =>
    let (result, part) := t (get s)
    (result, set part s)

end Task
end Scribe
