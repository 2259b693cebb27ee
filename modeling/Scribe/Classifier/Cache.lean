import Scribe.Classifier.Model
import Scribe.Crash
import Scribe.Datum.Reader

/-!
# Model files

A model is read when it is first asked for and kept from then on, by its path as it is written.
A file that cannot be read is tried again the next time.
-/
namespace Scribe

abbrev Cache := List (String × Model)

/-- Why a model cannot be loaded: for a reason that a run reports, or for one that ends it. -/
inductive LoadFault where
  | refused (error : ClassifierError)
  | crashed (crash : Crash)
deriving DecidableEq

def LoadFault.ofModel : ModelFault → LoadFault
  | .refused error => .refused error
  | .numberTooLarge => .crashed .numberTooLarge

/-- A text at `path` that is no data. A number that is too long ends the run. -/
def LoadFault.ofData (path : String) (source : List Char) (fault : Datum.Fault) : LoadFault :=
  match fault.cause with
  | .tooManyDigits count => .crashed (.numberTooLong count)
  | _ => .refused (.unreadable path (fault.message source))

namespace Cache

def readModel (files : Files) (path : String) : Except LoadFault Model :=
  match files.isFile (Path.normalize path) with
  | .error fault => .error (.crashed (.file fault))
  | .ok false => .error (.refused (.notFound path))
  | .ok true =>
    match files.readText (Path.normalize path) with
    | .error fault => .error (.refused (.unreadable path fault.message))
    | .ok source =>
      match Datum.read source with
      | .error fault => .error (.ofData path source fault)
      | .ok d => (Model.ofDatum path d).mapError LoadFault.ofModel

def load (cache : Cache) (files : Files) (path : String) : Except LoadFault Model × Cache :=
  if path == "" then (.error (.refused .noPath), cache)
  else
    let key := Path.normalize path
    match cache.lookup key with
    | some model => (.ok model, cache)
    | none =>
      match readModel files path with
      | .ok model => (.ok model, (key, model) :: cache)
      | .error fault => (.error fault, cache)

def classify (cache : Cache) (files : Files) (path text : String) :
    Except Crash (Except ClassifierError (Verdict CodePoints)) × Cache :=
  match cache.load files path with
  | (.ok model, cache) => (.ok (model.predict text.toList), cache)
  | (.error (.refused error), cache) => (.ok (.error error), cache)
  | (.error (.crashed crash), cache) => (.error crash, cache)

end Cache
end Scribe
