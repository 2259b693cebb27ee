import Scribe.Datum

/-!
# Cases that cannot be evaluated

A case is an object with an instruction. Its other fields are optional, but what stands in them
must be of a kind that can be used.
-/
namespace Scribe.Evaluation
open Datum (Kind)

inductive CaseFault where
  | instructionMissing
  | notObject (found : Kind)
  /-- The instruction cannot be announced. -/
  | instructionUncut (found : Kind)
  | instructionNotText (found : Kind)
  | setupNotText (found : Kind)
  | expectedNotList (found : Kind)
  /-- The wanted intent cannot be a name in a report. -/
  | intentNotName (found : Kind)
  /-- The wanted intent cannot be put in order with the names. -/
  | intentNotText (found : Kind)
deriving DecidableEq, Repr

namespace CaseFault

def message : CaseFault → String
  | instructionMissing => "'instruction'"
  | notObject .list => "list indices must be integers or slices, not str"
  | notObject .text => "string indices must be integers, not 'str'"
  | notObject found => s!"'{found.name}' object is not subscriptable"
  | instructionUncut .object => "unhashable type: 'slice'"
  | instructionUncut found => s!"'{found.name}' object is not subscriptable"
  | instructionNotText found => s!"'{found.name}' object has no attribute 'strip'"
  | setupNotText found => s!"'{found.name}' object has no attribute 'startswith'"
  | expectedNotList found => s!"'{found.name}' object is not iterable"
  | intentNotName found => s!"unhashable type: '{found.name}'"
  | intentNotText found => s!"'<' not supported between instances of '{found.name}' and 'str'"

def kindName : CaseFault → String
  | instructionMissing => "KeyError"
  | instructionNotText _ | setupNotText _ => "AttributeError"
  | _ => "TypeError"

end CaseFault
end Scribe.Evaluation
