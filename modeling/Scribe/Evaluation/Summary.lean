import Scribe.Evaluation.Accuracy
import Scribe.Evaluation.Features
import Scribe.Evaluation.Statistics

/-!
# Summaries

Judged cases are summed up: how many intents and outputs are right, overall and for each wanted
intent, what the scripts are made of, and how often and why something had to be left out.
-/
namespace Scribe.Evaluation

structure Judged where
  wanted : String
  given : String
  script : String
  intentRight : Bool
  /-- Nothing if no output was wanted. -/
  outputRight : Option Bool
  usedFallback : Bool
  notes : List String
  duration : Float

structure Marks where
  total : Nat
  intentAccuracy : Float
  outputAccuracy : Option Float

def Marks.of (cases : List Judged) : Marks :=
  let outputs := cases.filterMap Judged.outputRight
  { total := cases.length
    intentAccuracy := ratio (cases.countP Judged.intentRight) cases.length
    outputAccuracy :=
      if outputs.isEmpty then none else some (ratio (outputs.countP id) outputs.length) }

structure Summary where
  overall : Marks
  fallbackRate : Float
  durations : Durations
  byIntent : List (String × Marks)

def Summary.of (cases : List Judged) : Summary where
  overall := Marks.of cases
  fallbackRate := ratio (cases.countP Judged.usedFallback) cases.length
  durations := Durations.of (cases.map Judged.duration)
  byIntent := (Text.sortedSet (cases.map Judged.wanted)).map fun intent =>
    (intent, Marks.of (cases.filter (·.wanted == intent)))

def Marks.toDatum (t : Marks) : Datum :=
  .object [("total", .int t.total), ("intent_accuracy", .float t.intentAccuracy),
    ("output_accuracy", (t.outputAccuracy.map Datum.float).getD .null)]

def Summary.fields (s : Summary) : List (String × Datum) :=
  [("overall", .object [
      ("total_examples", .int s.overall.total),
      ("intent_accuracy", .float s.overall.intentAccuracy),
      ("output_accuracy", .float (s.overall.outputAccuracy.getD 0.0)),
      ("fallback_rate", .float s.fallbackRate),
      ("latency_p50_ms", .float s.durations.median),
      ("latency_p90_ms", .float s.durations.ninthDecile),
      ("latency_mean_ms", .float s.durations.mean),
      ("latency_max_ms", .float s.durations.largest)]),
    ("by_intent", .object (s.byIntent.map fun (intent, t) => (intent, t.toDatum)))]

structure Coverage where
  total : Nat
  intents : List (String × Float)
  features : List (String × Float)

/-- How often each intent is wanted, and each feature used at least once in a script. -/
def Coverage.of (wanted scripts : List String) : Coverage :=
  let used := scripts.flatMap fun script => (Evaluation.features script.toList).map Prod.fst
  { total := wanted.length
    intents := (Tally.ofList wanted).ratios wanted.length
    features := (Tally.ofList used).ratios wanted.length }

def ratioFields (rs : List (String × Float)) : Datum :=
  .object (rs.map fun (name, x) => (name, .float x))

def Coverage.toDatum (c : Coverage) : Datum :=
  .object [("total_examples", .int c.total), ("intent_distribution", ratioFields c.intents),
    ("feature_usage", ratioFields c.features)]

/-- The parts of a note that differ from case to case: what is in parentheses or quotes, and
numbers. -/
def particulars : Pattern :=
  .choice [.char '(' ++ .lazyMany .inLine ++ .char ')',
    .char '\'' ++ .lazyMany .inLine ++ .char '\'', .unsigned]

def noteKind (note : String) : String :=
  let rest := particulars.replace "" note.toList
  String.ofList (Text.trim (Pattern.blanks1.replace " " rest))

structure Degradation where
  rate : Float
  kinds : Tally

def Degradation.of (notes : List (List String)) : Degradation where
  rate := ratio (notes.countP fun ns => !ns.isEmpty) notes.length
  kinds := Text.sortBy Prod.fst (Tally.ofList (notes.flatten.map noteKind))

def Degradation.toDatum (d : Degradation) : Datum :=
  .object [("degraded_rate", .float d.rate), ("by_kind", d.kinds.toDatum)]

def detailFields (cases : List Judged) : List (String × Datum) :=
  let wanted := cases.map Judged.wanted
  [("intent_metrics", (Accuracy.of wanted (cases.map Judged.given)).toDatum),
    ("coverage_metrics", (Coverage.of wanted (cases.map Judged.script)).toDatum),
    ("degradation_metrics", (Degradation.of (cases.map Judged.notes)).toDatum)]

end Scribe.Evaluation
