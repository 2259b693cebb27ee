import Scribe.Evaluation.Tally
import Scribe.Text.Order

/-!
# Accuracy of intents

For each intent the pairs of a wanted and a given one tell how many of the given are wanted
(precision) and how many of the wanted are given (sensitivity); F1 is their harmonic mean.
-/
namespace Scribe.Evaluation

structure ClassScore where
  intent : String
  precision : Float
  sensitivity : Float
  f1 : Float

structure Accuracy where
  overall : Float
  classes : List ClassScore
  meanF1 : Float

def harmonicMean (a b : Float) : Float :=
  if 0.0 < a + b then 2.0 * a * b / (a + b) else 0.0

def total (xs : List Float) : Float :=
  xs.foldl (· + ·) 0.0

def ClassScore.ofPairs (pairs : List (String × String)) (intent : String) : ClassScore :=
  let both := pairs.countP fun (wanted, given) => wanted == intent && given == intent
  let onlyGiven := pairs.countP fun (wanted, given) => wanted != intent && given == intent
  let onlyWanted := pairs.countP fun (wanted, given) => wanted == intent && given != intent
  let precision := ratio both (both + onlyGiven)
  let sensitivity := ratio both (both + onlyWanted)
  ⟨intent, precision, sensitivity, harmonicMean precision sensitivity⟩

def Accuracy.of (wanted given : List String) : Accuracy :=
  let pairs := wanted.zip given
  let classes := (Text.sortedSet (wanted ++ given)).map (ClassScore.ofPairs pairs)
  { overall := ratio (pairs.countP fun (w, g) => w == g) wanted.length
    classes
    meanF1 := if classes.isEmpty then 0.0 else
      total (classes.map ClassScore.f1) / classes.length.toFloat }

def ClassScore.fields (c : ClassScore) : List (String × Datum) :=
  [(c.intent ++ "_precision", .float c.precision), (c.intent ++ "_recall", .float c.sensitivity),
    (c.intent ++ "_f1", .float c.f1)]

def Accuracy.toDatum (a : Accuracy) : Datum :=
  .object (Datum.setField "macro_f1" (.float a.meanF1)
    (("intent_accuracy", .float a.overall) :: a.classes.flatMap ClassScore.fields))

end Scribe.Evaluation
