import Scribe.Decimal.Binary

/-!
# Statistics of durations

The mean is exact and rounded once. Median and ninetieth percentile are taken from the sorted
list; the percentile lies between two neighbours, or beyond the last two when there are few.
Numbers are sorted by putting each one into the sorted ones before it, where the place is found
by halving. What is no number is less than nothing.
-/
namespace Scribe.Evaluation

/-- The place for `x` among the entries from `lo` up to `hi`, behind those that it equals. -/
def placeFor (sorted : Array Float) (x : Float) (lo hi : Nat) : Nat :=
  if lo < hi then
    let mid := (lo + hi) / 2
    if x < sorted.getD mid 0.0 then placeFor sorted x lo mid else placeFor sorted x (mid + 1) hi
  else lo
termination_by hi - lo

def insertNumber (sorted : List Float) (x : Float) : List Float :=
  let place := placeFor sorted.toArray x 0 sorted.length
  sorted.take place ++ x :: sorted.drop place

/-- The longest front in which no entry has a lesser one right behind it, or the longest one that
falls throughout, turned around; and the rest. -/
def firstRun : List Float → List Float × List Float
  | [] => ([], [])
  | x :: rest =>
    let falls := match rest with
      | y :: _ => y < x
      | [] => false
    let (run, rest) := extend falls [x] x rest
    (if falls then run else run.reverse, rest)
where
  /-- Goes on with a run, which is collected backwards. -/
  extend (falls : Bool) (run : List Float) (last : Float) : List Float → List Float × List Float
    | [] => (run, [])
    | y :: rest =>
      if decide (y < last) == falls then extend falls (y :: run) y rest else (run, y :: rest)

def sortNumbers (xs : List Float) : List Float :=
  let (run, rest) := firstRun xs
  rest.foldl insertNumber run

/-- A finite double as a multiple of the least positive one. -/
def units (x : Float) : Int :=
  let b := Decimal.Binary.ofFloat x
  let n : Int := b.mantissa * Decimal.pow2 (b.exponent + 1074).toNat
  if b.negative then -n else n

def isFinite (x : Float) : Bool := !x.isNaN && !x.isInf

/-- The exact mean, rounded once; numbers that are not finite are added as they come. -/
def mean (xs : List Float) : Float :=
  let wild := xs.filter (!isFinite ·)
  match wild with
  | x :: rest => rest.foldl (· + ·) x / xs.length.toFloat
  | [] =>
    let sum := (xs.map units).foldl (· + ·) 0
    Decimal.nearest (decide (sum < 0)) sum.natAbs (xs.length * Decimal.pow2 1074)

def median (sorted : List Float) : Float :=
  let n := sorted.length
  let entry (i : Nat) : Float := sorted[i]?.getD 0.0
  if n % 2 == 1 then entry (n / 2) else (entry (n / 2 - 1) + entry (n / 2)) / 2.0

/-- The ninth of the nine cuts that divide the sorted list, two entries at least, into ten. -/
def ninthDecile (sorted : List Float) : Float :=
  let n := sorted.length
  let entry (i : Nat) : Float := sorted[i]?.getD 0.0
  let cut := 9 * (n + 1)
  let j := max 1 (min (cut / 10) (n - 1))
  let d : Int := (cut : Int) - 10 * j
  (entry (j - 1) * Float.ofInt (10 - d) + entry j * Float.ofInt d) / 10.0

/-- The first entry that no later one exceeds. -/
def largest (first : Float) (rest : List Float) : Float :=
  rest.foldl (fun m x => if m < x then x else m) first

structure Durations where
  median : Float := 0.0
  ninthDecile : Float := 0.0
  mean : Float := 0.0
  largest : Float := 0.0

def Durations.of : List Float → Durations
  | [] => {}
  | [x] => ⟨x, x, x, x⟩
  | x :: rest =>
    let sorted := sortNumbers (x :: rest)
    { median := Evaluation.median sorted, ninthDecile := Evaluation.ninthDecile sorted,
      mean := Evaluation.mean (x :: rest), largest := Evaluation.largest x rest }

end Scribe.Evaluation
