import Scribe.Decimal.Binary

/-!
# The fewest digits that read back

A positive double is the only double in an interval of reals around it: those that are rounded to
it. Its text uses the shortest decimal in that interval and, of several with as many digits, the
one nearest to it. The ends belong to the interval exactly if the mantissa is even.
-/
namespace Scribe.Decimal

structure Digits where
  digits : Nat
  exponent : Int
deriving DecidableEq, Repr

/-- `a * 2 ^ p` against `b * 10 ^ q`. -/
def compareScaled (a : Nat) (p : Int) (b : Nat) (q : Int) : Ordering :=
  compare (a * pow2 p.toNat * pow10 (-q).toNat) (b * pow10 q.toNat * pow2 (-p).toNat)

/-- The least `k` with `num / den < 10 ^ k`, for a positive fraction. -/
def magnitude (num den : Nat) : Int :=
  let guess := ((num.log2 : Int) - (den.log2 : Int)) * 30103 / 100000
  let below (k : Int) : Bool := num * pow10 (-k).toNat < den * pow10 k.toNat
  if below (guess - 1) then guess - 1
  else if below guess then guess
  else if below (guess + 1) then guess + 1
  else guess + 2

/-- The ends of the interval that is rounded to `m * 2 ^ q`, in units of `2 ^ (q - 2)`. -/
def interval (m : Nat) (q : Int) : Nat × Nat :=
  (if m == pow2 52 && -1074 < q then 4 * m - 1 else 4 * m - 2, 4 * m + 2)

def readsBack (m : Nat) (q : Int) (d : Nat) (p : Int) : Bool :=
  let (lo, hi) := interval m q
  let above := compareScaled lo (q - 2) d p
  let below := compareScaled hi (q - 2) d p
  if m % 2 == 0 then above != .gt && below != .lt else above == .lt && below == .gt

/-- The nearer neighbour of `m * 2 ^ q` on the grid `10 ^ p` that reads back. -/
def onGrid? (m : Nat) (q : Int) (p : Int) : Option Digits :=
  let (num, den) := Binary.fraction ⟨false, m, q⟩
  let n := num * pow10 (-p).toNat
  let d := den * pow10 p.toNat
  let low := n / d
  let rest := 2 * (n % d)
  let upper := if rest == d then low % 2 == 1 else d < rest
  let first := if upper then low + 1 else low
  let second := if upper then low else low + 1
  if readsBack m q first p then some ⟨first, p⟩
  else if readsBack m q second p then some ⟨second, p⟩
  else none

/-- Tries the grids of `count` digits and more, as far as seventeen. -/
def shortestFrom (m : Nat) (q : Int) (k : Int) : (tries : Nat) → (count : Nat) → Digits
  | 0, count => (onGrid? m q (k - count)).getD ⟨0, 0⟩
  | tries + 1, count =>
    match onGrid? m q (k - count) with
    | some d => d
    | none => shortestFrom m q k tries (count + 1)

def shortest (m : Nat) (q : Int) : Digits :=
  let (num, den) := Binary.fraction ⟨false, m, q⟩
  shortestFrom m q (magnitude num den) 16 1

end Scribe.Decimal
