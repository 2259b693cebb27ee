/-!
# Doubles as exact numbers

A finite double is a natural number times a power of two, with a sign. Every rule about its text
is stated on that number, and no digit is ever computed in floating point.
-/
namespace Scribe.Decimal

def pow2 (n : Nat) : Nat := Nat.pow 2 n

def pow10 (n : Nat) : Nat := Nat.pow 10 n

/-- A finite double: `mantissa * 2 ^ exponent`, negated if `negative`. -/
structure Binary where
  negative : Bool
  mantissa : Nat
  exponent : Int
deriving DecidableEq, Repr

def isNegative (x : Float) : Bool :=
  x.toBits.toNat / pow2 63 == 1

def Binary.ofFloat (x : Float) : Binary :=
  let bits : Nat := x.toBits.toNat
  let fraction : Nat := bits % pow2 52
  let scale : Nat := bits / pow2 52 % pow2 11
  if scale == 0 then ⟨isNegative x, fraction, -1074⟩
  else ⟨isNegative x, fraction + pow2 52, (scale : Int) - 1075⟩

def Binary.fraction (b : Binary) : Nat × Nat :=
  if 0 ≤ b.exponent then (b.mantissa * pow2 b.exponent.toNat, 1)
  else (b.mantissa, pow2 (-b.exponent).toNat)

/-- The exponent that scales `num / den` to 53 bits, or that of the smallest doubles. -/
def scaleOf (num den : Nat) : Int :=
  let size : Int := (num.log2 : Int) - (den.log2 : Int)
  let guess := size - 53
  let fits : Bool := if 0 ≤ guess then num < pow2 53 * (den * pow2 guess.toNat)
    else num * pow2 (-guess).toNat < pow2 53 * den
  max (-1074) (if fits then guess else guess + 1)

/-- `num / den` to the nearest whole number, a half going to the even one. -/
def roundDiv (num den : Nat) : Nat :=
  let q := num / den
  let r := 2 * (num % den)
  if den < r || (r == den && q % 2 == 1) then q + 1 else q

def roundAt (num den : Nat) (e : Int) : Nat :=
  if 0 ≤ e then roundDiv num (den * pow2 e.toNat) else roundDiv (num * pow2 (-e).toNat) den

/-- The bits of `m * 2 ^ e`, without a sign; `m` has 53 bits or is `2 ^ 53`, or `e` is that of the
smallest doubles. -/
def packed (m : Nat) (e : Int) : Nat :=
  let (m, e) := if m == pow2 53 then (pow2 52, e + 1) else (m, e)
  if m < pow2 52 then m
  else if 971 < e then 0x7FF * pow2 52
  else (e + 1075).toNat * pow2 52 + (m - pow2 52)

/-- The double nearest to `num / den`, a half going to the even neighbour; `den` is positive. -/
def nearest (negative : Bool) (num den : Nat) : Float :=
  let e := scaleOf num den
  let bits := packed (roundAt num den e) e
  Float.ofBits (UInt64.ofNat (bits + if negative then pow2 63 else 0))

def isWhole (x : Float) : Bool :=
  x.isFinite && (let (num, den) := (Binary.ofFloat x).fraction; num % den == 0)

/-- The remainder of `x / y` with the sign of `x`, exactly; `x` is finite and `y` is not zero. -/
def remainder (x y : Float) : Float :=
  if x.isNaN || y.isNaN then 0.0 / 0.0
  else if y.isInf then x
  else
    let a := Binary.ofFloat x
    let b := Binary.ofFloat y
    let e := min a.exponent b.exponent
    let m := a.mantissa * pow2 (a.exponent - e).toNat
    let n := b.mantissa * pow2 (b.exponent - e).toNat
    let (num, den) := Binary.fraction ⟨false, m % n, e⟩
    nearest a.negative num den

end Scribe.Decimal
