import Scribe.Decimal.Shortest

/-!
# The text of a number

Numbers are written with the fewest digits that read back: positionally from `0.0001` up to
sixteen digits before the point, and with an exponent of a sign and at least two digits beyond.
Fixed layouts round the exact value, a half going to the even neighbour.
-/
namespace Scribe.Decimal

structure Layout where
  least : Int
  most : Int
  exponentWidth : Nat
deriving DecidableEq, Repr

def plain : Layout := ⟨-4, 15, 2⟩

def padLeft (width : Nat) (c : Char) (cs : List Char) : List Char :=
  List.replicate (width - cs.length) c ++ cs

def natText (n : Nat) : List Char :=
  Nat.toDigits 10 n

def intText (n : Int) : List Char :=
  if n < 0 then '-' :: natText n.natAbs else natText n.natAbs

def withPoint (ds : List Char) (k : Nat) : List Char :=
  if ds.length ≤ k then ds ++ List.replicate (k - ds.length) '0' ++ ".0".toList
  else ds.take k ++ '.' :: ds.drop k

/-- Writes a decimal whose last digit is not zero, or zero itself. -/
def Layout.write (l : Layout) (d : Digits) : List Char :=
  let ds := natText d.digits
  let e : Int := d.exponent + ds.length - 1
  if l.least ≤ e && e ≤ l.most then
    if e < 0 then "0.".toList ++ List.replicate (-e - 1).toNat '0' ++ ds
    else withPoint ds (e.toNat + 1)
  else
    let point := if ds.length == 1 then ds else ds.take 1 ++ '.' :: ds.drop 1
    point ++ (if e < 0 then "e-".toList else "e+".toList) ++
      padLeft l.exponentWidth '0' (natText e.natAbs)

def Digits.stripped (d : Digits) : (fuel : Nat) → Digits
  | 0 => d
  | fuel + 1 =>
    if d.digits != 0 && d.digits % 10 == 0 then
      Digits.stripped ⟨d.digits / 10, d.exponent + 1⟩ fuel
    else d

def text (x : Float) : List Char :=
  if x.isNaN then "nan".toList
  else
    let sign := if isNegative x then ['-'] else []
    if x.isInf then sign ++ "inf".toList
    else
      let b := Binary.ofFloat x
      if b.mantissa == 0 then sign ++ "0.0".toList
      else sign ++ plain.write ((shortest b.mantissa b.exponent).stripped 20)

/-- All digits of a whole double; the sign of zero is not written. -/
def wholeText (x : Float) : List Char :=
  let b := Binary.ofFloat x
  let (num, den) := b.fraction
  intText (if b.negative then -((num / den : Nat) : Int) else (num / den : Nat))

def fixed (places : Nat) (x : Float) : List Char :=
  if x.isNaN then "nan".toList
  else
    let sign := if isNegative x then ['-'] else []
    if x.isInf then sign ++ "inf".toList
    else
      let (num, den) := (Binary.ofFloat x).fraction
      let ds := padLeft (places + 1) '0' (natText (roundDiv (num * pow10 places) den))
      let whole := ds.take (ds.length - places)
      sign ++ if places == 0 then whole else whole ++ '.' :: ds.drop (ds.length - places)

end Scribe.Decimal
