import Scribe.Decimal.Binary
import Scribe.Text.Blank
import Scribe.Text.DecimalDigit

/-!
# Reading numbers

A numeral has a sign, digits of any script with a point among them, and an exponent; single
underscores may stand between digits. Its value is the double nearest to what it says.
-/
namespace Scribe.Decimal

def ofDecimal (negative : Bool) (digits : Nat) (exponent : Int) : Float :=
  let size : Int := (Nat.toDigits 10 digits).length + exponent
  let magnitude : Float :=
    if digits == 0 || size < -330 then 0.0
    else if 320 < size then 1.0 / 0.0
    else nearest false (digits * pow10 exponent.toNat) (pow10 (-exponent).toNat)
  if negative then -magnitude else magnitude

def takeSign : List Char → Bool × List Char
  | '-' :: r => (true, r)
  | '+' :: r => (false, r)
  | r => (false, r)

/-- The digits at the front, an underscore being passed over between two of them. -/
def takeDigits (afterDigit : Bool) : List Char → List Char × List Char
  | [] => ([], [])
  | c :: r =>
    if Text.isDigit c then
      let (ds, rest) := takeDigits true r
      (c :: ds, rest)
    else if c == '_' && afterDigit && r.head?.any Text.isDigit then takeDigits false r
    else ([], c :: r)

def exponent? : List Char → Option Int
  | [] => some 0
  | c :: r =>
    if c == 'e' || c == 'E' then
      let (negative, r) := takeSign r
      let (ds, rest) := takeDigits false r
      if ds.isEmpty || !rest.isEmpty then none
      else
        let n : Int := Text.numberOfDigits ds
        some (if negative then -n else n)
    else none

def magnitude? (negative : Bool) (cs : List Char) : Option Float :=
  let (whole, rest) := takeDigits false cs
  let (part, rest) :=
    match rest with
    | '.' :: r => takeDigits false r
    | _ => ([], rest)
  if whole.isEmpty && part.isEmpty then none
  else
    (exponent? rest).map fun e =>
      ofDecimal negative (Text.numberOfDigits (whole ++ part)) (e - part.length)

/-- What may stand around a numeral: any blank but the ASCII separators. -/
def isPadding (c : Char) : Bool :=
  Text.isBlank c && !('\x1C' ≤ c && c ≤ '\x1F')

def unpadded (cs : List Char) : List Char :=
  Text.trimWhile isPadding cs

def read? (cs : List Char) : Option Float :=
  let (negative, r) := takeSign (unpadded cs)
  let word := String.ofList (r.map Char.toLower)
  if word == "inf" || word == "infinity" then some (if negative then -(1.0 / 0.0) else 1.0 / 0.0)
  else if word == "nan" then some (0.0 / 0.0)
  else magnitude? negative r

def readInt? (cs : List Char) : Option Int :=
  let (negative, r) := takeSign (unpadded cs)
  let (ds, rest) := takeDigits false r
  if ds.isEmpty || !rest.isEmpty then none
  else
    let n : Int := Text.numberOfDigits ds
    some (if negative then -n else n)

end Scribe.Decimal
