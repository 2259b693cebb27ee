import Scribe.Decimal.Layout
import Scribe.Decimal.Numeral
import Scribe.Text.Lowercase

/-!
# Values

A variable holds a number, a text, a truth value or nothing. A text that reads as a number takes
part in arithmetic and comparison as that number.
-/
namespace Scribe

inductive Value where
  | number (x : Float)
  | text (s : String)
  | bool (b : Bool)
  | null
deriving DecidableEq, Inhabited

namespace Value
open Text

def display : Value → String
  | number x =>
    if x.isNaN then "NaN"
    else String.ofList (if Decimal.isWhole x then Decimal.wholeText x else Decimal.text x)
  | text s => s
  | bool true => "true"
  | bool false => "false"
  | null => "null"

/-- A sign, digits with a point among them and an exponent: what a text must be to be a number. -/
def isNumeral (cs : List Char) : Bool :=
  let r := (Decimal.takeSign cs).2
  let whole := r.takeWhile isDigit
  let rest := r.dropWhile isDigit
  let (part, rest) :=
    match rest with
    | '.' :: r => (r.takeWhile isDigit, r.dropWhile isDigit)
    | _ => ([], rest)
  let ending :=
    match rest with
    | [] => true
    | c :: r =>
      let digits := (Decimal.takeSign r).2
      (c == 'e' || c == 'E') && !digits.isEmpty && digits.all isDigit
  !(whole.isEmpty && part.isEmpty) && ending

def toNumber? : Value → Option Float
  | number x => some x
  | text s =>
    let cs := trim s.toList
    if isNumeral cs then Decimal.read? cs else none
  | bool _ => none
  | null => none

/-- What texts are compared by: case and blanks around them do not count. -/
def fold (v : Value) : String :=
  String.ofList (lower (trim v.display.toList))

def truthy : Value → Bool
  | number x => x != 0.0 && !x.isNaN
  | text s =>
    let cs := lower (trim s.toList)
    !cs.isEmpty && cs != "false".toList
  | bool b => b
  | null => false

end Value
end Scribe
