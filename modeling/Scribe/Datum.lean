import Scribe.Decimal.Layout
import Scribe.Text.CodePoints

/-!
# Data

A datum is what a data file holds: nothing, a truth value, a whole number of any size, a double,
a text, a list, or an object whose fields keep their order. In a file, texts are rows of code
points; elsewhere they are texts of characters.
-/
namespace Scribe

/-- Data whose texts are in `τ`. -/
inductive Datum (τ : Type := String) where
  | null
  | bool (b : Bool)
  | int (n : Int)
  | float (x : Float)
  | text (s : τ)
  | list (items : List (Datum τ))
  | object (fields : List (τ × Datum τ))
deriving Inhabited

/-- Data as a file holds it. -/
abbrev RawDatum := Datum CodePoints

namespace Datum
variable {τ : Type}

inductive Kind where
  | null
  | bool
  | int
  | float
  | text
  | list
  | object
deriving DecidableEq, Repr

def Kind.name : Kind → String
  | null => "NoneType"
  | bool => "bool"
  | int => "int"
  | float => "float"
  | text => "str"
  | list => "list"
  | object => "dict"

def kind : Datum τ → Kind
  | null => .null
  | bool _ => .bool
  | int _ => .int
  | float _ => .float
  | text _ => .text
  | list _ => .list
  | object _ => .object

def field? [BEq τ] (fields : List (τ × Datum τ)) (name : τ) : Option (Datum τ) :=
  fields.lookup name

/-- Sets a field; a field that is there keeps its place. -/
def setField [BEq τ] (name : τ) (value : Datum τ) : List (τ × Datum τ) → List (τ × Datum τ)
  | [] => [(name, value)]
  | (n, v) :: r => if n == name then (n, value) :: r else (n, v) :: setField name value r

def intString (n : Int) : String :=
  String.ofList (Decimal.intText n)

def floatString (x : Float) : String :=
  String.ofList (Decimal.text x)

section Inspect
variable (quoted : τ → String)

mutual

def inspect : Datum τ → String
  | null => "None"
  | bool true => "True"
  | bool false => "False"
  | int n => intString n
  | float x => floatString x
  | text s => quoted s
  | list items => "[" ++ ", ".intercalate (inspectItems items) ++ "]"
  | object fields => "\x7b" ++ ", ".intercalate (inspectFields fields) ++ "\x7d"

def inspectItems : List (Datum τ) → List String
  | [] => []
  | d :: r => inspect d :: inspectItems r

def inspectFields : List (τ × Datum τ) → List String
  | [] => []
  | (name, d) :: r => (quoted name ++ ": " ++ inspect d) :: inspectFields r

end

end Inspect

def display : Datum → String
  | text s => s
  | d => d.inspect Text.quoted

end Datum

namespace RawDatum

def display : RawDatum → CodePoints
  | .text s => s
  | d => d.inspect CodePoints.quoted

mutual

/-- The datum with plain texts, if they can all be so. -/
def plain? : RawDatum → Option Datum
  | .null => some .null
  | .bool b => some (.bool b)
  | .int n => some (.int n)
  | .float x => some (.float x)
  | .text s => s.text?.map .text
  | .list items => (plainItems? items).map .list
  | .object fields => (plainFields? fields).map .object

def plainItems? : List RawDatum → Option (List Datum)
  | [] => some []
  | d :: r => do return (← plain? d) :: (← plainItems? r)

def plainFields? : List (CodePoints × RawDatum) → Option (List (String × Datum))
  | [] => some []
  | (name, d) :: r => do return (← name.text?, ← plain? d) :: (← plainFields? r)

end

end RawDatum
end Scribe
