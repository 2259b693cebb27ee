import Scribe.Datum

/-!
# Writing data files

Data is written as JSON, two spaces deeper for each level. Characters beyond ASCII stand as they
are; quotes, backslashes and controls are escaped.
-/
namespace Scribe.Datum

def escapeChar (c : Char) : List Char :=
  if c == '"' then ['\\', '"']
  else if c == '\\' then ['\\', '\\']
  else if c == '\n' then ['\\', 'n']
  else if c == '\r' then ['\\', 'r']
  else if c == '\t' then ['\\', 't']
  else if c == '\x08' then ['\\', 'b']
  else if c == '\x0c' then ['\\', 'f']
  else if c.toNat < 0x20 then '\\' :: 'u' :: Text.hex 4 c.toNat
  else [c]

def writeText (s : String) : String :=
  String.ofList ('"' :: s.toList.flatMap escapeChar ++ ['"'])

def writeFloat (x : Float) : String :=
  if x.isNaN then "NaN"
  else if x.isInf then (if x < 0.0 then "-Infinity" else "Infinity")
  else floatString x

def lineBreak (depth : Nat) : String :=
  String.ofList ('\n' :: List.replicate (2 * depth) ' ')

mutual

def writeAt (depth : Nat) : Datum → String
  | null => "null"
  | bool true => "true"
  | bool false => "false"
  | int n => intString n
  | float x => writeFloat x
  | text s => writeText s
  | list [] => "[]"
  | list items =>
    let sep := "," ++ lineBreak (depth + 1)
    "[" ++ lineBreak (depth + 1) ++ sep.intercalate (writeItems (depth + 1) items) ++
      lineBreak depth ++ "]"
  | object [] => "\x7b\x7d"
  | object fields =>
    let sep := "," ++ lineBreak (depth + 1)
    "\x7b" ++ lineBreak (depth + 1) ++ sep.intercalate (writeFields (depth + 1) fields) ++
      lineBreak depth ++ "\x7d"

def writeItems (depth : Nat) : List Datum → List String
  | [] => []
  | d :: r => writeAt depth d :: writeItems depth r

def writeFields (depth : Nat) : List (String × Datum) → List String
  | [] => []
  | (name, d) :: r => (writeText name ++ ": " ++ writeAt depth d) :: writeFields depth r

end

def write (d : Datum) : String :=
  writeAt 0 d

end Scribe.Datum
