import Scribe.Datum
import Scribe.Decimal.Numeral

/-!
# Reading data files

Data files are written in JSON, with `NaN`, `Infinity` and `-Infinity` besides. Of fields with
one name the last value counts, at the place of the first. A fault names the position of the
character that cannot stand there. Lists and objects may nest to any depth: a limit on the depth of
recursion is not modelled.
-/
namespace Scribe.Datum

inductive Cause where
  | value
  | propertyName
  | colon
  | comma
  | extra
  | unterminated
  | control
  | escape
  | unicodeEscape
  | byteOrderMark
  /-- A whole number of more digits than are read. -/
  | tooManyDigits (count : Nat)
deriving DecidableEq, Repr

def mostDigits : Nat := 4300

def Cause.text : Cause → String
  | value => "Expecting value"
  | propertyName => "Expecting property name enclosed in double quotes"
  | colon => "Expecting ':' delimiter"
  | comma => "Expecting ',' delimiter"
  | extra => "Extra data"
  | unterminated => "Unterminated string starting at"
  | control => "Invalid control character at"
  | escape => "Invalid \\escape"
  | unicodeEscape => "Invalid \\uXXXX escape"
  | byteOrderMark => "Unexpected UTF-8 BOM (decode using utf-8-sig)"
  | tooManyDigits count =>
    s!"Exceeds the limit ({mostDigits} digits) for integer string conversion: value has " ++
      s!"{count} digits; use sys.set_int_max_str_digits() to increase the limit"

structure Fault where
  cause : Cause
  position : Nat
deriving DecidableEq, Repr

/-- The message for a fault in a text: its line, its column and its position. That a number is too
long is said of the number alone. -/
def Fault.message (f : Fault) (source : List Char) : String :=
  let before := source.take f.position
  let line := before.count '\n' + 1
  let column := (before.reverse.takeWhile (· != '\n')).length + 1
  match f.cause with
  | .tooManyDigits _ => f.cause.text
  | _ => s!"{f.cause.text}: line {line} column {column} (char {f.position})"

structure Place where
  position : Nat
  rest : List Char

def Place.advance (p : Place) (n : Nat) : Place :=
  ⟨p.position + n, p.rest.drop n⟩

def isSpace (c : Char) : Bool :=
  c == ' ' || c == '\t' || c == '\n' || c == '\r'

def Place.skipSpace (p : Place) : Place :=
  p.advance (p.rest.takeWhile isSpace).length

abbrev Read (α : Type) := Except Fault (α × Place)

def hexValue? (c : Char) : Option Nat :=
  if '0' ≤ c && c ≤ '9' then some (c.toNat - 48)
  else if 'a' ≤ c && c ≤ 'f' then some (c.toNat - 87)
  else if 'A' ≤ c && c ≤ 'F' then some (c.toNat - 55)
  else none

def hexCode? (cs : List Char) : Option Nat :=
  match cs.mapM hexValue? with
  | some [a, b, c, d] => some (((a * 16 + b) * 16 + c) * 16 + d)
  | _ => none

def simpleEscape? : Char → Option Char
  | '"' => some '"'
  | '\\' => some '\\'
  | '/' => some '/'
  | 'b' => some '\x08'
  | 'f' => some '\x0c'
  | 'n' => some '\n'
  | 'r' => some '\r'
  | 't' => some '\t'
  | _ => none

/-- An escape by code, whose `u` stands at `p`: the code point, and how much it takes from the `u`
on. A pair of surrogates is one character; any other surrogate stands for itself. -/
def readCode (p : Place) : Except Fault (CodePoint × Nat) :=
  let digits := (p.rest.drop 1).take 4
  -- a character must follow the digits
  if p.rest.length < 6 then .error ⟨.unicodeEscape, p.position⟩
  else
    match hexCode? digits with
    | none => .error ⟨.unicodeEscape, p.position⟩
    | some high =>
      let after := p.rest.drop 5
      if 0xD800 ≤ high && high < 0xDC00 && 6 < after.length && after.take 2 == ['\\', 'u'] then
        match hexCode? ((after.drop 2).take 4) with
        | none => .error ⟨.unicodeEscape, p.position + 6⟩
        | some low =>
          if 0xDC00 ≤ low && low < 0xE000 then
            .ok (.char (Char.ofNat (0x10000 + (high - 0xD800) * 0x400 + (low - 0xDC00))), 11)
          else .ok (.ofCode high, 5)
      else .ok (.ofCode high, 5)

/-- The rest of a string that was opened at `start`, once `skip` characters are passed. -/
def readStringFrom (start : Nat) (position : Nat) : (skip : Nat) → List Char → Read CodePoints
  | _, [] => .error ⟨.unterminated, start⟩
  | skip + 1, _ :: r => readStringFrom start (position + 1) skip r
  | 0, c :: r =>
    let more (x : CodePoint) (skip : Nat) : Read CodePoints :=
      (readStringFrom start (position + 1) skip r).map fun (cs, p) => (x :: cs, p)
    if c == '"' then .ok ([], ⟨position + 1, r⟩)
    else if c == '\\' then
      match r with
      | [] => .error ⟨.unterminated, start⟩
      | 'u' :: _ =>
        match readCode ⟨position + 1, r⟩ with
        | .error f => .error f
        | .ok (x, n) => more x n
      | e :: _ =>
        match simpleEscape? e with
        | some x => more (.char x) 1
        | none => .error ⟨.escape, position⟩
    else if c.toNat < 0x20 then .error ⟨.control, position⟩
    else more (.char c) 0

def readText (p : Place) : Read CodePoints :=
  readStringFrom p.position (p.position + 1) 0 p.rest.tail

def wordValues : List (String × RawDatum) :=
  [("null", .null), ("true", .bool true), ("false", .bool false), ("NaN", .float (0.0 / 0.0)),
    ("Infinity", .float (1.0 / 0.0)), ("-Infinity", .float (-(1.0 / 0.0)))]

/-- A number, if there is one: its sign and digits, and what follows them. -/
def readNumber? (p : Place) : Option (Read RawDatum) :=
  let isDigit (c : Char) : Bool := c.isDigit
  let negative := p.rest.head? == some '-'
  let cs := if negative then p.rest.tail else p.rest
  let whole := if cs.head? == some '0' then ['0'] else cs.takeWhile isDigit
  if whole.isEmpty then none
  else
    let rest := cs.drop whole.length
    let part :=
      match rest with
      | '.' :: r => r.takeWhile isDigit
      | _ => []
    let rest := if part.isEmpty then rest else rest.drop (part.length + 1)
    let power :=
      match rest with
      | e :: r =>
        if e == 'e' || e == 'E' then
          let sign := (r.take 1).filter fun c => c == '-' || c == '+'
          let digits := (r.drop sign.length).takeWhile isDigit
          if digits.isEmpty then [] else e :: sign ++ digits
        else []
      | [] => []
    let width := p.rest.length - rest.length + power.length
    if part.isEmpty && power.isEmpty then
      let n : Int := Text.numberOfDigits whole
      if mostDigits < whole.length then some (.error ⟨.tooManyDigits whole.length, p.position⟩)
      else some (.ok (.int (if negative then -n else n), p.advance width))
    else some (.ok (.float ((Decimal.read? (p.rest.take width)).getD 0.0), p.advance width))

def readScalar (p : Place) : Read RawDatum :=
  match wordValues.find? fun (word, _) => word.toList.isPrefixOf p.rest with
  | some (word, value) => .ok (value, p.advance word.length)
  | none =>
    match readNumber? p with
    | some found => found
    | none => .error ⟨.value, p.position⟩

mutual

/-- A datum at `p`; `depth` bounds how much is read. -/
def readValue : (depth : Nat) → Place → Read RawDatum
  | 0, p => .error ⟨.value, p.position⟩
  | depth + 1, p =>
    match p.rest with
    | '"' :: _ => (readText p).map fun (s, q) => (.text s, q)
    | '\x7b' :: _ =>
      let p := (p.advance 1).skipSpace
      if p.rest.head? == some '\x7d' then .ok (.object [], p.advance 1)
      else (readFields depth [] p).map fun (fields, q) => (.object fields, q)
    | '[' :: _ =>
      let p := (p.advance 1).skipSpace
      if p.rest.head? == some ']' then .ok (.list [], p.advance 1)
      else (readItems depth p).map fun (items, q) => (.list items, q)
    | _ => readScalar p

def readItems : (depth : Nat) → Place → Read (List RawDatum)
  | 0, p => .error ⟨.value, p.position⟩
  | depth + 1, p =>
    match readValue depth p with
    | .error f => .error f
    | .ok (d, p) =>
      let p := p.skipSpace
      if p.rest.head? == some ']' then .ok ([d], p.advance 1)
      else if p.rest.head? == some ',' then
        (readItems depth (p.advance 1).skipSpace).map fun (items, q) => (d :: items, q)
      else .error ⟨.comma, p.position⟩

def readFields : (depth : Nat) → List (CodePoints × RawDatum) → Place →
    Read (List (CodePoints × RawDatum))
  | 0, _, p => .error ⟨.value, p.position⟩
  | depth + 1, fields, p =>
    if p.rest.head? != some '"' then .error ⟨.propertyName, p.position⟩
    else
      match readText p with
      | .error f => .error f
      | .ok (name, p) =>
        let p := p.skipSpace
        if p.rest.head? != some ':' then .error ⟨.colon, p.position⟩
        else
          match readValue depth (p.advance 1).skipSpace with
          | .error f => .error f
          | .ok (d, p) =>
            let fields := setField name d fields
            let p := p.skipSpace
            if p.rest.head? == some '\x7d' then .ok (fields, p.advance 1)
            else if p.rest.head? == some ',' then readFields depth fields (p.advance 1).skipSpace
            else .error ⟨.comma, p.position⟩

end

def read (source : List Char) : Except Fault RawDatum :=
  if source.head? == some '\uFEFF' then .error ⟨.byteOrderMark, 0⟩
  else
    match readValue (2 * source.length + 2) (Place.mk 0 source).skipSpace with
    | .error f => .error f
    | .ok (d, p) =>
      let p := p.skipSpace
      if p.rest.isEmpty then .ok d else .error ⟨.extra, p.position⟩

end Scribe.Datum
