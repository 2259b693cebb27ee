import Scribe.Text.Slice

/-!
# Tables

A table is written with commas between fields and a line end behind each row. A field that holds
a comma, a quote or a line end stands in quotes, and a quote in it is written twice.
-/
namespace Scribe.Evaluation

abbrev Row := List (List Char)

namespace Row

def needsQuotes (field : List Char) : Bool :=
  field.any fun c => c == ',' || c == '"' || c == '\n'

def doubled : List Char → List Char
  | [] => []
  | c :: r => if c == '"' then '"' :: '"' :: doubled r else c :: doubled r

def writeField (field : List Char) : List Char :=
  if needsQuotes field then '"' :: doubled field ++ ['"'] else field

def write (row : Row) : List Char :=
  Text.join [','] (row.map writeField) ++ ['\n']

end Row

abbrev Table := List Row

namespace Table

def write (t : Table) : List Char :=
  t.flatMap Row.write

inductive Place where
  | rowStart
  | fieldStart
  | plain
  | quoted
  | afterQuote
deriving DecidableEq, Repr

/-- The finished rows, the fields of the row under way and the field under way, all backwards. -/
structure Progress where
  rows : List Row := []
  fields : List (List Char) := []
  field : List Char := []
  place : Place := .rowStart

namespace Progress

def endField (p : Progress) : Progress :=
  { p with fields := p.field.reverse :: p.fields, field := [], place := .fieldStart }

def endRow (p : Progress) : Progress :=
  if p.place == .rowStart then { p with rows := [] :: p.rows }
  else
    let p := p.endField
    { p with rows := p.fields.reverse :: p.rows, fields := [], place := .rowStart }

def keep (p : Progress) (c : Char) (place : Place) : Progress :=
  { p with field := c :: p.field, place }

def step (p : Progress) (c : Char) : Progress :=
  match p.place, c with
  | .quoted, '"' => { p with place := .afterQuote }
  | .quoted, c => p.keep c .quoted
  | .rowStart, '"' | .fieldStart, '"' => { p with place := .quoted }
  | .afterQuote, '"' => p.keep '"' .quoted
  | _, ',' => p.endField
  | _, '\n' => p.endRow
  | _, c => p.keep c .plain

end Progress

def read (cs : List Char) : Table :=
  let p := cs.foldl Progress.step {}
  (if p.place == .rowStart then p else p.endRow).rows.reverse

end Table
end Scribe.Evaluation
