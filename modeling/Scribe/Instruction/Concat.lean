import Scribe.Instruction.Quotes
import Scribe.Text.Slice

/-!
# Concatenation

Terms stand between `+` signs; a quote shields the signs inside it and is closed only by the same
quote.
-/
namespace Scribe.Instruction
open Text Pattern

/-- The pieces between the `+` signs outside quotes; `mark` is the quote that is open. -/
def piecesFrom : (mark : Option Char) → List Char → List (List Char)
  | _, [] => [[]]
  | mark, c :: r =>
    let continued (mark : Option Char) : List (List Char) :=
      match piecesFrom mark r with
      | [] => [[c]]
      | piece :: pieces => (c :: piece) :: pieces
    match mark with
    | some q => continued (if c == q then none else some q)
    | none =>
      if isQuote c then continued (some c)
      else if c == '+' then [] :: piecesFrom none r
      else continued none

def splitTerms (cs : List Char) : List (List Char) :=
  ((piecesFrom none cs).map trim).filter (!·.isEmpty)

def termExpr (cs : List Char) : List Char :=
  let t := trim cs
  if isWrapped t then Script.quote (inner t)
  else if isNumber t || isVariable t then t
  else Script.quote (payload t)

def spacedLabel? (label value : List Char) : Option (List Char) :=
  let label := trim label
  if isWrapped label && isVariable (trim value) then
    let text := inner label
    if !text.isEmpty && text.getLast? != some ' ' then some (Script.quote (text ++ [' '])) else none
  else none

def concatExpr (terms : List (List Char)) : List Char :=
  let rendered := terms.map termExpr
  let rendered :=
    match terms with
    | [label, value] =>
      match spacedLabel? label value with
      | some first => [first, termExpr value]
      | none => rendered
    | _ => rendered
  join " + ".toList rendered

end Scribe.Instruction
