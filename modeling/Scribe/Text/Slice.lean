/-!
# Cutting, finding and replacing

Texts are cut at separators, and searched for a given piece from either end. Every
occurrence of a piece can be replaced by another, from the left and without overlap.
-/
namespace Scribe.Text

/-- The pieces between the occurrences of `sep`; at least one. -/
def splitAt (sep : Char) : List Char → List (List Char)
  | [] => [[]]
  | c :: r =>
    if c == sep then [] :: splitAt sep r
    else
      match splitAt sep r with
      | [] => [[c]]
      | piece :: pieces => (c :: piece) :: pieces

def lines (cs : List Char) : List (List Char) :=
  splitAt '\n' cs

def join (sep : List Char) (pieces : List (List Char)) : List Char :=
  sep.intercalate pieces

def joinLines (pieces : List (List Char)) : List Char :=
  join ['\n'] pieces

def find? (piece : List Char) : List Char → Option Nat
  | [] => if piece.isEmpty then some 0 else none
  | c :: r => if piece.isPrefixOf (c :: r) then some 0 else (find? piece r).map (· + 1)

def findLast? (piece : List Char) : List Char → Option Nat
  | [] => if piece.isEmpty then some 0 else none
  | c :: r =>
    match findLast? piece r with
    | some i => some (i + 1)
    | none => if piece.isPrefixOf (c :: r) then some 0 else none

/-- Replaces every occurrence of the non-empty `piece`, once `skip` characters are passed. -/
def replaceFrom (piece new : List Char) : (skip : Nat) → List Char → List Char
  | _, [] => []
  | skip + 1, _ :: r => replaceFrom piece new skip r
  | 0, c :: r =>
    if piece.isPrefixOf (c :: r) then new ++ replaceFrom piece new (piece.length - 1) r
    else c :: replaceFrom piece new 0 r

def replace (piece new cs : List Char) : List Char :=
  replaceFrom piece new 0 cs

def dropByteOrderMark : List Char → List Char
  | '\uFEFF' :: r => r
  | cs => cs

/-- A line ends at `\n`, at `\r\n` and at a `\r` that stands alone; all become `\n`. -/
def unifyLineEnds : List Char → List Char
  | [] => []
  | '\r' :: '\n' :: r => '\n' :: unifyLineEnds r
  | '\r' :: r => '\n' :: unifyLineEnds r
  | c :: r => c :: unifyLineEnds r

end Scribe.Text
