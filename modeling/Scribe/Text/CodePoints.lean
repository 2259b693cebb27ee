import Scribe.Text.Quoted

/-!
# Code points

A text in a data file is a row of code points. A code point is a character, or a surrogate that an
escape names and that has no partner there; no text of characters holds such a one.
-/
namespace Scribe

inductive CodePoint where
  | char (c : Char)
  /-- The surrogate with the code `0xD800 + place`. -/
  | surrogate (place : Fin 0x800)
deriving DecidableEq, Repr

abbrev CodePoints := List CodePoint

namespace CodePoint

def ofCode (code : Nat) : CodePoint :=
  if h : 0xD800 ≤ code ∧ code < 0xE000 then .surrogate ⟨code - 0xD800, by omega⟩
  else .char (Char.ofNat code)

def char? : CodePoint → Option Char
  | char c => some c
  | surrogate _ => none

def escapeIn (mark : Char) : CodePoint → List Char
  | char c => Text.escapeIn mark c
  | surrogate place => '\\' :: 'u' :: Text.hex 4 (0xD800 + place)

end CodePoint

namespace CodePoints

def ofString (s : String) : CodePoints :=
  s.toList.map .char

instance : Coe String CodePoints := ⟨ofString⟩

/-- The text of characters alone, if it is one. -/
def text? (cs : CodePoints) : Option String :=
  (cs.mapM CodePoint.char?).map String.ofList

def quoted (cs : CodePoints) : String :=
  let mark := Text.quoteFor (cs.filterMap CodePoint.char?)
  String.ofList (mark :: cs.flatMap (CodePoint.escapeIn mark) ++ [mark])

end CodePoints
end Scribe
