import Scribe.Pattern.Search
import Scribe.Script.Comment
import Scribe.Text.Slice

/-!
# Older spellings

Scripts may say `say` or `print` for `neuro`, and may write an arm of a branch on one line with
its header. Both are brought into the present form before the script is read; every line of the
result knows the line that it comes from.
-/
namespace Scribe.Run
open Text Pattern

def preprocess (source : List Char) : List Char :=
  unifyLineEnds (dropByteOrderMark source)

/-- The text up to the first colon outside double quotes, with the colon, and the text after it. -/
def cutAtColonFrom : (inString : Bool) → List Char → Option (List Char × List Char)
  | _, [] => none
  | true, '\\' :: c :: r => (cutAtColonFrom true r).map fun (a, b) => ('\\' :: c :: a, b)
  | true, '"' :: r => (cutAtColonFrom false r).map fun (a, b) => ('"' :: a, b)
  | true, c :: r => (cutAtColonFrom true r).map fun (a, b) => (c :: a, b)
  | false, '"' :: r => (cutAtColonFrom true r).map fun (a, b) => ('"' :: a, b)
  | false, ':' :: r => some ([':'], r)
  | false, c :: r => (cutAtColonFrom false r).map fun (a, b) => (c :: a, b)

def cutAtColon (cs : List Char) : Option (List Char × List Char) :=
  cutAtColonFrom false cs

def printWord : Pattern := words ["say", "print"] ++ edge ++ blanks

def modernPrint (body : List Char) : List Char :=
  match printWord.matchStart body with
  | some m => if m.after.isEmpty then body else "neuro ".toList ++ m.after
  | none => body

def armHeader : Pattern :=
  words ["if", "elif"] ++ blank ||| word "else" ++ blanks ++ char ':'

def inlineArm? (body : List Char) : Option (List Char × List Char) :=
  if (armHeader.matchStart body).isSome then
    (cutAtColon body).bind fun (header, tail) =>
      if (trim (Script.stripComment tail)).isEmpty then none else some (header, trim tail)
  else none

def modernLines (line : List Char) : List (List Char) :=
  let indent := line.takeWhile (· == ' ')
  let body := modernPrint (line.dropWhile (· == ' '))
  match inlineArm? body with
  | some (header, stmt) => [indent ++ header, indent ++ "    ".toList ++ modernPrint stmt]
  | none => [indent ++ body]

def modernizeFrom (line : Nat) : List (List Char) → List (List Char × Nat)
  | [] => []
  | text :: rest => (modernLines text).map (·, line) ++ modernizeFrom (line + 1) rest

/-- Brings a script into the present form, and gives for each line of the result the line that it
comes from. -/
def modernize (source : List Char) : List Char × List Nat :=
  let numbered := modernizeFrom 1 (lines source)
  (joinLines (numbered.map Prod.fst), numbered.map Prod.snd)

end Scribe.Run
