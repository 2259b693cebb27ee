import Scribe.Pattern.Search
import Scribe.Script.Literal
import Scribe.Text.Lowercase

/-!
# Quotes in instructions

An instruction is an English sentence. Texts it mentions stand between single or double quotes,
and the sentence itself may be wrapped in them.
-/
namespace Scribe.Instruction
open Text Pattern

def isQuote (c : Char) : Bool := c == '"' || c == '\''

def isWrapped (cs : List Char) : Bool :=
  2 ≤ cs.length && cs.head?.any isQuote && cs.head? == cs.getLast?

def inner (cs : List Char) : List Char :=
  cs.tail.dropLast

/-- Takes off at most `n` pairs of quotes, and the blanks inside them. -/
def peel : (n : Nat) → List Char → List Char
  | 0, cs => cs
  | n + 1, cs => if isWrapped cs then peel n (trim (inner cs)) else cs

def unwrap (cs : List Char) : List Char :=
  peel cs.length (trim cs)

/-- The payload of a message: no quotes around it, and no punctuation at its ends. -/
def payload (cs : List Char) : List Char :=
  trim (trimWhile (fun c => "\"' .,!?…".toList.contains c) (unwrap cs))

def quotedText : Pattern :=
  char '\'' ++ group 1 (some1 (noneOf "'")) ++ char '\'' |||
  char '"' ++ group 2 (some1 (noneOf "\"")) ++ char '"'

def quotedSegment : Pattern :=
  char '\'' ++ group 1 (many (noneOf "'")) ++ char '\'' |||
  char '"' ++ group 2 (many (noneOf "\"")) ++ char '"'

def quotedBody (m : Match) : List Char :=
  (m.group? 1).getD (m.group 2)

def firstQuoted? (cs : List Char) : Option (List Char) :=
  (quotedText.search cs).map quotedBody

def allQuoted (cs : List Char) : List (List Char) :=
  (quotedText.findAll cs).map quotedBody

def requote (cs : List Char) : List Char :=
  quotedSegment.replaceWith (fun m => Script.quote (quotedBody m)) cs

def isLiteralWord (cs : List Char) : Bool :=
  ["true", "false", "none", "null"].contains (String.ofList (lower cs))

def wholeName : Pattern := name ++ atEnd

def isName (cs : List Char) : Bool :=
  (wholeName.matchStart cs).isSome

def isVariable (cs : List Char) : Bool :=
  isName cs && !isLiteralWord cs

def wholeNumber : Pattern := signed ++ atEnd

def isNumber (cs : List Char) : Bool :=
  (wholeNumber.matchStart (trim cs)).isSome

def isOperatorSign (c : Char) : Bool :=
  "-+*/%".toList.contains c

/-- Whether an arithmetic sign stands outside quotes; the two strokes of a comment do not count. -/
def hasOperator (cs : List Char) : Bool :=
  (Text.replace "//".toList " ".toList (quotedText.replace "" cs)).any isOperatorSign

def printVerb : Pattern :=
  edge ++ words ["print", "show", "output", "echo", "say", "display"] ++ edge

def mentionsPrint (cs : List Char) : Bool :=
  printVerb.found cs

end Scribe.Instruction
