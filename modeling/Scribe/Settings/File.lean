import Scribe.Pattern.Search
import Scribe.Text.Slice

/-!
# Settings files

A settings file has a statement a line: a name, and behind `=` a value, which may be quoted and
then goes on over line ends. Comments start with `#`; behind an unquoted value, or in its place, a
blank stands before it. A line that is no statement is passed over and reported.
-/
namespace Scribe.Settings
open Pattern

inductive Statement where
  /-- A name, with a value if `=` stands behind it. -/
  | entry (name : List Char) (value : Option (List Char))
  | nothing
  | unreadable
deriving DecidableEq, Repr

/-- Reads from the front of a text; a failure tells what was left. -/
abbrev Reader := StateT (List Char) (Except (List Char))

namespace Reader

def take (p : Pattern) : Reader Match := fun cs =>
  match p.matchStart cs with
  | some m => .ok (m, m.after)
  | none => .error cs

def peek : Reader (Option Char) := return (← get).head?

end Reader

def gap : Pattern := one fun c => Text.isBlank c && c != '\n' && c != '\r'

def gaps : Pattern := many gap

def inLineChar : Pattern := noneOf "\r\n"

def lineEnd : Pattern := choice [exactly ['\r', '\n'], char '\n', char '\r']

def exportWord : Pattern := opt (exactly "export".toList ++ some1 gap)

def quotedName : Pattern := char '\'' ++ group 1 (some1 (noneOf "'")) ++ char '\''

def plainName : Pattern := group 1 (some1 (one fun c => !Text.isBlank c && c != '=' && c != '#'))

/-- A value between quotes. A backslash and the character behind it belong together, so that a
quote there does not end the value. -/
def quotedValue (mark : Char) : Pattern :=
  let inside := one fun c => c != mark && c != '\\'
  char mark ++ group 1 (many (char '\\' ++ anything ||| inside)) ++ char mark

def comment : Pattern := opt (gaps ++ char '#' ++ many inLineChar)

def endOfStatement : Pattern := gaps ++ (lineEnd ||| atEnd)

def restOfLine : Pattern := many inLineChar ++ opt lineEnd

def escapes : List (Char × Char) := [
  ('\\', '\\'), ('\'', '\''), ('"', '"'), ('a', '\x07'), ('b', '\x08'), ('f', '\x0c'),
  ('n', '\n'), ('r', '\r'), ('t', '\t'), ('v', '\x0b')]

/-- Between single quotes only the backslash and the quote can be escaped. -/
def singleEscapes : List (Char × Char) := [('\\', '\\'), ('\'', '\'')]

/-- Resolves the escapes in a table; other backslashes stay. -/
def unescape (table : List (Char × Char)) : List Char → List Char
  | '\\' :: c :: r =>
    match table.lookup c with
    | some x => x :: unescape table r
    | none => '\\' :: unescape table (c :: r)
  | c :: r => c :: unescape table r
  | [] => []
termination_by cs => cs.length

def plainValue (line : List Char) : List Char :=
  Text.trimEnd ((blanks1 ++ char '#' ++ many inLine).replace "" line)

def readName : Reader (Option (List Char)) := do
  match ← Reader.peek with
  | some '#' => return none
  | some '\'' => return some ((← Reader.take quotedName).group 1)
  | _ => return some ((← Reader.take plainName).group 1)

/-- The value behind `=`; `spaced` tells that blanks stand between them. -/
def readValue (spaced : Bool) : Reader (List Char) := do
  match ← Reader.peek with
  | some '\'' => return unescape singleEscapes ((← Reader.take (quotedValue '\'')).group 1)
  | some '"' => return unescape escapes ((← Reader.take (quotedValue '"')).group 1)
  | none | some '\n' | some '\r' => return []
  | some c =>
    if c == '#' && spaced then return []
    else return plainValue (← Reader.take (many inLineChar)).covered

def readStatement : Reader Statement := do
  let _ ← Reader.take blanks
  if (← get).isEmpty then return .nothing
  let _ ← Reader.take exportWord
  let name ← readName
  let _ ← Reader.take gaps
  let value ←
    if (← Reader.peek) == some '=' then
      let sign ← Reader.take (char '=' ++ gaps)
      pure (some (← readValue (1 < sign.covered.length)))
    else pure none
  let _ ← Reader.take comment
  let _ ← Reader.take endOfStatement
  match name with
  | some name => return .entry name value
  | none => return .nothing

def firstStatement (cs : List Char) : Statement × List Char :=
  match readStatement cs with
  | .ok (statement, rest) => (statement, rest)
  | .error left => (.unreadable, restOfLine.dropFront left)

/-- The statements of a text, with the lines from which they were looked for. -/
def statementsFrom (line : Nat) (cs : List Char) : List (Nat × Statement) :=
  if cs.isEmpty then []
  else
    let (statement, rest) := firstStatement cs
    if rest.length < cs.length then
      let passed := (cs.take (cs.length - rest.length)).count '\n'
      (line, statement) :: statementsFrom (line + passed) rest
    else [(line, statement)]
termination_by cs.length

/-- The statements of a file; a byte order mark before them does not count. -/
def statements (cs : List Char) : List (Nat × Statement) :=
  statementsFrom 1 (Text.dropByteOrderMark cs)

end Scribe.Settings
