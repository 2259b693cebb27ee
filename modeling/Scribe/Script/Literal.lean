import Scribe.Script.Fault
import Scribe.Text.Slice

/-!
# String literals

A string stands between double quotes. A quote, a backslash, a line end and a tab inside it are
written with a backslash, and no other escape is known. Prompts after `from AI:` may be wrapped
in double quotes too; their escapes are undone one kind after the other.
-/
namespace Scribe.Script

def escape (c : Char) : List Char :=
  if c == '\\' then ['\\', '\\']
  else if c == '"' then ['\\', '"']
  else if c == '\n' then ['\\', 'n']
  else if c == '\t' then ['\\', 't']
  else [c]

def quote (cs : List Char) : List Char :=
  '"' :: cs.flatMap escape ++ ['"']

def unescape? : Char → Option Char
  | '"' => some '"'
  | '\\' => some '\\'
  | 'n' => some '\n'
  | 't' => some '\t'
  | _ => none

/-- Reads a literal whose opening quote has been passed: the text, and how many characters it
takes with its closing quote. -/
def readString : List Char → Except LexCause (List Char × Nat)
  | [] => .error .unterminatedString
  | '"' :: _ => .ok ([], 1)
  | ['\\'] => .error .unterminatedString
  | '\\' :: e :: r =>
    match unescape? e with
    | none => .error (.invalidEscape e)
    | some c => (readString r).map fun (cs, n) => (c :: cs, n + 2)
  | c :: r => (readString r).map fun (cs, n) => (c :: cs, n + 1)

/-- A prompt without its double quotes; a prompt that has none stays as it is. -/
def unwrapPrompt (cs : List Char) : List Char :=
  match cs with
  | '"' :: r =>
    if r.getLast? == some '"' then
      let body := r.dropLast
      let body := Text.replace ['\\', '"'] ['"'] body
      let body := Text.replace ['\\', 'n'] ['\n'] body
      let body := Text.replace ['\\', 't'] ['\t'] body
      Text.replace ['\\', '\\'] ['\\'] body
    else cs
  | _ => cs

end Scribe.Script
