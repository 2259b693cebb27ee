import Scribe.Text.Order

/-!
# Faults of a script

A script that cannot be read has one fault, which says what is wrong and on which line.
-/
namespace Scribe.Script

inductive LexCause where
  | invalidEscape (c : Char)
  | unterminatedString
  | unexpectedCharacter (c : Char)
  | tabIndent
  | unmatchedIndent
  | stated (message : String)
deriving DecidableEq, Repr

def LexCause.message : LexCause → String
  | .invalidEscape c => s!"invalid escape '\\{c}' in string"
  | .unterminatedString => "unterminated string"
  | .unexpectedCharacter c => s!"unexpected character '{c}'"
  | .tabIndent => "tab character in indentation, use spaces"
  | .unmatchedIndent => "unindent does not match any outer indentation level"
  | .stated message => message

inductive Complaint where
  | general (message : String)
  | lexical (cause : LexCause)
  | unexpected (expected : List String) (found : String)
deriving DecidableEq, Repr

def Complaint.expected : Complaint → List String
  | .unexpected expected _ => Text.sortedSet expected
  | _ => []

def Complaint.message : Complaint → String
  | .general message => message
  | .lexical cause => cause.message
  | .unexpected expected found =>
    match Text.sortedSet expected with
    | [] => s!"unexpected {found}"
    | descriptions =>
      let choice := " or ".intercalate descriptions
      s!"expected {choice}, found {found}"

def Complaint.kind : Complaint → String
  | .general _ => "DslError"
  | .lexical _ => "LexError"
  | .unexpected .. => "ParseError"

structure Fault where
  complaint : Complaint
  line : Option Int
deriving DecidableEq, Repr

def Fault.message (f : Fault) : String :=
  f.complaint.message

def Fault.text (f : Fault) : String :=
  match f.line with
  | none => s!"{f.complaint.kind}: {f.message}"
  | some line => s!"{f.complaint.kind} on line {line}: {f.message}"

end Scribe.Script
