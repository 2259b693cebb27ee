import Scribe.Instruction.Intent
import Scribe.Text.Quoted

/-!
# Script templates

A template writes script text for an instruction. Where the instruction leaves something out it
takes a safe default, and says so in a note. The echo prints the instruction itself.
-/
namespace Scribe.Instruction
open Text Pattern

structure Rendering where
  script : List Char
  notes : List String := []
deriving DecidableEq, Repr

def printText (message : List Char) : List Char :=
  "neuro ".toList ++ Script.quote message

def printExpr (expr : List Char) : List Char :=
  "neuro ".toList ++ expr

def setLine (name expr : List Char) : List Char :=
  "set ".toList ++ name ++ " = ".toList ++ expr

def echo (cs : List Char) : List Char :=
  printText (unwrap cs)

def renderLoop (cs : List Char) : Except UnknownCount Rendering :=
  (loopCount cs).map fun asked =>
    let requested := asked.getD 1
    let count := (clampCount requested).toNat
    let missing := if asked.isNone then ["loop count missing, defaulted to 1"] else []
    let clamped :=
      if count != requested then [s!"loop count {requested} clamped to {count}"] else []
    ⟨joinLines (List.replicate count (printText (loopMessage cs))), missing ++ clamped⟩

def roleValue : Pattern :=
  edge ++ word "role" ++ blanks ++
    opt (choice [char '=', edge ++ word "to" ++ edge, edge ++ word "is" ++ edge,
      edge ++ word "as" ++ edge]) ++ blanks ++ group 1 anyName

def lastValue : Pattern :=
  edge ++ words ["to", "as", "is"] ++ blanks1 ++ group 1 anyName ++ blanks ++ atEnd

def role? (cs : List Char) : Option (List Char) :=
  match firstQuoted? cs with
  | some value => some value
  | none =>
    let named := (roleValue.search cs).bind fun m =>
      if ["to", "is", "as"].contains (String.ofList (lower (m.group 1))) then none
      else some (m.group 1)
    match named with
    | some value => some value
    | none => (lastValue.search (trim cs)).map (·.group 1)

def renderRole (cs : List Char) : Rendering :=
  let value := (role? cs).getD "user".toList
  let side := singleValue value
  let side := if isVariable side then Script.quote side else side
  ⟨setLine "role".toList side,
    if (role? cs).isNone then ["role value missing, defaulted to user"] else []⟩

end Scribe.Instruction
