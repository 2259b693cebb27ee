import Scribe.Instruction.Concat
import Scribe.Instruction.Operand

/-!
# Assignments in instructions

`set x to …`, `create variable x = …` and `store … in x` name a variable and what it is given; a
clause such as `and print it` asks to show something afterwards.
-/
namespace Scribe.Instruction
open Text Pattern

structure Assignment where
  target : List Char
  source : List Char
  prints : Bool
deriving DecidableEq, Repr

def printClause : Pattern :=
  opt (char ',') ++ blanks ++ edge ++ words ["and", "then"] ++ blanks1 ++
    words ["print", "output", "echo", "show", "say", "display"] ++ edge

def equalsOrTo : Pattern := char '=' ||| edge ++ word "to" ++ edge

def setForm : Pattern :=
  edge ++ word "set" ++ blanks1 ++ group 1 anyName ++ blanks ++ equalsOrTo ++ blanks ++
    group 2 (some1 inLine)

def createForm : Pattern :=
  edge ++ word "create" ++ blanks1 ++ opt (word "a" ++ blanks1) ++ word "variable" ++ blanks1 ++
    group 1 anyName ++ blanks ++
    opt (equalsOrTo ||| edge ++ word "with" ++ blanks1 ++ word "value" ++ edge) ++ blanks ++
    group 2 (some1 inLine)

def storeForm : Pattern :=
  edge ++ word "store" ++ blanks1 ++ group 2 (lazySome1 inLine) ++ blanks1 ++
    words ["in", "into", "as"] ++ blanks1 ++ group 1 anyName ++ edge

def looseForm : Pattern :=
  edge ++ words ["set", "create", "store"] ++ blanks1 ++ group 1 anyName ++ blanks ++
    opt equalsOrTo ++ blanks ++ group 2 (some1 inLine)

def assignmentForms : List Pattern := [setForm, createForm, storeForm, looseForm]

def assignedSource (cs : List Char) : List Char :=
  let e :=
    match printClause.search cs with
    | some m => m.before
    | none => cs
  let e := cleanOperand e
  let e :=
    match find? " into ".toList (lower e) with
    | some (i + 1) => trim (e.take (i + 1))
    | _ => e
  if e.isEmpty then ['0'] else e

def assignment? (cs : List Char) : Option Assignment :=
  let p := trim cs
  let prints := printClause.found p || mentionsPrint p
  (assignmentForms.findSome? fun form => form.search p).map fun m =>
    ⟨m.group 1, assignedSource (m.group 2), prints⟩

def secondForm : Pattern :=
  edge ++ word "and" ++ blanks1 ++ group 1 anyName ++ blanks ++ char '=' ++ blanks ++
    group 2 (lazySome1 inLine) ++
    (opt (char ',') ++ blanks ++ words ["then", "and"] ++ blanks1 ++
        words ["print", "output", "echo", "say", "show"] ++ edge |||
      atEnd)

def secondAssignment? (cs firstName : List Char) : Option (List Char × List Char) :=
  match secondForm.search cs with
  | none => none
  | some m =>
    let name := m.group 1
    let source := trim (dropEndWhile (· == ',') (trim (m.group 2)))
    if name == firstName || source.isEmpty then none else some (name, source)

def printCall : Pattern :=
  edge ++ words ["print", "echo", "output", "show", "display", "say"] ++ blanks1

/-- What stands for the variable itself after a print verb. -/
def selfReferences : List String :=
  ["it", "that", "this", "the result", "the value", "result"]

def aroundVariable (pre name post : List Char) : List Char :=
  let pre := unwrap (dropEndWhile (· == ',') (trim pre))
  let post := unwrap (trim post)
  join " + ".toList <|
    (if pre.isEmpty then [] else [Script.quote (pre ++ [' '])]) ++ [name] ++
      (if post.isEmpty then [] else [Script.quote (' ' :: post)])

/-- The expression to print after an assignment, or none for the variable itself. -/
def printTail? (cs name : List Char) : Option (List Char) :=
  match (printCall.findAll cs).getLast? with
  | none => none
  | some m =>
    let raw := trim (dropEndWhile (fun c => c == '.' || c == '!') (trim m.after))
    let low := lower raw
    if raw.isEmpty || selfReferences.contains (String.ofList low) || low == lower name then none
    else if raw.contains '+' then some (concatExpr (splitTerms raw))
    else
      match (edge ++ exactly name ++ edge).search raw with
      | some m => some (aroundVariable m.before name m.after)
      | none => some (operandExpr raw)

def targetForm : Pattern :=
  edge ++
    choice [word "store" ++ blanks1 ++ opt (word "it" ++ blanks1) ++ word "in",
      word "save" ++ blanks1 ++ opt (word "it" ++ blanks1) ++ words ["in", "as"],
      word "into", word "as"] ++
    blanks1 ++ group 1 anyName ++ edge

/-- The variable named by `store in x`, `into x` or `as x`. -/
def namedTarget? (cs : List Char) : Option (List Char) :=
  match targetForm.search cs with
  | none => none
  | some m =>
    let name := m.group 1
    if ["a", "the"].contains (String.ofList (lower name)) then none else some name

def defaultTarget : List Char := "result".toList

end Scribe.Instruction
