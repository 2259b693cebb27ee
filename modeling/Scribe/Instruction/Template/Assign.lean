import Scribe.Instruction.Template.Display

/-!
# Assignments, arithmetic and concatenation

Instructions that compute something, store it in a variable and perhaps print it.
-/
namespace Scribe.Instruction
open Text Pattern

def printLines (cs name : List Char) (prints : Bool) : List (List Char) :=
  if prints then
    let tail := (printTail? cs name).getD []
    [printExpr (if tail.isEmpty then name else tail)]
  else []

def renderSetVar (cs : List Char) : Rendering :=
  if commentRequest.found cs && !assignVerb.found cs then renderDisplay cs
  else
    match assignment? cs with
    | none => ⟨echo cs, ["no assignment found, echoed"]⟩
    | some a =>
      let second :=
        match secondAssignment? cs a.target with
        | some (name, source) => [setLine name (operandExpr source)]
        | none => []
      ⟨joinLines (setLine a.target (operandExpr a.source) :: second ++
        printLines cs a.target a.prints), []⟩

/-- `calculate (a + b) * 2 and store in r`. -/
def scaledForm : Pattern :=
  word "calculate" ++ blanks ++ some1 (char '(') ++ blanks ++ group 1 (lazySome1 (noneOf ")")) ++
    blanks ++ some1 (char ')') ++ blanks ++ char '*' ++ blanks ++ group 2 digits ++ blanks ++
    word "and" ++ blanks ++ word "store" ++ blanks ++ word "in" ++ blanks1 ++ group 3 anyName

def wordOperand : Pattern := some1 wordChar ++ opt (char '.' ++ digits)

/-- `subtract y from x`. -/
def subtractForm : Pattern :=
  word "subtract" ++ blanks1 ++ group 1 wordOperand ++ blanks1 ++ word "from" ++ blanks1 ++
    group 2 wordOperand

def divideForm : Pattern :=
  word "divide" ++ blanks1 ++ word "by" ++ blanks1 ++ group 1 unsigned

def verbOperand : Pattern := signed ||| anyName

def verbForms : List (Pattern × String) :=
  [(edge ++ word "add" ++ blanks1 ++ group 1 verbOperand ++ blanks1 ++
      words ["and", "to", "plus"] ++ blanks1 ++ group 2 verbOperand, " + "),
    (edge ++ word "multiply" ++ blanks1 ++ group 1 verbOperand ++ blanks1 ++
      words ["by", "and", "with"] ++ blanks1 ++ group 2 verbOperand, " * "),
    (edge ++ word "divide" ++ blanks1 ++ group 1 verbOperand ++ blanks1 ++ word "by" ++ blanks1 ++
      group 2 verbOperand, " / "),
    (edge ++ word "sum" ++ blanks1 ++ opt (word "of" ++ blanks1) ++ group 1 verbOperand ++
      blanks1 ++ word "and" ++ blanks1 ++ group 2 verbOperand, " + ")]

def isFormulaChar (c : Char) : Bool :=
  isWordChar c || isBlank c || "-.()+*/%".toList.contains c

/-- `calculate 2 * (3 + 4)`. -/
def formulaForm : Pattern :=
  edge ++ choice [word "calculate", word "compute", word "what" ++ blanks1 ++ word "is"] ++
    blanks1 ++ group 1 (lazySome1 (one isFormulaChar)) ++
    choice [blanks1 ++ words ["and", "then"] ++ edge, oneOf ",?", atEnd]

def computed? (cs : List Char) : Option (List Char) :=
  let byVerb := verbForms.findSome? fun (form, sign) =>
    (form.search cs).map fun m => m.group 1 ++ sign.toList ++ m.group 2
  match byVerb with
  | some e => some e
  | none =>
    (formulaForm.search cs).bind fun m =>
      if (m.group 1).any isOperatorSign then some (operandExpr (m.group 1)) else none

/-- Stores an expression in the variable that is named, or else in `result`, which is printed. -/
def storeComputed (cs expr : List Char) : Rendering :=
  let named := namedTarget? cs
  let target := named.getD defaultTarget
  ⟨joinLines (setLine target expr :: printLines cs target (mentionsPrint cs || named.isNone)),
    if named.isNone then ["arithmetic target missing, defaulted to result"] else []⟩

def renderArith (cs : List Char) : Rendering :=
  match scaledForm.search cs with
  | some m =>
    let expr := '(' :: operandExpr (m.group 1) ++ ") * ".toList ++ m.group 2
    ⟨joinLines (setLine (m.group 3) expr :: printLines cs (m.group 3) (mentionsPrint cs)), []⟩
  | none =>
    match subtractForm.search cs with
    | some m =>
      let difference := m.group 2 ++ " - ".toList ++ m.group 1
      let expr :=
        match divideForm.search cs with
        | some d =>
          if d.group 1 == ['1'] then difference
          else '(' :: difference ++ ") / ".toList ++ d.group 1
        | none => difference
      storeComputed cs expr
    | none =>
      match assignment? cs with
      | some a =>
        ⟨joinLines (setLine a.target (operandExpr a.source) ::
          printLines cs a.target a.prints), []⟩
      | none =>
        match computed? cs with
        | some expr => storeComputed cs expr
        | none => renderSetVar cs

/-- `print a + ' ' + b`. -/
def plusForm : Pattern :=
  edge ++ words ["print", "join", "output", "echo", "show"] ++ blanks1 ++
    group 1 (some1 inLine ++ char '+' ++ some1 inLine) ++ atEnd

/-- `concatenate name and score`. -/
def joinForm : Pattern :=
  atStart ++ blanks ++ words ["concatenate", "concat", "combine", "join"] ++ blanks1 ++
    group 1 anyName ++ blanks1 ++ opt (word "and" ++ blanks1 ||| word "with" ++ blanks1) ++
    group 2 anyName ++ edge

def spaceRequest : Pattern :=
  edge ++ word "with" ++ blanks1 ++ word "a" ++ blanks1 ++ word "space" ++ edge

def storeJoined (cs expr : List Char) : Rendering :=
  match namedTarget? cs with
  | none => ⟨printExpr expr, []⟩
  | some target =>
    ⟨joinLines (setLine target expr :: if mentionsPrint cs then [printExpr target] else []), []⟩

/-- The terms between `+` signs after a print verb, if there are two and nothing is assigned. -/
def plusTerms? (cs : List Char) : Option (List (List Char)) :=
  match plusForm.search cs with
  | none => none
  | some m =>
    let terms := splitTerms (dropEndWhile (· == '.') (trim (m.group 1)))
    if assignVerb.found cs || terms.length < 2 then none else some terms

def joinedNames? (cs : List Char) : Option (List Char) :=
  (joinForm.matchStart cs).bind fun m =>
    if isVariable (m.group 1) && isVariable (m.group 2) then
      some (m.group 1 ++ " + ".toList ++ m.group 2)
    else none

def renderConcat (cs : List Char) : Rendering :=
  match plusTerms? cs with
  | some terms => ⟨printExpr (concatExpr terms), []⟩
  | none =>
    match joinedNames? cs with
    | some expr => storeJoined cs expr
    | none =>
      match allQuoted cs with
      | first :: second :: _ =>
        let sep := if spaceRequest.found cs then " + \" \" + " else " + "
        storeJoined cs (Script.quote first ++ sep.toList ++ Script.quote second)
      | [only] =>
        let named := namedTarget? cs
        let target := named.getD defaultTarget
        ⟨joinLines (setLine target (Script.quote only) ::
            if mentionsPrint cs || named.isNone then [printExpr target] else []),
          ["only one concatenation operand found"]⟩
      | [] => renderSetVar cs

end Scribe.Instruction
