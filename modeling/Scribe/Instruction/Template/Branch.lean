import Scribe.Instruction.Condition
import Scribe.Instruction.Template.Basic

/-!
# Branches

`If … say …, elif … say …, else say …` becomes a chain of arms, each with one message.
-/
namespace Scribe.Instruction
open Text Pattern

def branchVerb : Pattern :=
  words ["say", "print", "output", "show", "display", "echo"]

def verbClause : Pattern :=
  atStart ++ group 1 (lazySome1 anything) ++ blanks ++ opt (oneOf ",:") ++ blanks ++
    opt (word "then" ++ blanks1) ++ edge ++ branchVerb ++ blanks1 ++
    group 2 (lazySome1 anything) ++ atEnd

def pointClause : Pattern :=
  atStart ++ group 1 (lazySome1 anything) ++ blanks ++ oneOf ",:" ++ blanks ++
    opt (exactly "then".toList ++ blanks1) ++ group 2 (lazySome1 anything) ++ atEnd

/-- The condition and the message of an arm: `score >= 90 say Excellent`. -/
def branchClause? (cs : List Char) : Option (List Char × List Char) :=
  let part := trim (dropEndWhile (fun c => c == ',' || c == ';') (trim cs))
  let found :=
    match verbClause.matchStart part with
    | some m => some m
    | none => pointClause.matchStart part
  match found with
  | none => none
  | some m =>
    let test := condition (m.group 1)
    if test.isEmpty then none else some (test, payload (m.group 2))

def elseForm : Pattern :=
  atStart ++ group 1 (lazySome1 anything) ++
    opt (opt (oneOf ",;") ++ blanks ++ edge ++ word "else" ++ edge ++ opt (oneOf ",:") ++ blanks ++
      opt (word "then" ++ blanks1) ++ opt (branchVerb ++ blanks1) ++
      group 2 (some1 anything)) ++
    atEnd

def elifCut : Pattern :=
  opt (oneOf ",;") ++ blanks ++ edge ++ word "elif" ++ edge ++ blanks

def armLines (first : Bool) : List (List Char) → Except (List Char) (List (List Char))
  | [] => .ok []
  | part :: rest =>
    match branchClause? part with
    | none => .error part
    | some (test, message) =>
      let header := (if first then "if ".toList else "elif ".toList) ++ test ++ [':']
      (armLines false rest).map fun more =>
        header :: ("    ".toList ++ printText message) :: more

/-- `show x when y is z`. -/
def renderWhen (m : Match) : List Char :=
  let value := m.group 3
  let side := if isNumber value || isLiteralWord value then value else Script.quote value
  "if ".toList ++ m.group 2 ++ " == ".toList ++ side ++ ":\n    ".toList ++ printExpr (m.group 1)

/-- The branches of a sentence that starts with `if`; `head` is what follows the word. -/
def renderArms (cs head : List Char) (otherwise : List Char) : Rendering :=
  let parts := (elifCut.split head).filter fun part => !(trim part).isEmpty
  match armLines true parts with
  | .error part =>
    let named := String.ofList (quotedChars (trim part))
    ⟨echo cs, [s!"could not split branch clause {named}, echoed"]⟩
  | .ok [] => ⟨echo cs, []⟩
  | .ok lines =>
    let last :=
      if otherwise.isEmpty then []
      else ["else:".toList, "    ".toList ++ printText otherwise]
    ⟨joinLines (lines ++ last), []⟩

def renderBranch (cs : List Char) : Rendering :=
  match whenForm.matchStart (trim cs) with
  | some m => ⟨renderWhen m, []⟩
  | none =>
    let t := (edge ++ word "otherwise" ++ edge).replace "else" cs
    let t := (edge ++ word "else" ++ blanks1 ++ word "if" ++ edge).replace "elif" t
    let found := elseForm.matchStart (trim t)
    let head := (found.map fun m => trim (m.group 1)).getD (trim t)
    let otherwise := (found.bind fun m => (m.group? 2).map payload).getD []
    if ((word "if" ++ blank).matchStart head).isNone then
      ⟨echo cs, ["branch instruction without leading 'if', echoed"]⟩
    else renderArms cs ((word "if" ++ blanks1).dropFront head) otherwise

end Scribe.Instruction
