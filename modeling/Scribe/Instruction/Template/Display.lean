import Scribe.Instruction.Template.Basic

/-!
# Printing and comments

Instructions that print a value or a message, or that ask for a comment in the script.
-/
namespace Scribe.Instruction
open Text Pattern

/-- `format a and b with a comma`. -/
def commaForm : Pattern :=
  atStart ++ word "format" ++ blanks1 ++ group 1 (lazySome1 inLine) ++ blanks1 ++ word "and" ++
    blanks1 ++ group 2 (lazySome1 inLine) ++ blanks1 ++ word "with" ++ blanks1 ++ word "a" ++
    blanks1 ++ word "comma" ++ blanks ++ many (oneOf ".!?…") ++ blanks ++ atEnd

def numberForm : Pattern :=
  atStart ++ word "say" ++ blanks1 ++ word "the" ++ blanks1 ++ word "number" ++ blanks1 ++
    group 1 signed ++ edge

def valueForms : List Pattern :=
  [edge ++ word "value" ++ blanks1 ++ word "of" ++ blanks1 ++ group 1 anyName ++ edge,
    edge ++ word "the" ++ blanks1 ++ group 1 anyName ++ blanks1 ++ word "value" ++ edge,
    atStart ++ words ["display", "show"] ++ blanks1 ++ group 1 anyName ++ blanks ++ atEnd]

def usingMark : Pattern := word "using" ++ blanks1 ++ commentMark

/-- The mark of the comment that is asked for: the one named, the first one used, or `#`. -/
def markOfComment (cs : List Char) : List Char :=
  match (edge ++ word "using" ++ blanks1 ++ group 1 commentMark).search cs with
  | some m => m.group 1
  | none =>
    match find? "//".toList cs, find? "#".toList cs with
    | some i, some j => if i < j then "//".toList else "#".toList
    | some _, none => "//".toList
    | none, _ => "#".toList

def saysClause : Pattern :=
  opt (word "that" ++ blanks1 ++ word "says" ++ blanks1 ||| word "says" ++ blanks1)

def commentForm : Pattern :=
  edge ++ word "comment" ++ edge ++ blanks1 ++ saysClause ++ group 1 (some1 inLine)

def laterPrint : Pattern :=
  opt (char ',') ++ blanks1 ++ some1 (word "and" ++ blanks1 ||| word "then" ++ blanks1) ++
    words ["print", "say", "output", "echo", "show", "display"] ++ edge ++ many inLine ++ atEnd

def dropMark (mark : String) (cs : List Char) : List Char :=
  if mark.toList.isPrefixOf cs then trim (cs.drop mark.length) else cs

def commentText (cs : List Char) : List Char :=
  let comment :=
    match firstQuoted? cs with
    | some text => some text
    | none => (commentForm.search cs).map (·.group 1)
  match comment with
  | none => []
  | some text =>
    let t := unwrap text
    let t := (usingMark ++ blanks ++ saysClause).dropFront t
    let t := (edge ++ usingMark ++ many inLine ++ atEnd).replace "" t
    let t := laterPrint.replace "" t
    dropMark "#" (dropMark "//" (trim t))

def printForm : Pattern :=
  edge ++ opt (word "and" ++ blanks1) ++ words ["print", "say", "output", "echo"] ++ blanks1 ++
    group 1 (some1 inLine) ++ atEnd

def commentLines (cs : List Char) : List (List Char) × List String :=
  if commentRequest.found cs ||
      (edge ++ exactly "comment".toList ++ edge).found (lower (trim cs)) then
    let text := commentText cs
    if text.isEmpty then ([], ["comment text missing"])
    else ([markOfComment cs ++ ' ' :: text], [])
  else ([], [])

def messageLines (cs : List Char) : List (List Char) :=
  match printForm.search cs with
  | none => []
  | some m =>
    let message := payload (m.group 1)
    if message.isEmpty then []
    else [if isVariable message then printExpr message else printText message]

def shownVariable? (cs : List Char) : Option (List Char) :=
  valueForms.findSome? fun form =>
    (form.search cs).bind fun m => if isVariable (m.group 1) then some (m.group 1) else none

def commaPair? (cs : List Char) : Option (List Char) :=
  (commaForm.matchStart cs).bind fun m =>
    let a := payload (m.group 1)
    let b := payload (m.group 2)
    if a.isEmpty || b.isEmpty then none else some (a ++ ", ".toList ++ b)

def renderDisplay (cs : List Char) : Rendering :=
  let t := trim cs
  match commaPair? t with
  | some pair => ⟨printText pair, []⟩
  | none =>
    match numberForm.matchStart t with
    | some m => ⟨printText (m.group 1), []⟩
    | none =>
      match shownVariable? t with
      | some name => ⟨printExpr name, []⟩
      | none =>
        let (comments, notes) := commentLines cs
        let lines := comments ++ messageLines cs
        ⟨if lines.isEmpty then echo cs else joinLines lines, notes⟩

end Scribe.Instruction
