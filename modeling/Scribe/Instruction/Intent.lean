import Scribe.Instruction.Assignment
import Scribe.Instruction.Count

/-!
# Intents

What kind of code an instruction asks for. A classifier may say so; otherwise the first kind
whose signal words occur is taken. Either answer is then corrected where the form of the sentence
contradicts it.
-/
namespace Scribe.Instruction
open Text Pattern

inductive Intent where
  | loop | branch | arith | concat | roleFlag | bridge | docPrint | setVar | unknown
deriving DecidableEq, Repr

namespace Intent

def all : List Intent :=
  [loop, branch, arith, concat, roleFlag, bridge, docPrint, setVar, unknown]

def label : Intent → String
  | loop => "Loop"
  | branch => "Branch"
  | arith => "Arith"
  | concat => "Concat"
  | roleFlag => "RoleFlag"
  | bridge => "AIBridge"
  | docPrint => "DocPrint"
  | setVar => "SetVar"
  | unknown => "Unknown"

/-- The intent that a classifier's label names; case, hyphens and underscores do not count. -/
def ofLabel? (label : String) : Option Intent :=
  let key := lower ((trim label.toList).filter fun c => c != '_' && c != '-')
  all.find? fun intent => lower intent.label.toList == key

end Intent

def comparisonSignal : Pattern :=
  choice [exactly "==".toList, exactly "!=".toList, exactly "<=".toList, exactly ">=".toList,
    char '<', char '>', edge ++ word "equals" ++ edge,
    edge ++ words ["greater", "less", "more", "fewer"] ++ blanks1 ++ word "than" ++ edge,
    edge ++ word "is" ++ blanks1 ++ word "not" ++ edge,
    edge ++ word "at" ++ blanks1 ++ words ["least", "most"] ++ edge]

def arithmeticVerb : Pattern :=
  edge ++ words ["calculate", "compute", "subtract", "add", "multiply", "divide", "sum"] ++ edge

def concatVerb : Pattern :=
  edge ++ words ["concatenate", "concat", "combine", "join"] ++ edge

def quoteMark : Pattern := one isQuote

def unquoted : Pattern := many (one fun c => !isQuote c)

def quotedPlus : Pattern :=
  quoteMark ++ unquoted ++ quoteMark ++ blanks ++ char '+' ||| char '+' ++ blanks ++ quoteMark

def commentMark : Pattern := exactly "//".toList ||| char '#'

def maybeA : Pattern := opt (word "a" ++ blanks1)

def commentRequest : Pattern :=
  choice [edge ++ word "write" ++ blanks1 ++ word "a" ++ blanks1 ++ word "comment" ++ edge,
    edge ++ word "add" ++ blanks1 ++ maybeA ++ word "comment" ++ edge,
    edge ++ word "insert" ++ blanks1 ++ maybeA ++ word "comment" ++ edge,
    edge ++ word "comment" ++ blanks1 ++ opt (word "that" ++ blanks1) ++ word "says" ++ edge,
    edge ++ word "using" ++ blanks1 ++ commentMark]

def assignVerb : Pattern := edge ++ words ["set", "create", "store"] ++ blank

def embeddedSet : Pattern :=
  edge ++ words ["then", "and"] ++ blanks1 ++ word "set" ++ blanks1 ++ anyName ++ blanks ++
    (char '=' ||| word "to") ++ blanks1

def printStart : Pattern :=
  atStart ++ words ["print", "output", "echo", "say", "display", "format"] ++ blank

def printConcat : Pattern :=
  atStart ++ word "print" ++ blanks1 ++
    (quoteMark ++ lazySome1 inLine ++ quoteMark ++ blanks ++ char '+' ++ blanks ++ anyName |||
      anyName ++ blanks ++ char '+' ++ blanks ++ quoteMark ++ unquoted ++ quoteMark ++ blanks ++
        char '+' ++ blanks ++ anyName)

/-- `show status when flag is true`. -/
def whenForm : Pattern :=
  atStart ++ words ["show", "print", "output", "echo"] ++ blanks1 ++ group 1 anyName ++ blanks1 ++
    word "when" ++ blanks1 ++ group 2 anyName ++ blanks1 ++ word "is" ++ blanks1 ++
    group 3 (some1 wordChar) ++ blanks ++ atEnd

def isLoop (cs : List Char) : Except UnknownCount Bool :=
  (loopCount cs).map fun count =>
    count.isSome || (edge ++ digits ++ blanks ++ word "x" ++ edge).found cs

def isBranch (cs : List Char) : Bool :=
  (edge ++ words ["if", "elif", "else", "otherwise"] ++ edge).found cs ||
    (edge ++ words ["and", "or"] ++ edge).found cs && comparisonSignal.found cs

def isArith (cs : List Char) : Bool :=
  if arithmeticVerb.found cs && (hasOperator cs || cs.any isDigit) then true
  else if assignVerb.found cs then (assignment? cs).any fun a => hasOperator a.source
  else false

def isConcat (cs : List Char) : Bool :=
  concatVerb.found cs || quotedPlus.found cs

def roleSignal : Pattern :=
  choice [edge ++ word "set" ++ blanks1 ++ opt (word "the" ++ blanks1) ++ word "role" ++ edge,
    edge ++ word "role" ++ blanks ++ char '=',
    edge ++ word "promote" ++ edge ++ some1 inLine ++ edge ++ word "to" ++ edge,
    edge ++ word "demote" ++ edge ++ some1 inLine ++ edge ++ word "to" ++ edge]

def isRoleFlag (cs : List Char) : Bool := roleSignal.found cs

def isSetVar (cs : List Char) : Bool := assignVerb.found cs

def isBridge (cs : List Char) : Bool :=
  (edge ++ words ["forward", "bridge", "relay"] ++ edge).found cs &&
    (edge ++ words ["model", "assistant", "output"] ++ edge).found cs

def isDocPrint (cs : List Char) : Bool :=
  (edge ++ word "comment" ++ edge ||| commentMark).found cs

def Intent.isSignalled (intent : Intent) (cs : List Char) : Except UnknownCount Bool :=
  match intent with
  | loop => isLoop cs
  | branch => .ok (isBranch cs)
  | arith => .ok (isArith cs)
  | concat => .ok (isConcat cs)
  | roleFlag => .ok (isRoleFlag cs)
  | setVar => .ok (isSetVar cs)
  | bridge => .ok (isBridge cs)
  | docPrint => .ok (isDocPrint cs)
  | unknown => .ok true

def signalOrder : List Intent :=
  [.loop, .branch, .arith, .concat, .roleFlag, .setVar, .bridge, .docPrint]

def firstSignalled (cs : List Char) : List Intent → Except UnknownCount Intent
  | [] => .ok .unknown
  | intent :: rest =>
    match intent.isSignalled cs with
    | .error e => .error e
    | .ok true => .ok intent
    | .ok false => firstSignalled cs rest

def inferIntent (cs : List Char) : Except UnknownCount Intent :=
  firstSignalled cs signalOrder

def holds (piece : String) (cs : List Char) : Bool :=
  (find? piece.toList cs).isSome

def assignsArithmetic (cs : List Char) : Bool :=
  match assignment? cs with
  | some a =>
    let e := lower a.source
    let padded := ' ' :: e ++ [' ']
    hasOperator e || holds " plus " padded || holds " minus " padded
  | none => hasOperator cs || (edge ++ words ["plus", "minus"] ++ edge).found cs

/-- The instruction from its last `print` on, or all of it. -/
def printSegment (cs : List Char) : List Char :=
  match findLast? "print ".toList (lower cs) with
  | some i => cs.drop i
  | none => cs

def assignStart : Pattern :=
  choice (["set", "create", "store"].map fun s => exactly s.toList) ++ blank

def refineLoop (intent : Intent) (low cs : List Char) (loopish : Bool) :
    Except UnknownCount Intent :=
  if intent != .loop then .ok intent
  else if "if ".toList.isPrefixOf low then .ok .branch
  else if loopish then .ok .loop
  else inferIntent cs

/-- An assignment is arithmetic exactly if what it assigns is. -/
def refineAssignment (intent : Intent) (low cs : List Char) : Intent :=
  if intent != .roleFlag && !isRoleFlag cs &&
      ((assignStart.matchStart low).isSome || embeddedSet.found cs) then
    if assignsArithmetic cs then .arith else .setVar
  else intent

/-- Forms that decide the intent whatever was found before; the later ones win. -/
def refineForm (intent : Intent) (low cs : List Char) (loopish : Bool) : Intent :=
  let assigns := assignVerb.found cs
  let intent := if concatVerb.found cs && 2 ≤ (allQuoted cs).length then .concat else intent
  let intent := if commentRequest.found cs && !assigns then .docPrint else intent
  let intent :=
    if (printStart.matchStart low).isSome && !assigns && !loopish then .docPrint else intent
  let intent :=
    if intent != .setVar && intent != .arith && cs.contains '+' &&
        printConcat.found (printSegment cs) then .concat
    else intent
  if "if ".toList.isPrefixOf low || (whenForm.matchStart (trim cs)).isSome ||
      (holds " else " low && holds "if " low) then .branch
  else intent

def refineIntent (intent : Intent) (cs : List Char) : Except UnknownCount Intent :=
  let low := lower (trim cs)
  match isLoop cs with
  | .error e => .error e
  | .ok loopish =>
    (refineLoop intent low cs loopish).map fun intent =>
      refineForm (refineAssignment intent low cs) low cs loopish

def defaultThreshold : Float := 0.35

/-- Whether a classifier's answer cannot be used: its label names no intent, or its score is too
low. -/
def isUnusable (label : Option String) (score threshold : Float) : Bool :=
  (label.bind Intent.ofLabel?).isNone || score < threshold

def resolveIntent (label : Option String) (score : Float) (cs : List Char) (threshold : Float) :
    Except UnknownCount Intent :=
  match label.bind Intent.ofLabel? with
  | some intent =>
    if score < threshold then (inferIntent cs).bind (refineIntent · cs) else refineIntent intent cs
  | none => (inferIntent cs).bind (refineIntent · cs)

end Scribe.Instruction
