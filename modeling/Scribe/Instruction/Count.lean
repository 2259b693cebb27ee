import Scribe.Instruction.Quotes

/-!
# Repetition

`3 times`, `4x`, `twice` and `five times` ask for a number of repetitions, and what precedes the
count, less a verb, is what to repeat.
-/
namespace Scribe.Instruction
open Text Pattern

/-- A word that counts as a number word where case does not matter, and is none once it is put in
lower case. -/
structure UnknownCount where
  word : List Char
deriving DecidableEq, Repr

def numberWords : List (String × Nat) :=
  [("one", 1), ("two", 2), ("three", 3), ("four", 4), ("five", 5), ("six", 6), ("seven", 7),
    ("eight", 8), ("nine", 9), ("ten", 10), ("eleven", 11), ("twelve", 12)]

def multipliers : List (String × Nat) :=
  [("once", 1), ("twice", 2), ("thrice", 3)]

def timesWord : Pattern := word "time" ++ opt (word "s") ++ edge

def countDigits : Pattern := edge ++ group 1 digits ++ blanks ++ timesWord

def countCross : Pattern := edge ++ group 1 digits ++ blanks ++ word "x" ++ edge

def countMultiplier : Pattern := edge ++ group 1 (words (multipliers.map Prod.fst)) ++ edge

def countWord : Pattern :=
  edge ++ group 1 (words (numberWords.map Prod.fst)) ++ blanks1 ++ timesWord

def anyCount : Pattern :=
  edge ++ choice [digits ++ blanks ++ timesWord, digits ++ blanks ++ word "x" ++ edge,
    word "once" ++ edge, word "twice" ++ edge, word "thrice" ++ edge,
    words (numberWords.map Prod.fst) ++ blanks1 ++ timesWord]

def lookupCount (table : List (String × Nat)) (cs : List Char) : Except UnknownCount (Option Nat) :=
  match table.lookup (String.ofList (lower cs)) with
  | some n => .ok (some n)
  | none => .error ⟨lower cs⟩

/-- The number of repetitions that a text asks for, if it names one. A count in digits may be of any
length: a limit on the digits of a number, such as `Datum.mostDigits`, is not modelled here. -/
def loopCount (cs : List Char) : Except UnknownCount (Option Nat) :=
  let t := unwrap cs
  match countDigits.search t with
  | some m => .ok (some (numberOfDigits (m.group 1)))
  | none =>
    match countCross.search t with
    | some m => .ok (some (numberOfDigits (m.group 1)))
    | none =>
      match countMultiplier.search t with
      | some m => lookupCount multipliers (m.group 1)
      | none =>
        match countWord.search t with
        | some m => lookupCount numberWords (m.group 1)
        | none => .ok none

def showVerb : Pattern :=
  words ["show", "say", "print", "output", "echo", "display", "announce", "present", "reveal"]

/-- `Run 3 times: say hello`. -/
def runForm : Pattern :=
  atStart ++ word "run" ++ blanks1 ++ some1 nonBlank ++ blanks1 ++ word "time" ++
    opt (word "s") ++ blanks ++ char ':' ++ blanks ++ group 1 (some1 inLine) ++ atEnd

def messageFronts : List Pattern :=
  [words ["please", "kindly"] ++ blanks1,
    word "loop" ++ blanks ++ opt (char ':') ++ blanks,
    words ["repeat", "run"] ++ blanks1,
    showVerb ++ blanks1,
    word "the" ++ blanks1 ++ words ["phrase", "word", "text", "message"] ++ blanks1]

def countedHead (t : List Char) : List Char :=
  let head :=
    match anyCount.search t with
    | some m => trim m.before
    | none => trim t
  let head := messageFronts.foldl (fun head front => front.dropFront head) head
  payload (trim (dropEndWhile (fun c => c == ':' || c == ',') head))

/-- What a loop repeats: a quoted text, what follows `run … times:`, what stands before the count,
or else the whole text. -/
def loopMessage (cs : List Char) : List Char :=
  let t := unwrap cs
  let quoted := ((firstQuoted? t).map payload).getD []
  if !quoted.isEmpty then quoted
  else
    let run :=
      match runForm.matchStart (trim t) with
      | some m => payload ((showVerb ++ blanks1).dropFront (trim (m.group 1)))
      | none => []
    if !run.isEmpty then run
    else
      let head := countedHead t
      if head.isEmpty then payload t else head

def leastCount : Nat := 1

def mostCount : Nat := 12

def clampCount (n : Int) : Int :=
  max leastCount (min mostCount n)

end Scribe.Instruction
