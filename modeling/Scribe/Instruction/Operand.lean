import Scribe.Instruction.Quotes

/-!
# Right-hand sides

What an instruction assigns becomes an expression of the language: a literal, a variable, or
arithmetic written with signs or with words.
-/
namespace Scribe.Instruction
open Text Pattern

/-- A second assignment, such as `and b =`. -/
def embeddedAssignment : Pattern :=
  blanks1 ++ word "and" ++ blanks1 ++ anyName ++ blanks ++ char '='

/-- Cuts a text where `marker` first occurs in its lower-case form. -/
def cutAtLower (marker : String) (cs : List Char) : List Char :=
  match find? marker.toList (lower cs) with
  | some i => trim (cs.take i)
  | none => cs

def cleanOperand (cs : List Char) : List Char :=
  let e := trim (dropEndWhile (· == ',') (trim cs))
  let e :=
    match embeddedAssignment.search e with
    | some m => trim m.before
    | none => e
  let e := cutAtLower ", then" e
  trim (dropEndWhile (fun c => c == ',' || c == '.') e)

/-- A single value: a number, a literal word, a variable, or else a string literal. -/
def singleValue (cs : List Char) : List Char :=
  let value := unwrap (payload cs)
  if value.isEmpty then "\"\"".toList
  else if isNumber value then value
  else if isLiteralWord value then lower value
  else if isName value && !cs.any isQuote then value
  else Script.quote value

def arithmeticWords : List (Pattern × String) :=
  [(edge ++ word "multiplied" ++ blanks1 ++ word "by" ++ edge, "*"),
    (edge ++ word "divided" ++ blanks1 ++ word "by" ++ edge, "/"),
    (edge ++ word "plus" ++ edge, "+"),
    (edge ++ word "minus" ++ edge, "-"),
    (edge ++ word "times" ++ edge, "*"),
    (edge ++ word "mod" ++ opt (word "ulo") ++ edge, "%")]

/-- `base ** exponent`, up to the end. -/
def power : Pattern :=
  atStart ++ group 1 (lazySome1 inLine) ++ blanks ++ exactly "**".toList ++ blanks ++
    group 2 digits ++ atEnd

def mostFactors : Nat := 8

def powerProduct (base : List Char) (exponent : Nat) : List Char :=
  match min exponent mostFactors with
  | 0 => ['1']
  | 1 => requote base
  | n => join " * ".toList (List.replicate n ('(' :: requote base ++ [')']))

/-- Arithmetic words as signs, unless a quoted text occurs. -/
def arithmeticSigns (e : List Char) : List Char :=
  if quotedText.found e then e
  else arithmeticWords.foldl (fun e (phrase, sign) => phrase.replace sign e) e

/-- The right-hand side of an assignment as an expression of the language. An exponent may be of any
length: a limit on the digits of a number, such as `Datum.mostDigits`, is not modelled here. -/
def operandExpr (cs : List Char) : List Char :=
  let e := cleanOperand cs
  match power.matchStart e with
  | some m => powerProduct (trim (m.group 1)) (numberOfDigits (m.group 2))
  | none =>
    let e := arithmeticSigns e
    if hasOperator e then requote e else singleValue e

end Scribe.Instruction
