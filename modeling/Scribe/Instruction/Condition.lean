import Scribe.Instruction.Quotes

/-!
# Conditions

An English comparison becomes a condition of the language: each phrase becomes an operator, and
words on its right become a string literal.
-/
namespace Scribe.Instruction
open Text Pattern

def maybeIs : Pattern := opt (word "is" ++ blanks1)

/-- Comparison phrases and their operators; longer phrases stand before their parts. -/
def comparisonPhrases : List (Pattern × String) :=
  [(edge ++ maybeIs ++ word "greater" ++ blanks1 ++ word "than" ++ blanks1 ++ word "or" ++
      blanks1 ++ word "equal" ++ blanks1 ++ word "to" ++ edge, " >= "),
    (edge ++ maybeIs ++ word "less" ++ blanks1 ++ word "than" ++ blanks1 ++ word "or" ++
      blanks1 ++ word "equal" ++ blanks1 ++ word "to" ++ edge, " <= "),
    (edge ++ maybeIs ++ word "at" ++ blanks1 ++ word "least" ++ edge, " >= "),
    (edge ++ maybeIs ++ word "at" ++ blanks1 ++ word "most" ++ edge, " <= "),
    (edge ++ maybeIs ++ words ["greater", "more", "higher", "bigger"] ++ blanks1 ++ word "than" ++
      edge, " > "),
    (edge ++ maybeIs ++ words ["less", "lower", "smaller", "fewer"] ++ blanks1 ++ word "than" ++
      edge, " < "),
    (edge ++ maybeIs ++ word "not" ++ blanks1 ++ word "equal" ++ blanks1 ++ word "to" ++ edge,
      " != "),
    (edge ++ word "does" ++ blanks1 ++ word "not" ++ blanks1 ++ word "equal" ++ edge, " != "),
    (edge ++ word "is" ++ blanks1 ++ word "not" ++ edge, " != "),
    (edge ++ maybeIs ++ word "equal" ++ blanks1 ++ word "to" ++ edge, " == "),
    (edge ++ word "equals" ++ edge, " == "),
    (edge ++ word "is" ++ edge, " == ")]

def comparisonSign : Pattern :=
  choice (["==", "!=", ">=", "<=", ">", "<"].map fun s => exactly s.toList)

def lonelyEquals : Pattern :=
  notBehind (fun c => "=!<>".toList.contains c) ++ char '=' ++ notAhead (char '=')

/-- An operator and the words on its right, as far as the next `and` or `or`. -/
def comparedWords : Pattern :=
  group 1 comparisonSign ++ blanks ++
    group 2 (name ++
      many (blanks1 ++ notAhead ((exactly "and".toList ||| exactly "or".toList) ++ edge) ++ name))

def literalSide (m : Match) : List Char :=
  let right := m.group 2
  m.group 1 ++ ' ' :: if isLiteralWord right then lower right else Script.quote right

def condition (cs : List Char) : List Char :=
  let c := trim (dropEndWhile (fun c => c == ',' || c == ':') (trim cs))
  let c := comparisonPhrases.foldl (fun c (phrase, op) => phrase.replace op c) c
  let c := lonelyEquals.replace "==" c
  let c := comparedWords.replaceWith literalSide c
  trim (blanks1.replace " " c)

end Scribe.Instruction
