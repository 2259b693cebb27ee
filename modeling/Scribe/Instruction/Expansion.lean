import Scribe.Classifier.Basic
import Scribe.Decimal.Layout
import Scribe.Instruction.Template

/-!
# Expansions

An instruction is expanded into script text: a classifier's answer, or the words of the
instruction, give its intent, and the template of that intent writes the script. Whatever goes
wrong on the way is noted, and a safe default is taken.
-/
namespace Scribe
open Instruction Text

structure Expansion where
  instruction : String
  intent : Intent
  script : String
  label : Option String := none
  score : Float := 0.0
  usedFallback : Bool := false
  degradations : List String := []
deriving DecidableEq

namespace Expansion

inductive Answer where
  | verdict (v : Verdict)
  | failed (error : ClassifierError)
  | absent
deriving DecidableEq

def Answer.label? : Answer → Option String
  | verdict v => some v.label
  | _ => none

def Answer.score : Answer → Float
  | verdict v => v.score
  | _ => 0.0

def fixedString (places : Nat) (x : Float) : String :=
  String.ofList (Decimal.fixed places x)

def Answer.notes (answer : Answer) (threshold : Float) : List String :=
  match answer with
  | .absent => ["macro classifier not configured, used keyword fallback"]
  | .failed error => [s!"macro classifier failed ({error.message}), used keyword fallback"]
  | .verdict v =>
    if (Intent.ofLabel? v.label).isNone then
      let name := Text.quoted v.label
      [s!"unknown classifier label {name}, used keyword fallback"]
    else if v.score < threshold then
      let score := fixedString 2 v.score
      let least := fixedString 2 threshold
      [s!"score {score} below threshold {least}, used keyword fallback"]
    else []

/-- The script for an intent; an empty instruction is echoed. -/
def scriptFor (intent : Intent) (text : List Char) : Except UnknownCount Rendering :=
  if (trim text).isEmpty then .ok ⟨echo text, ["empty instruction"]⟩ else render intent text

abbrev Trace := String × String

def answerTrace (answer : Answer) (text : List Char) : Trace :=
  let label := answer.label?.getD "None"
  let score := fixedString 3 answer.score
  ("INTENT", s!"label={label} score={score} | " ++ String.ofList text)

def ofAnswer (threshold : Float) (instruction : String) (answer : Answer) :
    Except UnknownCount Expansion :=
  let text := unwrap instruction.toList
  let label := answer.label?
  match resolveIntent label answer.score text threshold with
  | .error e => .error e
  | .ok intent =>
    (scriptFor intent text).map fun r =>
      { instruction, intent, script := String.ofList r.script, label, score := answer.score,
        usedFallback := isUnusable label answer.score threshold,
        degradations := answer.notes threshold ++ r.notes }

def traces (e : Expansion) : List Trace :=
  (if e.usedFallback then [("FALLBACK", e.intent.label)] else []) ++ [("DSL", e.script)]

end Expansion
end Scribe
