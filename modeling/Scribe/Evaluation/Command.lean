import Scribe.CommandLine
import Scribe.Evaluation.Report

/-!
# The evaluation command
-/
namespace Scribe.Evaluation
open Run CommandLine
variable {κ : Type}

def grammar : Grammar where
  flags := []
  valued := ["--test", "--out", "--pred", "--model", "--threshold", "--repeat"]

def usage : String :=
  "usage: evaluate --test PATH [--out PATH] [--pred PATH] [--model PATH] [--threshold NUMBER] " ++
    "[--repeat NUMBER]"

def Plan.read (arguments : List String) : Except Stop Plan := do
  let c ← grammar.read arguments
  let threshold ← c.read? Decimal.read? "--threshold"
  let times ← c.read? Decimal.readInt? "--repeat"
  let some casesPath := c.value? "--test" | throw (.misuse (.required "--test"))
  let base : Plan := { casesPath }
  return { base with
    model := (c.value? "--model").getD base.model
    figuresPath := (c.value? "--out").getD base.figuresPath
    tablePath := (c.value? "--pred").getD base.tablePath
    times := times.getD base.times
    threshold := threshold.getD base.threshold }

def Plan.obstacle? (p : Plan) (files : Files) : Except FileFault (Option String) := do
  if !(← files.isThere (Path.normalize p.casesPath)) then
    return some s!"❌ Test file not found: {p.casesPath}"
  else if p.model == heuristicName then return none
  else if !(← files.isThere (Path.normalize p.model)) then
    return some s!"❌ Model not found: {p.model}"
  else return none

def command (classify : Classify κ) (arguments : List String) : Task (World κ) Nat := do
  match Plan.read arguments with
  | .error stop => stopWith usage stop
  | .ok plan =>
    match ← Task.ofExcept Crash.file (plan.obstacle? (← get).around.files) with
    | some line =>
      World.printLine line
      return 1
    | none =>
      plan.run classify
      return 0

end Scribe.Evaluation
