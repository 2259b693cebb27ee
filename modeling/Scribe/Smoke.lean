import Scribe.Evaluation.Report
import Scribe.Settings
import Scribe.CommandLine
import Scribe.Smoke.Corpus

/-!
# The smoke test

The instructions of the corpus are expanded and run one by one, and shown with what came of them.
A crash fails the trial and not the test. Then the faulty scripts are run, each of which must
lead to a diagnostic.
-/
namespace Scribe.Smoke
open Run
variable {κ : Type}

/-- A text on one line, cut to a width; of a width below three the end is cut instead. -/
def shorten (width : Int) (cs : List Char) : List Char :=
  let line := Text.replace ['\n'] " \\n ".toList cs
  if (line.length : Int) ≤ width then line
  else
    let kept := if 3 ≤ width then (width - 3).toNat else line.length - (3 - width).toNat
    line.take kept ++ "...".toList

def defaultWidth : Int := 80

inductive Outcome where
  | ran (ok : Bool) (expansion : Option Expansion) (output : List String) (duration : Float)
  | crashed (crash : Crash)

def isDiagnostic (line : String) : Bool :=
  line.toList.head? == some '❌'

def Trial.source (t : Trial) : String :=
  let call := "macro from AI: " ++ t.instruction
  if t.setup == "" then call else t.setup ++ "\n" ++ call

def Trial.run (t : Trial) (c : Config) (classify : Classify κ) : Task (World κ) Outcome :=
  fun w =>
    match Run.run c classify [] t.source.toList w with
    | (.error crash, w) => (.ok (.crashed crash), w)
    | (.ok (report, _), w) =>
      let ok := report.ok && !report.output.any isDiagnostic
      (.ok (.ran ok report.expansions.getLast? report.output 0.0), w)

def shortened (text : String) : String :=
  String.ofList (shorten defaultWidth text.toList)

def listText (lines : List String) : String :=
  (Evaluation.Result.texts lines).display

def milliseconds (seconds : Float) : String :=
  Evaluation.milliseconds (seconds * 1000.0)

def successLines (e : Expansion) (output : List String) (duration : Float) : List String :=
  let score := Expansion.fixedString 2 e.score
  let source := if e.usedFallback then "keyword fallback" else s!"classifier {score}"
  let script := shortened e.script
  let lines := listText output
  let time := milliseconds duration
  [s!"   Intent: {e.intent.label} ({source})", s!"   DSL: {script}", s!"   Output: {lines}"] ++
    e.degradations.map (fun note => s!"   ⚠️  {note}") ++ [s!"   Time: {time}"]

def Outcome.lines (o : Outcome) (number : Nat) (t : Trial) : List String × Bool :=
  let bad := ["", s!"{number}. ❌ {t.instruction}"]
  match o with
  | .ran true (some e) output duration =>
    (["", s!"{number}. ✅ {t.instruction}"] ++ successLines e output duration, true)
  | .ran _ _ output _ =>
    let lines := listText output
    (bad ++ [s!"   Output: {lines}"], false)
  | .crashed crash => (bad ++ [s!"   Error: {crash.kindName}: {crash.message}"], false)

def Outcome.duration : Outcome → Float
  | .ran true _ _ duration => duration
  | _ => 0.0

structure Score where
  allWell : Bool := true
  trials : Nat := 0
  duration : Float := 0.0

def runTrials (c : Config) (classify : Classify κ) (score : Score) :
    List (Trial × Nat) → Task (World κ) Score
  | [] => return score
  | (t, i) :: rest => do
    let outcome ← t.run c classify
    let (lines, well) := outcome.lines (i + 1) t
    Evaluation.printLines lines
    runTrials c classify
      { allWell := score.allWell && well, trials := score.trials + 1,
        duration := score.duration + outcome.duration } rest

def heading (symbol title : String) (count : Nat) : List String :=
  ["", s!"{symbol} {title} ({count} total)", Evaluation.ruler '-' 40]

def runGroups (c : Config) (classify : Classify κ) (score : Score) :
    List Group → Task (World κ) Score
  | [] => return score
  | g :: rest => do
    Evaluation.printLines (heading "📊" (g.name ++ " Macros") g.trials.length)
    let score ← runTrials c classify score g.trials.zipIdx
    runGroups c classify score rest

def runFaulty (c : Config) (classify : Classify κ) : List (String × Nat) → Task (World κ) Bool
  | [] => return true
  | (source, i) :: rest => do
    let (report, _) ← Run.run c classify [] source.toList
    let title := shortened source
    match report.output.find? isDiagnostic with
    | some line =>
      Evaluation.printLines ["", s!"{i + 1}. ✅ {title}", s!"   Expected error: {line}"]
      runFaulty c classify rest
    | none =>
      Evaluation.printLines ["", s!"{i + 1}. ❌ {title}",
        "   UNEXPECTED SUCCESS - should have reported an error!"]
      let _ ← runFaulty c classify rest
      return false

def summaryLines (score : Score) : List String :=
  let whole := milliseconds score.duration
  let average := Evaluation.milliseconds (score.duration * 1000.0 / score.trials.toFloat)
  ["", Evaluation.ruler '=' 80, "📈 Summary", s!"  Total macros: {score.trials}",
    s!"  Total time: {whole}", s!"  Average time: {average}",
    s!"  Error cases handled: {faultyScripts.length}"]

def runAll (c : Config) (classify : Classify κ) : Task (World κ) Bool := do
  let threshold := String.ofList (Decimal.text c.threshold)
  Evaluation.printLines ["🧬 Macro Smoke Test Runner", s!"Macro model: {c.modelPath}",
    s!"Threshold: {threshold}", Evaluation.ruler '=' 80]
  let score ← runGroups c classify {} groups
  Evaluation.printLines (heading "🚫" "Error Cases" faultyScripts.length)
  let refused ← runFaulty c classify faultyScripts.zipIdx
  Evaluation.printLines (summaryLines score)
  let well := score.allWell && refused
  World.printLine (if well then "🎉 All tests passed!"
    else "⚠️  Some tests failed - check output above")
  return well

open CommandLine in
def grammar : Grammar where
  flags := []
  valued := ["--model", "--threshold"]

def usage : String := "usage: smoke [--model PATH] [--threshold NUMBER]"

structure Request where
  model : String := "models/intent_macro/model.json"
  threshold : Option Float := none

def Request.read (arguments : List String) : Except CommandLine.Stop Request := do
  let c ← grammar.read arguments
  let threshold ← c.read? Decimal.read? "--threshold"
  let base : Request := {}
  return { model := (c.value? "--model").getD base.model, threshold }

def command (env : Variables) (classify : Classify κ) (arguments : List String) :
    Task (World κ) Nat := do
  match Request.read arguments with
  | .error stop => CommandLine.stopWith usage stop
  | .ok request =>
    let settings ← World.surroundings (Settings.load env Settings.defaultFile)
    let files := (← get).around.files
    let threshold := request.threshold.getD settings.config.threshold
    let heuristic := request.model == Evaluation.heuristicName
    let ready ←
      if heuristic then pure true
      else Task.ofExcept Crash.file (files.isThere (Path.normalize request.model))
    if ready then
      let modelPath := if heuristic then "" else request.model
      let well ← runAll { settings.config with threshold, modelPath } classify
      return if well then 0 else 1
    else
      Evaluation.printLines [s!"❌ Model not found: {request.model}",
        "Run with --model heuristic to use the keyword fallback only"]
      return 1

end Scribe.Smoke
