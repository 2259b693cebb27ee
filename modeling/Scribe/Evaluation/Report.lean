import Scribe.Datum.Printer
import Scribe.Evaluation.Case
import Scribe.Evaluation.Table

/-!
# Reports on many cases

All cases of a file are evaluated, each as often as wanted. The figures go to a data file, the
single results to a table, and a summary is printed.
-/
namespace Scribe.Evaluation
open Run
variable {κ : Type}

def endedLines (cs : List Char) : List (List Char) :=
  let pieces := Text.lines cs
  (pieces.dropLast.map (· ++ ['\n'])) ++ (pieces.getLast?.filter (· != [])).toList

/-- The datum in a line. Its texts must be plain. -/
def readDatum (line : List Char) : Except Crash Datum :=
  match Datum.read line with
  | .error fault => .error (.ofData line fault)
  | .ok d =>
    match d.plain? with
    | some d => .ok d
    | none => .error .unpairedSurrogate

def readData (lines : List (List Char)) : Except Crash (List Datum) :=
  (lines.filter fun line => !(Text.trim line).isEmpty).mapM readDatum

/-- The data in a file. Lines are read one after the other, so a character that is cut off at the
end is noticed only behind the lines before it, and alone. -/
def readCases (files : Files) (path : String) : Except Crash (List Datum) :=
  match files.readBytes path with
  | .error fault => .error (.file fault)
  | .ok bytes =>
    match Text.Utf8.decode bytes with
    | .ok cs => readData (endedLines (Text.unifyLineEnds cs))
    | .error fault =>
      if fault.reason == .truncated then do
        let cs := (Text.Utf8.decode (bytes.take fault.start)).toOption.getD []
        let _ ← readData ((Text.lines (Text.unifyLineEnds cs)).dropLast.map (· ++ ['\n']))
        throw (.encoding { fault with start := 0, stop := fault.stop - fault.start })
      else .error (.encoding fault)

def heading (instruction : Datum) : Except CaseFault String :=
  match instruction with
  | .text s => .ok (String.ofList (s.toList.take 50))
  | .list items => .ok (Datum.list (items.take 50)).display
  | d => .error (.instructionUncut d.kind)

def checked {σ α : Type} (r : Except CaseFault α) : Task σ α :=
  Task.ofExcept Crash.case r

def evaluateRepeatedly (s : Subject) (classify : Classify κ) (c : Case) :
    (times : Nat) → Task (World κ) (List Result)
  | 0 => return []
  | n + 1 => do
    let r ← evaluateCase s classify c
    return r :: (← evaluateRepeatedly s classify c n)

def evaluateAll (s : Subject) (classify : Classify κ) (times total : Nat) :
    (number : Nat) → List Datum → Task (World κ) (List (List Result))
  | _, [] => return []
  | number, d :: rest => do
    let title ← checked (Case.instructionOf d >>= heading)
    World.printLine s!"Evaluating {number}/{total}: {title}..."
    let c ← checked (Case.ofDatum d)
    let results ← evaluateRepeatedly s classify c times
    return results :: (← evaluateAll s classify times total (number + 1) rest)

/-- The part of the cases whose repetitions all agree in `view`. -/
def consistency (view : Result → String) (repeated : List (List Result)) : Float :=
  if repeated.isEmpty then 1.0
  else
    ratio (repeated.countP fun rs => (rs.map view).eraseDups.length == 1) repeated.length

def consistencyFields (repeated : List (List Result)) : List (String × Datum) :=
  [("consistency_dsl_rate", .float (consistency (·.expansion.script) repeated)),
    ("consistency_output_rate",
      .float (consistency (fun r => "\n".intercalate r.output) repeated))]

def columns : Row :=
  ["instruction", "gold_intent", "pred_intent", "score", "used_fallback", "ok_intent",
    "ok_output", "pred_dsl", "output", "degradations", "latency_ms", "error"].map String.toList

/-- A number in a table; what is no number leaves its field empty. -/
def numberField (x : Float) : List Char :=
  if x.isNaN then [] else Decimal.text x

def truthField (b : Bool) : List Char :=
  (Datum.bool b).display.toList

def Result.row (r : Result) : Row :=
  [r.case.instruction.toList, r.case.wanted.display.toList, r.expansion.intent.label.toList,
    numberField r.expansion.score, truthField r.expansion.usedFallback, truthField r.intentRight,
    (r.outputRight.map truthField).getD [], r.expansion.script.toList,
    (" | ".intercalate r.output).toList, ("; ".intercalate r.expansion.degradations).toList,
    numberField r.duration, r.error.toList]

/-- The table of results; without results it has one empty row. -/
def resultTable (results : List Result) : Table :=
  if results.isEmpty then [[]] else columns :: results.map Result.row

def percent (x : Float) : String :=
  String.ofList (Decimal.fixed 1 (100.0 * x)) ++ "%"

def milliseconds (x : Float) : String :=
  String.ofList (Decimal.fixed 2 x) ++ "ms"

def intentLine (intent : String) (m : Marks) : String :=
  let rate := percent m.intentAccuracy
  let output := (m.outputAccuracy.map percent).getD "n/a"
  s!"  {intent}: {rate} intent, {output} output ({m.total} cases)"

def ruler (c : Char) (width : Nat) : String :=
  String.ofList (List.replicate width c)

def summaryLines (s : Summary) : List String :=
  let intents := percent s.overall.intentAccuracy
  let outputs := percent (s.overall.outputAccuracy.getD 0.0)
  let fallback := percent s.fallbackRate
  let half := milliseconds s.durations.median
  let most := milliseconds s.durations.ninthDecile
  ["", ruler '=' 60, "📈 EVALUATION SUMMARY", ruler '=' 60,
    s!"Total examples: {s.overall.total}",
    s!"Intent accuracy: {intents}",
    s!"Output accuracy: {outputs}",
    s!"Fallback rate: {fallback}",
    "",
    s!"Latency p50: {half}",
    s!"Latency p90: {most}",
    "", "📊 BY INTENT:"] ++
    s.byIntent.map (fun (intent, m) => intentLine intent m) ++
    ["", "✅ Evaluation complete!"]

structure Plan where
  casesPath : String
  model : String := heuristicName
  figuresPath : String := "out/metrics.json"
  tablePath : String := "out/predictions.csv"
  times : Int := 1
  threshold : Float := Instruction.defaultThreshold

def printLines (lines : List String) : Task (World κ) Unit :=
  lines.forM World.printLine

def Plan.announce (p : Plan) : Task (World κ) Unit :=
  let threshold := String.ofList (Decimal.text p.threshold)
  printLines ["🧪 Evaluation Harness", s!"Test data: {p.casesPath}",
    s!"Model: {p.model} (threshold {threshold})", ""]

def Plan.run (p : Plan) (classify : Classify κ) : Task (World κ) Unit := do
  p.announce
  let files := (← get).around.files
  let subject ← Task.ofExcept id (Subject.ofName files p.model p.threshold)
  let cases ← Task.ofExcept id (readCases files p.casesPath)
  World.printLine s!"Loaded {cases.length} test examples"
  let times := (max 1 p.times).toNat
  let repeated ← evaluateAll subject classify times cases.length 1 cases
  let results := repeated.filterMap List.head?
  printLines ["", s!"Completed evaluation of {results.length} examples"]
  let judged ← checked (results.mapM Result.judged)
  let summary := Summary.of judged
  let figures := Datum.object (summary.fields ++ detailFields judged ++ consistencyFields repeated)
  World.surroundings (Surroundings.write p.figuresPath figures.write)
  let figuresPath := Path.normalize p.figuresPath
  World.printLine s!"📊 Saved metrics: {figuresPath}"
  let table := String.ofList (resultTable results).write
  World.surroundings (Surroundings.write p.tablePath table)
  let tablePath := Path.normalize p.tablePath
  World.printLine s!"📝 Saved predictions: {tablePath}"
  printLines (summaryLines summary)

end Scribe.Evaluation
