import Scribe.Evaluation.Case
import Scribe.Proofs.Run.Crashes
import Scribe.Proofs.Run.Nesting
import Scribe.Proofs.Script.DraftReading

/-!
# What a case is judged by

A case runs on one machine, its setup script first. Whatever the setup expands, and whatever stands
in the script of the instruction, the expansion that is judged is the one that the instruction was
given; a note is added to it exactly if its script cannot be read.
-/
namespace Scribe.Evaluation
open Run Script

variable {κ : Type} {writer : String → Task (World κ) Expansion}
  {answers : String → Except Crash Expansion}

/-- A writer of scripts that answers an instruction in the same way each time. -/
def Answers (writer : String → Task (World κ) Expansion)
    (answers : String → Except Crash Expansion) : Prop :=
  ∀ instruction w, ∃ w', writer instruction w = (answers instruction, w')

theorem Answers.of_stage (h : Answers writer answers) (instruction : String) (st : Stage κ) :
    ∃ w, (caseHost writer).expand instruction st = (answers instruction, { st with world := w }) := by
  obtain ⟨w, hw⟩ := h instruction st.world
  exact ⟨w, by simp only [caseHost, Stage.zoom, Task.zoom, hw]⟩

def Buffered (st : Stage κ) : Prop := ∀ sink ∈ st.sinks, ∃ lines, sink = .buffer lines

def CrashOf (answers : String → Except Crash Expansion) (crash : Crash) : Prop :=
  ∃ instruction, answers instruction = .error crash

/-- Where lines go to buffers, they arrive. -/
theorem emitAll_buffered (line : String) {sinks : List Sink}
    (h : ∀ sink ∈ sinks, ∃ lines, sink = .buffer lines) (a : Surroundings) :
    (emitAll line sinks a).1.1 = .ok () ∧
      ∀ sink ∈ (emitAll line sinks a).2, ∃ lines, sink = .buffer lines := by
  induction sinks with
  | nil => exact ⟨rfl, h⟩
  | cons sink rest ih =>
    obtain ⟨⟨lines, rfl⟩, hrest⟩ := List.forall_mem_cons.mp h
    obtain ⟨hok, hafter⟩ := ih hrest
    exact ⟨hok, List.forall_mem_cons.mpr ⟨⟨_, rfl⟩, hafter⟩⟩

theorem caseHost_fails : (caseHost writer).Fails (fun _ => True) Buffered (CrashOf answers) where
  emit := by
    intro line st hst
    obtain ⟨hok, hafter⟩ := emitAll_buffered line hst st.world.around
    refine ⟨hafter, fun crash hcrash => ?_⟩
    cases hok.symm.trans hcrash
  classify := nofun

abbrev InCase : Session (Stage κ) → Prop := Session.Sound (fun _ => True) Buffered

section Ending
variable (h : Answers writer answers)
include h

theorem fails_expanded (allowance : Nat) (instruction : String) (line : Int) :
    (execExpand (caseHost writer) allowance instruction line).Fails InCase (CrashOf answers) := by
  refine caseHost_fails.upholds.nested (fun _ => trivial) (fun instruction => ?_) _ _ line
  refine Exec.world_fails fun st hst => ?_
  obtain ⟨w, hw⟩ := h.of_stage instruction st
  rw [hw]
  exact ⟨hst, fun crash hcrash => ⟨instruction, hcrash⟩⟩

theorem fails_setup (source : List Char) :
    (runSetup (caseHost writer) source).Fails InCase (CrashOf answers) := by
  have hchains : Task.Chains (fun _ : Session (Stage κ) => True)
      fun _ t => Task.Fails InCase (CrashOf answers) t := Task.Fails.chains fun _ _ => trivial
  refine hchains.seq (caseHost_fails.upholds.run (fun _ _ _ _ => trivial)
    fun _ _ _ instruction _ line => fails_expanded h _ instruction line) fun phase => ?_
  refine hchains.seq (fun s hs => ⟨⟨hs.1, ?_⟩, nofun⟩) fun _ => hchains.pure _
  intro sink hsink
  obtain ⟨sink', hsink', rfl⟩ := List.mem_map.mp hsink
  obtain ⟨lines, rfl⟩ := hs.2 sink' hsink'
  exact ⟨[], rfl⟩

theorem fails_case (c : Case) :
    (runCase (caseHost writer) c).Fails InCase (CrashOf answers) := by
  have hchains : Task.Chains (fun _ : Session (Stage κ) => True)
      fun _ t => Task.Fails InCase (CrashOf answers) t := Task.Fails.chains fun _ _ => trivial
  have hsetup : Task.Fails InCase (CrashOf answers) (c.setup.mapM (runSetup (caseHost writer))) := by
    cases c.setup with
    | none => exact hchains.pure none
    | some source => exact hchains.seq (fails_setup h source) fun _ => hchains.pure _
  refine hchains.seq hsetup fun _ => hchains.seq ?_ fun _ => hchains.pure _
  exact caseHost_fails.upholds.block (fun _ _ => trivial)
    fun _ instruction _ => fails_expanded h _ instruction _

end Ending

def scriptNotes (e : Expansion) : List String :=
  match parse e.script.toList with
  | .ok _ => []
  | .error fault => [rejectedNote fault]

theorem recorded_ok (within : List String) (instruction : String) (e : Expansion) :
    Call.recorded ⟨within, instruction, .ok e⟩ =
      [{ e with degradations := e.degradations ++ scriptNotes e }] := by
  cases hq : parse e.script.toList with
  | ok q => simp only [Call.recorded, scriptNotes, hq, List.append_nil]
  | error fault => simp only [Call.recorded, scriptNotes, hq]

/-- An instruction that has run has left its expansion behind all others. -/
theorem expansions_of_execute (h : Answers writer answers) {instruction : String}
    {s t : Session (Stage κ)}
    (hrun : execute (caseHost writer) 0 none [.expand 1 instruction] s = (.ok (), t)) :
    ∃ e, answers instruction = .ok e ∧ t.machine.expansions =
      s.machine.expansions ++ [{ e with degradations := e.degradations ++ scriptNotes e }] := by
  rw [execute_one] at hrun
  obtain ⟨w, hw⟩ := h.of_stage instruction s.world
  cases hanswer : answers instruction with
  | error crash =>
    rw [hanswer] at hw
    have hcrash := execExpand_crash hw 0 (reportedLine none 1)
    cases hrun.symm.trans hcrash
  | ok e =>
    have hcounts : (caseHost writer).Counts fun _ _ => True := ⟨by simp, by simp, by simp⟩
    obtain ⟨-, hleft⟩ := hcounts.makes_expand 1 instruction (reportedLine none 1) s [] trivial
    have hlast : execExpand (caseHost writer) 1 instruction (reportedLine none 1) s = (.ok (), t) :=
      hrun
    rw [hlast, expandCalls_one, hw, hanswer, List.flatMap_singleton, recorded_ok] at hleft
    exact ⟨e, rfl, hleft⟩

theorem lastExpansion_of_runCase (h : Answers writer answers) {c : Case} {setupOk : Bool}
    {s t : Session (Stage κ)} (hrun : runCase (caseHost writer) c s = (.ok setupOk, t)) :
    ∃ e, answers c.instruction = .ok e ∧ lastExpansion c t.machine =
      { e with degradations := e.degradations ++ scriptNotes e } := by
  obtain ⟨done, s₁, -, hrest⟩ := Task.bind_eq_ok hrun
  obtain ⟨⟨⟩, s₂, hexecute, hend⟩ := Task.bind_eq_ok hrest
  cases hend
  obtain ⟨e, he, hexpansions⟩ := expansions_of_execute h hexecute
  exact ⟨e, he, by rw [lastExpansion, hexpansions, List.getLast?_concat]; rfl⟩

def caseStart (w : World κ) : Session (Stage κ) := ⟨{}, ⟨w, [.buffer []]⟩⟩

theorem evaluateWith_crash {c : Case} {w : World κ} {crash : Crash} {t : Session (Stage κ)}
    (hrun : runCase (caseHost writer) c (caseStart w) = (.error crash, t)) :
    evaluateWith writer c w = (.error crash, t.world.world) := by
  unfold caseStart at hrun
  simp only [evaluateWith, hrun]

theorem evaluateWith_ok {c : Case} {w : World κ} {setupOk : Bool} {t : Session (Stage κ)}
    (hrun : runCase (caseHost writer) c (caseStart w) = (.ok setupOk, t)) :
    ∃ r, evaluateWith writer c w = (.ok r, t.world.world) ∧ r.case = c ∧
      r.expansion = lastExpansion c t.machine := by
  unfold caseStart at hrun
  let output := t.world.sinks.flatMap Sink.lines
  have hresult : evaluateWith writer c w =
      (.ok { case := c, expansion := lastExpansion c t.machine, output, setupOk },
        t.world.world) := by
    simp only [evaluateWith, hrun, output]
  exact ⟨_, hresult, rfl, rfl⟩

def Result.field? (r : Result) (name : String) : Option Datum :=
  match r.toDatum with
  | .object fields => Datum.field? fields name
  | _ => none

/-- A result reports an expansion: its intent, its label, its score, whether the words decided, its
script and its notes. -/
structure Result.Reports (r : Result) (e : Expansion) : Prop where
  intent : r.field? "pred_intent" = some (.text e.intent.label)
  label : r.field? "label" = some ((e.label.map Datum.text).getD .null)
  score : r.field? "score" = some (.float e.score)
  usedFallback : r.field? "used_fallback" = some (.bool e.usedFallback)
  script : r.field? "pred_dsl" = some (.text e.script)
  notes : r.field? "degradations" = some (Result.texts e.degradations)

theorem Result.reports (r : Result) : r.Reports r.expansion :=
  ⟨rfl, rfl, rfl, rfl, rfl, rfl⟩

/-- A case is judged by what its instruction is answered. Where the writer of scripts answers an
instruction in the same way each time, an evaluation ends unless the writer crashes, and it reports
the answer to the instruction of the case: whatever was expanded before, and whatever instructions
stand in the script. Behind the notes of the answer there is one that the script was rejected,
exactly if it cannot be read. -/
theorem evaluated_answer (h : Answers writer answers) (c : Case) (w : World κ) :
    (∀ crash w', evaluateWith writer c w = (.error crash, w') →
      ∃ instruction, answers instruction = .error crash) ∧
    ((∀ instruction, ∃ e, answers instruction = .ok e) →
      ∃ r w', evaluateWith writer c w = (.ok r, w')) ∧
    ∀ r w', evaluateWith writer c w = (.ok r, w') → ∃ e, answers c.instruction = .ok e ∧
      r.case = c ∧ r.Reports { e with degradations := e.degradations ++ scriptNotes e } := by
  have hstart : InCase (caseStart w) := ⟨nofun, by simp [caseStart, Buffered]⟩
  have hcrash := (fails_case h c (caseStart w) hstart).2
  cases hrun : runCase (caseHost writer) c (caseStart w) with
  | mk result t =>
    rw [hrun] at hcrash
    cases result with
    | error crash =>
      obtain ⟨instruction, hanswer⟩ := hcrash crash rfl
      rw [evaluateWith_crash hrun]
      refine ⟨?_, fun hall => ?_, ?_⟩
      · rintro _ _ ⟨⟩
        exact ⟨instruction, hanswer⟩
      · obtain ⟨e, he⟩ := hall instruction
        cases he.symm.trans hanswer
      · rintro _ _ ⟨⟩
    | ok setupOk =>
      obtain ⟨r, hresult, hcase, hexpansion⟩ := evaluateWith_ok hrun
      obtain ⟨e, he, hlast⟩ := lastExpansion_of_runCase h hrun
      rw [hresult]
      refine ⟨?_, fun _ => ⟨r, _, rfl⟩, ?_⟩
      · rintro _ _ ⟨⟩
      rintro _ _ ⟨⟩
      refine ⟨e, he, hcase, ?_⟩
      rw [← hlast, ← hexpansion]
      exact r.reports

/-- A writer whose scripts hold one more instruction, after a setup that expands one. -/
theorem evaluated_answer_nested :
    let writer (instruction : String) : Task (World Unit) Expansion :=
      pure ⟨instruction, .unknown, "macro from AI: again", none, 0.0, true, ["guessed"]⟩
    let c : Case := { instruction := "go", setup := some "macro from AI: begin".toList }
    ∃ r w', evaluateWith writer c ⟨{}, ()⟩ = (.ok r, w') ∧
      r.field? "pred_dsl" = some (.text "macro from AI: again") ∧
      r.field? "degradations" = some (Result.texts ["guessed"]) := by
  intro writer c
  have h : Answers writer fun instruction =>
      .ok ⟨instruction, .unknown, "macro from AI: again", none, 0.0, true, ["guessed"]⟩ :=
    fun _ w => ⟨w, rfl⟩
  have hread : parse "macro from AI: again".toList = .ok [.expand 1 "again"] :=
    parse_of_codeLine (Draft.codeLine_macro (t := "again".toList) (by decide))
  obtain ⟨-, hends, hreport⟩ := evaluated_answer h c ⟨{}, ()⟩
  obtain ⟨r, w', hrun⟩ := hends fun _ => ⟨_, rfl⟩
  obtain ⟨_, ⟨⟩, -, hreports⟩ := hreport r w' hrun
  have hnotes := hreports.notes
  simp only [scriptNotes, hread, List.append_nil] at hnotes
  exact ⟨r, w', hrun, hreports.script, hnotes⟩

end Scribe.Evaluation
