import Scribe.Proofs.Instruction.Rendering
import Scribe.Proofs.Run.Expanding
import Scribe.Proofs.Run.TameRun
import Scribe.Proofs.Script.Instructions

/-!
# Expanded instructions stay contained

Whatever the instruction says and whatever the classifier of intents answers, the script written
for an instruction of a script can only print, assign and choose among prints. So running it
selects no model, asks none and expands nothing further.
-/
namespace Scribe.Run
open Script Instruction

/-- What is written for an instruction of one line can only be read as a tame program. -/
theorem ofAnswer_tame {threshold : Float} {instruction : String} {answer : Expansion.Answer}
    {expansion : Expansion} {q : Program} (hone : Text.OneLine instruction.toList)
    (h : Expansion.ofAnswer threshold instruction answer = .ok expansion)
    (hq : parse expansion.script.toList = .ok q) : ∀ stmt ∈ q, stmt.Tame := by
  obtain ⟨ls, hls, hne, hscript⟩ := ofAnswer_lines hone h
  rw [hscript] at hq
  exact hls.tame hne hq

variable {σ : Type}

/-- A host whose scripts for an instruction are tame wherever they can be read. -/
def Host.Contains (h : Host σ) (instruction : String) : Prop :=
  ∀ w expansion w', h.expand instruction w = (.ok expansion, w') →
    ∀ q, parse expansion.script.toList = .ok q → ∀ stmt ∈ q, stmt.Tame

variable {h h' : Host σ} {instruction : String}

theorem execExpand_congr (hc : h.Contains instruction) (he : h.emit = h'.emit)
    (hx : h.expand = h'.expand) (n m : Nat) (line : Int) :
    execExpand h (n + 1) instruction line = execExpand h' (m + 1) instruction line := by
  funext s
  cases hrun : h.expand instruction s.world with
  | mk result w =>
    have hrun' : h'.expand instruction s.world = (result, w) := hx ▸ hrun
    cases result with
    | error crash => rw [execExpand_crash hrun, execExpand_crash hrun']
    | ok expansion =>
      cases hq : parse expansion.script.toList with
      | ok q =>
        rw [execExpand_read hrun hq, execExpand_read hrun' hq,
          execBlock_tame_congr he (hc _ _ _ hrun q hq)]
      | error fault =>
        rw [execExpand_rejected hrun hq, execExpand_rejected hrun' hq, emit_congr he]

theorem keeps_execExpand (hc : h.Contains instruction) (n : Nat) (line : Int) :
    Task.Keeps Session.activeModel (execExpand h (n + 1) instruction line) := by
  intro s
  cases hrun : h.expand instruction s.world with
  | mk result w =>
    cases result with
    | error crash =>
      rw [execExpand_crash hrun]
      rfl
    | ok expansion =>
      cases hq : parse expansion.script.toList with
      | ok q =>
        rw [execExpand_read hrun hq]
        exact keeps_tame (hc _ _ _ hrun q hq) _
      | error fault =>
        rw [execExpand_rejected hrun hq]
        exact keeps_activeModel (keeps_emit h _) _

theorem contains_of_occurs {source : List Char} {program : Program} {line : Nat}
    {classify : Option (String → String → Task σ (Except ClassifierError Verdict))}
    {modelPath : String} {threshold : Float} {trace : String → String → Task σ Unit}
    (hp : parse source = .ok program) (ho : Occurs (.expand line instruction) program)
    (hx : h.expand = expandWith classify modelPath threshold trace) : h.Contains instruction := by
  intro w expansion w' hrun q hq
  rw [hx] at hrun
  obtain ⟨answer, hanswer⟩ := ofAnswer_of_expandWith hrun
  exact ofAnswer_tame (oneLine_of_expand hp ho) hanswer hq

/-- Running one instruction at the top of a script. -/
theorem execute_expand_run (h : Host σ) (hd : 1 ≤ h.maxDepth) (origin : Option Int) (line : Nat)
    (instruction : String) : ∃ n, execute h 0 origin [.expand line instruction] =
      execExpand h (n + 1) instruction (reportedLine origin line) >>= fun _ => pure () := by
  refine ⟨h.maxDepth.toNat - 1, ?_⟩
  have hn : (h.maxDepth - 0).toNat = h.maxDepth.toNat - 1 + 1 := by omega
  simp only [execute, execBlock, execStmt, hn]

theorem macro_contained {source : List Char} {program : Program} {line : Nat}
    (hp : parse source = .ok program) (ho : Occurs (.expand line instruction) program)
    (threshold : Float) :
    (∀ answer expansion q, Expansion.ofAnswer threshold instruction answer = .ok expansion →
      parse expansion.script.toList = .ok q →
      (∀ stmt ∈ q, stmt.Tame) ∧
      ∀ (h : Host σ) (k k' : String → Int → Exec σ Unit) (origin : Option Int),
        execBlock h k origin q = execBlock h k' origin q) ∧
    ∀ (h : Host σ) (classify : Option (String → String → Task σ (Except ClassifierError Verdict)))
      (modelPath : String) (trace : String → String → Task σ Unit),
      h.expand = expandWith classify modelPath threshold trace → 1 ≤ h.maxDepth →
      ∀ (origin : Option Int) (s : Session σ),
        (execute h 0 origin [.expand line instruction] s).2.machine.activeModel =
          s.machine.activeModel ∧
        (∀ other, execute { h with classify := other } 0 origin [.expand line instruction] s =
          execute h 0 origin [.expand line instruction] s) ∧
        ∀ depth, 1 ≤ depth →
          execute { h with maxDepth := depth } 0 origin [.expand line instruction] s =
            execute h 0 origin [.expand line instruction] s := by
  refine ⟨fun answer expansion q hanswer hq => ?_, fun h classify modelPath trace hx hd origin s => ?_⟩
  · have htame := ofAnswer_tame (oneLine_of_expand hp ho) hanswer hq
    exact ⟨htame, fun h k k' origin => execBlock_tame_congr rfl htame⟩
  · have hc : h.Contains instruction := contains_of_occurs hp ho hx
    have hsame (h' : Host σ) (he : h.emit = h'.emit) (hx' : h.expand = h'.expand)
        (hd' : 1 ≤ h'.maxDepth) : execute h' 0 origin [.expand line instruction] s =
          execute h 0 origin [.expand line instruction] s := by
      obtain ⟨n, hn⟩ := execute_expand_run h hd origin line instruction
      obtain ⟨m, hm⟩ := execute_expand_run h' hd' origin line instruction
      rw [hn, hm, execExpand_congr hc he hx' n m]
    refine ⟨?_, fun other => hsame _ rfl rfl hd, fun depth hdepth => hsame _ rfl rfl hdepth⟩
    obtain ⟨n, hn⟩ := execute_expand_run h hd origin line instruction
    rw [hn]
    exact ((keeps_execExpand hc n _).bind fun _ => .pure _) s

theorem macro_contained_echo :
    let h := host {} classifyByModel
    let start : Session (Stage Cache) := ⟨{ activeModel := some "m" }, ⟨⟨{}, {}⟩, [.buffer []]⟩⟩
    parse "macro from AI: AI: \"other\"".toList = .ok [.expand 1 "AI: \"other\""] ∧
      (execute h 0 none [.expand 1 "AI: \"other\""] start).2.machine.activeModel = some "m" := by
  have hp : parse "macro from AI: AI: \"other\"".toList = .ok [.expand 1 "AI: \"other\""] := rfl
  intro h start
  exact ⟨hp, ((macro_contained hp .head defaultThreshold).2 h _ _ _ (host_expand _ _) (by decide)
    none start).1⟩

end Scribe.Run
