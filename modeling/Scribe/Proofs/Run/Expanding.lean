import Scribe.Proofs.Instruction.Totality
import Scribe.Proofs.Run.Tasks
import Scribe.Run.Engine

/-!
# Running one instruction

What running an instruction does is decided by what the writer of scripts returns: its script runs
in place of the instruction, or the instruction is emitted if the script cannot be read. The
writer itself answers whenever the classifier of intents does and an expansion exists.
-/
namespace Scribe.Run
open Script Instruction

variable {σ : Type} {h : Host σ} {instruction : String} {s : Session σ} {w : σ}

def Machine.record (m : Machine) (expansion : Expansion) : Machine :=
  { m with expansions := m.expansions ++ [expansion] }

def Machine.note (m : Machine) (note : String) : Machine :=
  { m with expansions := noteLast note m.expansions }

theorem execExpand_crash {crash : Crash} (hx : h.expand instruction s.world = (.error crash, w))
    (n : Nat) (line : Int) :
    execExpand h (n + 1) instruction line s = (.error crash, { s with world := w }) := by
  rw [execExpand, Task.bind_of_error (Exec.world_of hx)]

theorem execExpand_read {expansion : Expansion} {q : Program}
    (hx : h.expand instruction s.world = (.ok expansion, w))
    (hq : parse expansion.script.toList = .ok q) (n : Nat) (line : Int) :
    execExpand h (n + 1) instruction line s =
      execBlock h (execExpand h n) (some line) q ⟨s.machine.record expansion, w⟩ := by
  rw [execExpand, Task.bind_of_ok (Exec.world_of hx), Task.bind_of_ok (Exec.change_run _ _), hq]
  rfl

def rejectedNote (fault : Fault) : String :=
  s!"synthesized DSL rejected ({fault.text}), echoed instruction"

/-- A script that cannot be read is replaced by the instruction. -/
theorem execExpand_rejected {expansion : Expansion} {fault : Fault}
    (hx : h.expand instruction s.world = (.ok expansion, w))
    (hq : parse expansion.script.toList = .error fault) (n : Nat) (line : Int) :
    execExpand h (n + 1) instruction line s =
      emit h (String.ofList (unwrap instruction.toList))
        ⟨(s.machine.record expansion).note (rejectedNote fault), w⟩ := by
  rw [execExpand, Task.bind_of_ok (Exec.world_of hx), Task.bind_of_ok (Exec.change_run _ _), hq]
  rfl

section Writer
variable {classify : Option (String → String → Task σ (Except ClassifierError Verdict))}
  {modelPath : String} {threshold : Float} {trace : String → String → Task σ Unit}
  {expansion : Expansion}

/-- Whatever is expanded comes from some answer of the classifier of intents. -/
theorem ofAnswer_of_expandWith {w' : σ}
    (hx : expandWith classify modelPath threshold trace instruction w = (.ok expansion, w')) :
    ∃ answer, Expansion.ofAnswer threshold instruction answer = .ok expansion := by
  unfold expandWith at hx
  obtain ⟨answer, w₁, -, hx⟩ := Task.bind_eq_ok hx
  unfold expandAnswered at hx
  obtain ⟨-, w₂, -, hx⟩ := Task.bind_eq_ok hx
  cases hanswer : Expansion.ofAnswer threshold instruction answer with
  | error word =>
    rw [hanswer] at hx
    cases hx
  | ok expansion' =>
    rw [hanswer] at hx
    obtain ⟨-, w₃, -, hx⟩ := Task.bind_eq_ok hx
    cases hx
    exact ⟨answer, hanswer⟩

def answerOf : Except ClassifierError Verdict → Expansion.Answer
  | .ok verdict => .verdict verdict
  | .error error => .failed error

theorem askIntent_cases
    (classify : Option (String → String → Task σ (Except ClassifierError Verdict)))
    (modelPath : String) (text : List Char) :
    askIntent classify modelPath text = pure .absent ∨
      ∃ f, classify = some f ∧ askIntent classify modelPath text =
        f modelPath (String.ofList text) >>= fun result => pure (answerOf result) := by
  cases classify with
  | none => exact .inl rfl
  | some f =>
    rw [askIntent]
    split
    · exact .inl rfl
    · refine .inr ⟨f, rfl, ?_⟩
      congr 1
      funext result
      cases result with
      | ok verdict => rfl
      | error error => rfl

/-! A judgement on tasks that holds of the classifier and of the trace holds of the writer. -/

section Judgement
variable {I : σ → Prop} {J : (α : Type) → Task σ α → Prop} (hJ : Task.Chains I J)
include hJ

theorem chains_traceAll (ht : ∀ heading content, J Unit (trace heading content))
    (records : List Expansion.Trace) : J Unit (traceAll trace records) := by
  induction records with
  | nil => exact hJ.pure ()
  | cons record rest ih =>
    rw [traceAll]
    exact hJ.seq (ht record.1 record.2) fun _ => ih

theorem chains_askIntent (hc : ∀ f, classify = some f → ∀ text, J _ (f modelPath text))
    (text : List Char) : J _ (askIntent classify modelPath text) := by
  obtain hnone | ⟨f, hf, hask⟩ := askIntent_cases classify modelPath text
  · rw [hnone]
    exact hJ.pure _
  · rw [hask]
    exact hJ.seq (hc f hf _) fun _ => hJ.pure _

/-- It must hold of the crash too with which the writer ends where there is no expansion. -/
theorem chains_expandWith (hc : ∀ f, classify = some f → ∀ text, J _ (f modelPath text))
    (ht : ∀ heading content, J Unit (trace heading content))
    (hcrash : ∀ answer word, Expansion.ofAnswer threshold instruction answer = .error word →
      J Expansion (throw (.unknownCount word))) :
    J Expansion (expandWith classify modelPath threshold trace instruction) := by
  rw [expandWith]
  refine hJ.seq (chains_askIntent hJ hc _) fun answer => ?_
  rw [expandAnswered]
  refine hJ.seq (chains_traceAll hJ ht _) fun _ => ?_
  split
  · exact hcrash answer _ ‹_›
  · exact hJ.seq (chains_traceAll hJ ht _) fun _ => hJ.pure _

end Judgement

theorem traceAll_returns (ht : ∀ heading content, (trace heading content).Returns)
    (records : List Expansion.Trace) : (traceAll trace records).Returns :=
  chains_traceAll (Task.Returns.chains fun _ => trivial) ht records

theorem askIntent_returns
    (hc : ∀ f, classify = some f → ∀ model text, (f model text).Returns) (text : List Char) :
    (askIntent classify modelPath text).Returns :=
  chains_askIntent (Task.Returns.chains fun _ => trivial) (fun f hf => hc f hf _) text

/-- Where the trace can be kept, an answer gives the expansion that it stands for. -/
theorem expandWith_ok (ht : ∀ heading content, (trace heading content).Returns)
    {answer : Expansion.Answer} {w₁ : σ}
    (ha : askIntent classify modelPath (unwrap instruction.toList) w = (.ok answer, w₁))
    (hx : Expansion.ofAnswer threshold instruction answer = .ok expansion) :
    ∃ w', expandWith classify modelPath threshold trace instruction w = (.ok expansion, w') := by
  obtain ⟨_, w₂, h₂⟩ := traceAll_returns ht
    [Expansion.answerTrace answer (unwrap instruction.toList)] w₁
  obtain ⟨_, w₃, h₃⟩ := traceAll_returns ht expansion.traces w₂
  refine ⟨w₃, ?_⟩
  rw [expandWith, Task.bind_of_ok ha, expandAnswered, Task.bind_of_ok h₂, hx]
  exact Task.bind_of_ok h₃

theorem expandWith_error (ht : ∀ heading content, (trace heading content).Returns)
    {answer : Expansion.Answer} {word : UnknownCount} {w₁ : σ}
    (ha : askIntent classify modelPath (unwrap instruction.toList) w = (.ok answer, w₁))
    (hx : Expansion.ofAnswer threshold instruction answer = .error word) :
    ∃ w', expandWith classify modelPath threshold trace instruction w =
      (.error (.unknownCount word), w') := by
  obtain ⟨_, w₂, h₂⟩ := traceAll_returns ht
    [Expansion.answerTrace answer (unwrap instruction.toList)] w₁
  refine ⟨w₂, ?_⟩
  rw [expandWith, Task.bind_of_ok ha, expandAnswered, Task.bind_of_ok h₂, hx]
  rfl

/-- What the classifier and the trace keep is kept. -/
theorem keeps_expandWith {γ : Type} {part : σ → γ}
    (hc : ∀ f, classify = some f → ∀ model text, (f model text).Keeps part)
    (ht : ∀ heading content, (trace heading content).Keeps part)
    (modelPath : String) (threshold : Float) (instruction : String) :
    (expandWith classify modelPath threshold trace instruction).Keeps part :=
  chains_expandWith (Task.Keeps.chains part fun _ => trivial) (fun f hf => hc f hf _) ht
    fun _ _ _ _ => rfl

/-- A classifier that only answers or fails, and a trace that can be kept, leave one way in which
an instruction is not expanded: its count cannot be looked up. Numbers in digits are read whatever
their length, as `Instruction.loopCount` and `Instruction.operandExpr` say. -/
theorem synthesis_total_iff
    (hc : ∀ f, classify = some f → ∀ model text, (f model text).Returns)
    (ht : ∀ heading content, (trace heading content).Returns)
    (modelPath : String) (threshold : Float) (instruction : String) (w : σ) :
    ((∃ expansion w', expandWith classify modelPath threshold trace instruction w =
      (.ok expansion, w')) ↔ ¬StrayCount (unwrap instruction.toList)) ∧
    (StrayCount (unwrap instruction.toList) →
      ∃ word w', expandWith classify modelPath threshold trace instruction w =
        (.error (.unknownCount word), w')) ∧
    (∀ cs, (∃ intent, inferIntent cs = .ok intent) ↔ ¬StrayCount (unwrap cs)) ∧
    ∀ intent cs, (∃ r, render intent cs = .ok r) ↔ ¬(intent = .loop ∧ StrayCount (unwrap cs)) := by
  obtain ⟨answer, w₁, ha⟩ : ∃ answer w₁,
      askIntent classify modelPath (unwrap instruction.toList) w = (.ok answer, w₁) :=
    askIntent_returns hc (unwrap instruction.toList) w
  have hstray (h : StrayCount (unwrap instruction.toList)) : ∃ word w',
      expandWith classify modelPath threshold trace instruction w =
        (.error (.unknownCount word), w') := by
    obtain ⟨word, hword⟩ := (ofAnswer_error_iff threshold instruction answer).mpr
      ((loopCount_error_iff _).mpr h)
    exact ⟨word, expandWith_error ht ha hword⟩
  refine ⟨⟨?_, fun h => ?_⟩, hstray, inferIntent_ok_iff, render_ok_iff⟩
  · rintro ⟨expansion, w', hx⟩ h
    obtain ⟨word, w₂, hword⟩ := hstray h
    rw [hx] at hword
    cases hword
  · obtain ⟨expansion, hx⟩ := (ofAnswer_ok_iff threshold instruction answer).mpr h
    exact ⟨expansion, expandWith_ok ht ha hx⟩

theorem synthesis_total_iff_six :
    let expand : String → Task Unit Expansion := expandWith none "" 0.35 fun _ _ => pure ()
    (∃ expansion w', expand "print 'hi' six times" () = (.ok expansion, w')) ∧
      ∃ word w', expand "print 'hi' ſix times" () = (.error (.unknownCount word), w') := by
  have hsix : ¬StrayCount (unwrap "print 'hi' six times".toList) := by
    rw [← loopCount_error_iff, ← Outcome.exists_ok_iff]
    exact ⟨some 6, rfl⟩
  have hlong : StrayCount (unwrap "print 'hi' ſix times".toList) :=
    (loopCount_error_iff _).mp ⟨⟨"ſix".toList⟩, rfl⟩
  intro expand
  exact ⟨(synthesis_total_iff nofun (fun _ _ => .pure ()) "" 0.35 _ ()).1.mpr hsix,
    (synthesis_total_iff nofun (fun _ _ => .pure ()) "" 0.35 _ ()).2.1 hlong⟩

end Writer

section Engine
variable {κ α β : Type}

theorem Stage.zoom_pure (a : α) : Stage.zoom (pure a : Task (World κ) α) = pure a := rfl

theorem Stage.zoom_bind (t : Task (World κ) α) (f : α → Task (World κ) β) :
    Stage.zoom (t >>= f) = Stage.zoom t >>= fun a => Stage.zoom (f a) := by
  unfold Stage.zoom
  refine Task.zoom_bind ?_ ?_ t f
  · exact fun _ _ => rfl
  · exact fun _ _ _ => rfl

theorem zoom_traceAll (trace : String → String → Task (World κ) Unit)
    (records : List Expansion.Trace) :
    Stage.zoom (traceAll trace records) =
      traceAll (fun heading content => Stage.zoom (trace heading content)) records := by
  induction records with
  | nil => exact Stage.zoom_pure ()
  | cons record rest ih => rw [traceAll, traceAll, Stage.zoom_bind, ih]

theorem zoom_askIntent (f : String → String → Task (World κ) (Except ClassifierError Verdict))
    (modelPath : String) (text : List Char) :
    Stage.zoom (askIntent (some f) modelPath text) =
      askIntent (some fun model text => Stage.zoom (f model text)) modelPath text := by
  rw [askIntent, askIntent]
  split
  · exact Stage.zoom_pure _
  · rw [Stage.zoom_bind]
    congr 1
    funext result
    cases result with
    | ok verdict => exact Stage.zoom_pure _
    | error error => exact Stage.zoom_pure _

theorem zoom_expandAnswered (threshold : Float) (trace : String → String → Task (World κ) Unit)
    (instruction : String) (answer : Expansion.Answer) :
    Stage.zoom (expandAnswered threshold trace instruction answer) =
      expandAnswered threshold (fun heading content => Stage.zoom (trace heading content))
        instruction answer := by
  rw [expandAnswered, expandAnswered, Stage.zoom_bind, zoom_traceAll]
  congr 1
  funext _
  cases Expansion.ofAnswer threshold instruction answer with
  | error word => rfl
  | ok expansion =>
    rw [Stage.zoom_bind, zoom_traceAll]
    rfl

/-- An engine writes its scripts with its own classifier and trace. -/
theorem host_expand (c : Config) (classify : Classify κ) :
    (host c classify).expand =
      expandWith (some fun model text => Stage.zoom (World.ask classify model text)) c.modelPath
        c.threshold fun heading content => Stage.zoom (c.trace heading content) := by
  funext instruction
  change Stage.zoom (generate c classify instruction) = _
  rw [generate, expandWith, expandWith, Stage.zoom_bind, zoom_askIntent]
  congr 1
  funext answer
  exact zoom_expandAnswered c.threshold c.trace instruction answer

end Engine

end Scribe.Run
