import Scribe.Proofs.Instruction.Counts

/-!
# Which instructions are expanded

Looking for the intent of an instruction and writing its script fail for one reason only: the
count of the instruction cannot be looked up. All other instructions are expanded, whatever the
classifier of intents answers.
-/
namespace Scribe.Instruction
open Text Pattern

variable {cs : List Char}

theorem isLoop_error {e : UnknownCount} (h : loopCount cs = .error e) : isLoop cs = .error e := by
  rw [isLoop, h]
  rfl

theorem isLoop_ok {asked : Option Nat} (h : loopCount cs = .ok asked) :
    ∃ loopish, isLoop cs = .ok loopish := by
  rw [isLoop, h]
  exact ⟨_, rfl⟩

theorem isSignalled_ok {asked : Option Nat} (h : loopCount cs = .ok asked) (intent : Intent) :
    ∃ signalled, intent.isSignalled cs = .ok signalled := by
  cases intent with
  | loop => exact isLoop_ok h
  | _ => exact ⟨_, rfl⟩

theorem firstSignalled_ok {asked : Option Nat} (h : loopCount cs = .ok asked)
    (order : List Intent) : ∃ intent, firstSignalled cs order = .ok intent := by
  induction order with
  | nil => exact ⟨.unknown, rfl⟩
  | cons intent rest ih =>
    obtain ⟨signalled, hs⟩ := isSignalled_ok h intent
    simp only [firstSignalled, hs]
    cases signalled with
    | true => exact ⟨intent, rfl⟩
    | false => exact ih

theorem inferIntent_ok {asked : Option Nat} (h : loopCount cs = .ok asked) :
    ∃ intent, inferIntent cs = .ok intent :=
  firstSignalled_ok h signalOrder

theorem inferIntent_error {e : UnknownCount} (h : loopCount cs = .error e) :
    inferIntent cs = .error e := by
  simp only [inferIntent, signalOrder, firstSignalled, Intent.isSignalled, isLoop_error h]

theorem inferIntent_error_iff (cs : List Char) :
    (∃ e, inferIntent cs = .error e) ↔ ∃ e, loopCount cs = .error e := by
  cases h : loopCount cs with
  | error e => simp [inferIntent_error h]
  | ok asked =>
    obtain ⟨intent, hintent⟩ := inferIntent_ok h
    simp [hintent]

theorem refineIntent_ok {asked : Option Nat} (h : loopCount cs = .ok asked) (intent : Intent) :
    ∃ refined, refineIntent intent cs = .ok refined := by
  obtain ⟨loopish, hloop⟩ := isLoop_ok h
  obtain ⟨inferred, hinfer⟩ := inferIntent_ok h
  have hrefine : ∃ refined, refineLoop intent (lower (trim cs)) cs loopish = .ok refined := by
    unfold refineLoop
    split
    · exact ⟨_, rfl⟩
    · split
      · exact ⟨_, rfl⟩
      · split
        · exact ⟨_, rfl⟩
        · exact ⟨inferred, hinfer⟩
  obtain ⟨refined, hrefined⟩ := hrefine
  simp only [refineIntent, hloop, hrefined]
  exact ⟨_, rfl⟩

theorem refineIntent_error {e : UnknownCount} (h : loopCount cs = .error e) (intent : Intent) :
    refineIntent intent cs = .error e := by
  simp only [refineIntent, isLoop_error h]

theorem resolveIntent_ok {asked : Option Nat} (h : loopCount cs = .ok asked)
    (label : Option String) (score threshold : Float) :
    ∃ intent, resolveIntent label score cs threshold = .ok intent := by
  obtain ⟨inferred, hinfer⟩ := inferIntent_ok h
  have hfallback : ∃ intent, (inferIntent cs).bind (refineIntent · cs) = .ok intent := by
    rw [hinfer]
    exact refineIntent_ok h inferred
  unfold resolveIntent
  split
  · split
    · exact hfallback
    · exact refineIntent_ok h _
  · exact hfallback

theorem resolveIntent_error {e : UnknownCount} (h : loopCount cs = .error e)
    (label : Option String) (score threshold : Float) :
    resolveIntent label score cs threshold = .error e := by
  have hfallback : (inferIntent cs).bind (refineIntent · cs) = .error e := by
    rw [inferIntent_error h]
    rfl
  unfold resolveIntent
  split
  · split
    · exact hfallback
    · exact refineIntent_error h _
  · exact hfallback

theorem loopCount_unwrap (cs : List Char) : loopCount (unwrap cs) = loopCount cs := by
  simp only [loopCount, unwrap_unwrap]

theorem renderBody_ok {asked : Option Nat} (h : loopCount cs = .ok asked) (intent : Intent) :
    ∃ r, renderBody intent cs = .ok r := by
  cases intent with
  | loop =>
    simp only [renderBody, renderLoop, h]
    exact ⟨_, rfl⟩
  | _ => exact ⟨_, rfl⟩

theorem render_ok {asked : Option Nat} (h : loopCount cs = .ok asked) (intent : Intent) :
    ∃ r, render intent cs = .ok r := by
  rw [← loopCount_unwrap] at h
  obtain ⟨r, hr⟩ := renderBody_ok h intent
  simp only [render, hr]
  exact ⟨_, rfl⟩

theorem render_error_iff (intent : Intent) (cs : List Char) :
    (∃ e, render intent cs = .error e) ↔ intent = .loop ∧ ∃ e, loopCount cs = .error e := by
  constructor
  · rintro ⟨e, he⟩
    rw [render, Outcome.map_eq_error] at he
    cases intent with
    | loop =>
      refine ⟨rfl, e, ?_⟩
      rw [renderBody, renderLoop, Outcome.map_eq_error, loopCount_unwrap] at he
      exact he
    | _ => cases he
  · rintro ⟨rfl, e, he⟩
    refine ⟨e, ?_⟩
    rw [render, Outcome.map_eq_error, renderBody, renderLoop, Outcome.map_eq_error,
      loopCount_unwrap]
    exact he

theorem scriptFor_ok {asked : Option Nat} (h : loopCount cs = .ok asked) (intent : Intent) :
    ∃ r, Expansion.scriptFor intent cs = .ok r := by
  unfold Expansion.scriptFor
  split
  · exact ⟨_, rfl⟩
  · exact render_ok h intent

theorem ofAnswer_error_iff (threshold : Float) (instruction : String) (answer : Expansion.Answer) :
    (∃ e, Expansion.ofAnswer threshold instruction answer = .error e) ↔
      ∃ e, loopCount instruction.toList = .error e := by
  rw [← loopCount_unwrap]
  cases h : loopCount (unwrap instruction.toList) with
  | error e =>
    simp only [Expansion.ofAnswer, resolveIntent_error h]
    simp
  | ok asked =>
    obtain ⟨intent, hintent⟩ := resolveIntent_ok h answer.label? answer.score threshold
    obtain ⟨r, hr⟩ := scriptFor_ok h intent
    simp only [Expansion.ofAnswer, hintent, hr]
    simp [Except.map]

theorem inferIntent_ok_iff (cs : List Char) :
    (∃ intent, inferIntent cs = .ok intent) ↔ ¬StrayCount (unwrap cs) := by
  rw [← loopCount_error_iff, ← inferIntent_error_iff, Outcome.exists_ok_iff]

theorem render_ok_iff (intent : Intent) (cs : List Char) :
    (∃ r, render intent cs = .ok r) ↔ ¬(intent = .loop ∧ StrayCount (unwrap cs)) := by
  rw [← loopCount_error_iff, ← render_error_iff, Outcome.exists_ok_iff]

/-- Every instruction is expanded, unless its count cannot be looked up. -/
theorem ofAnswer_ok_iff (threshold : Float) (instruction : String) (answer : Expansion.Answer) :
    (∃ expansion, Expansion.ofAnswer threshold instruction answer = .ok expansion) ↔
      ¬StrayCount (unwrap instruction.toList) := by
  rw [← loopCount_error_iff, ← ofAnswer_error_iff threshold instruction answer,
    Outcome.exists_ok_iff]

example : loopCount "ſix times".toList = .error ⟨"ſix".toList⟩ := by rfl

end Scribe.Instruction
