import Scribe.Proofs.Run.Expanding

/-!
# Losing the classifier of intents

There may be no classifier or no model for it, it may fail, its label may name no intent, and its
score may be too low. In each case the words of the instruction decide, and they decide the same:
the cases differ in the label and the score that are kept with the expansion, and in its first
note, which says what happened.
-/
namespace Scribe.Run
open Instruction

variable {σ τ : Type}

theorem resolveIntent_of_isUnusable {label : Option String} {score threshold : Float}
    (hu : isUnusable label score threshold = true) (cs : List Char) :
    resolveIntent label score cs threshold = (inferIntent cs).bind (refineIntent · cs) := by
  rw [isUnusable, Bool.or_eq_true, decide_eq_true_eq] at hu
  unfold resolveIntent
  split
  · rename_i intent hintent
    have hscore : score < threshold := by simpa [hintent] using hu
    rw [if_pos hscore]
  · rfl

/-- What the words of an instruction give by themselves: an intent, and the script for it. -/
def byWords (text : List Char) : Except UnknownCount (Intent × Rendering) :=
  ((inferIntent text).bind (refineIntent · text)).bind fun intent =>
    (Expansion.scriptFor intent text).map fun r => (intent, r)

/-- An expansion without a usable label: the words give all but what is taken down of the answer,
and the note on it. -/
def unlabelled (instruction : String) (answer : Expansion.Answer) (reason : String)
    (found : Intent × Rendering) : Expansion where
  instruction := instruction
  intent := found.1
  script := String.ofList found.2.script
  label := answer.label?
  score := answer.score
  usedFallback := true
  degradations := reason :: found.2.notes

def scoreReason (score threshold : Float) : String :=
  let score := Expansion.fixedString 2 score
  let least := Expansion.fixedString 2 threshold
  s!"score {score} below threshold {least}, used keyword fallback"

/-- The ways in which a synthesizer in world `w` is left without a label for a text. The last two
arguments are the answer that is taken down and the note that says why it is not used. -/
inductive Lost (threshold : Float) (text : List Char) (w : σ) :
    Option (String → String → Task σ (Except ClassifierError Verdict)) → String →
      Expansion.Answer → String → Prop
  | noClassifier {modelPath} :
      Lost threshold text w none modelPath .absent
        "macro classifier not configured, used keyword fallback"
  | noModel {f} :
      Lost threshold text w (some f) "" .absent
        "macro classifier not configured, used keyword fallback"
  | failed {f modelPath error w'} (hpath : modelPath ≠ "")
      (ha : f modelPath (String.ofList text) w = (.ok (.error error), w')) :
      Lost threshold text w (some f) modelPath (.failed error)
        s!"macro classifier failed ({error.message}), used keyword fallback"
  | noIntent {f modelPath verdict w'} (hpath : modelPath ≠ "")
      (ha : f modelPath (String.ofList text) w = (.ok (.ok verdict), w'))
      (hlabel : Intent.ofLabel? verdict.label = none) :
      Lost threshold text w (some f) modelPath (.verdict verdict)
        s!"unknown classifier label {Text.quoted verdict.label}, used keyword fallback"
  | lowScore {f modelPath verdict intent w'} (hpath : modelPath ≠ "")
      (ha : f modelPath (String.ofList text) w = (.ok (.ok verdict), w'))
      (hlabel : Intent.ofLabel? verdict.label = some intent) (hscore : verdict.score < threshold) :
      Lost threshold text w (some f) modelPath (.verdict verdict)
        (scoreReason verdict.score threshold)

section Lost
variable {classify : Option (String → String → Task σ (Except ClassifierError Verdict))}
  {modelPath : String} {threshold : Float} {text : List Char} {w : σ} {answer : Expansion.Answer}
  {reason : String}

theorem Lost.askIntent (hl : Lost threshold text w classify modelPath answer reason) :
    ∃ w', askIntent classify modelPath text w = (.ok answer, w') := by
  have hasked {f : String → String → Task σ (Except ClassifierError Verdict)} {result w'}
      (hpath : modelPath ≠ "")
      (ha : f modelPath (String.ofList text) w = (.ok result, w')) :
      Run.askIntent (some f) modelPath text w = (.ok (answerOf result), w') := by
    rw [Run.askIntent, if_neg (by simpa using hpath), Task.bind_of_ok ha]
    cases result <;> rfl
  cases hl with
  | noClassifier => exact ⟨w, rfl⟩
  | noModel => exact ⟨w, rfl⟩
  | failed hpath ha => exact ⟨_, hasked hpath ha⟩
  | noIntent hpath ha => exact ⟨_, hasked hpath ha⟩
  | lowScore hpath ha => exact ⟨_, hasked hpath ha⟩

theorem Lost.isUnusable (hl : Lost threshold text w classify modelPath answer reason) :
    isUnusable answer.label? answer.score threshold = true := by
  cases hl with
  | noClassifier | noModel | failed => rfl
  | noIntent hpath ha hlabel =>
    simp [Instruction.isUnusable, Expansion.Answer.label?, hlabel]
  | lowScore hpath ha hlabel hscore =>
    simp [Instruction.isUnusable, Expansion.Answer.score, hscore]

/-- The reason is the one note on the answer. -/
theorem Lost.notes (hl : Lost threshold text w classify modelPath answer reason) :
    answer.notes threshold = [reason] := by
  cases hl with
  | noClassifier | noModel | failed => rfl
  | noIntent hpath ha hlabel => simp [Expansion.Answer.notes, hlabel]
  | lowScore hpath ha hlabel hscore => simp [Expansion.Answer.notes, scoreReason, hlabel, hscore]

theorem Lost.ofAnswer (hl : Lost threshold text w classify modelPath answer reason)
    (instruction : String) :
    Expansion.ofAnswer threshold instruction answer =
      (byWords (unwrap instruction.toList)).map (unlabelled instruction answer reason) := by
  rw [Expansion.ofAnswer, byWords, resolveIntent_of_isUnusable hl.isUnusable, hl.isUnusable,
    hl.notes]
  cases (inferIntent (unwrap instruction.toList)).bind
      (refineIntent · (unwrap instruction.toList)) with
  | error word => rfl
  | ok intent =>
    change (Expansion.scriptFor intent (unwrap instruction.toList)).map _ =
      ((Expansion.scriptFor intent (unwrap instruction.toList)).map _).map _
    cases Expansion.scriptFor intent (unwrap instruction.toList) with
    | error word => rfl
    | ok r => rfl

end Lost

/-- However the classifier of intents is lost, the instruction is expanded, to the same intent and
the same script; the notes are the same behind the first one, which gives the reason, and nothing
else but the label and the score depends on the way. An instruction whose count cannot be looked up
is not expanded in any of the ways. -/
theorem fallback_alike
    {classify : Option (String → String → Task σ (Except ClassifierError Verdict))}
    {classify' : Option (String → String → Task τ (Except ClassifierError Verdict))}
    {modelPath modelPath' : String} {threshold threshold' : Float}
    {trace : String → String → Task σ Unit} {trace' : String → String → Task τ Unit}
    (ht : ∀ heading content, (trace heading content).Returns)
    (ht' : ∀ heading content, (trace' heading content).Returns)
    {instruction : String} {w : σ} {w' : τ} {answer answer' : Expansion.Answer}
    {reason reason' : String}
    (hl : Lost threshold (unwrap instruction.toList) w classify modelPath answer reason)
    (hl' : Lost threshold' (unwrap instruction.toList) w' classify' modelPath' answer' reason') :
    let made := (expandWith classify modelPath threshold trace instruction w).1
    let made' := (expandWith classify' modelPath' threshold' trace' instruction w').1
    (¬StrayCount (unwrap instruction.toList) → ∃ e e' notes, made = .ok e ∧ made' = .ok e' ∧
      e.usedFallback = true ∧ e'.usedFallback = true ∧ e.intent = e'.intent ∧
      e.script = e'.script ∧ e.degradations = reason :: notes ∧
      e'.degradations = reason' :: notes ∧ e.traces = e'.traces ∧
      e' = { e with label := answer'.label?, score := answer'.score,
                    degradations := reason' :: notes }) ∧
    (StrayCount (unwrap instruction.toList) →
      ∃ word, made = .error (.unknownCount word) ∧ made' = .error (.unknownCount word)) := by
  intro made made'
  obtain ⟨w₁, ha⟩ := hl.askIntent
  obtain ⟨w₁', ha'⟩ := hl'.askIntent
  have hx := hl.ofAnswer instruction
  have hx' := hl'.ofAnswer instruction
  have hcount := ofAnswer_ok_iff threshold instruction answer
  cases hfound : byWords (unwrap instruction.toList) with
  | ok found =>
    rw [hfound] at hx hx'
    obtain ⟨w₂, hmade⟩ := expandWith_ok ht ha hx
    obtain ⟨w₂', hmade'⟩ := expandWith_ok ht' ha' hx'
    refine ⟨fun _ => ⟨_, _, found.2.notes, congrArg Prod.fst hmade, congrArg Prod.fst hmade', rfl,
      rfl, rfl, rfl, rfl, rfl, rfl, rfl⟩, fun hstray => ?_⟩
    exact absurd hstray (hcount.mp ⟨_, hx⟩)
  | error word =>
    rw [hfound] at hx hx'
    obtain ⟨w₂, hmade⟩ := expandWith_error ht ha hx
    obtain ⟨w₂', hmade'⟩ := expandWith_error ht' ha' hx'
    refine ⟨fun hstray => ?_, fun _ => ⟨word, congrArg Prod.fst hmade, congrArg Prod.fst hmade'⟩⟩
    obtain ⟨expansion, hok⟩ := hcount.mpr hstray
    rw [hx] at hok
    cases hok

/-- A score that is too low and a classifier that fails give the same script. -/
theorem fallback_alike_loop :
    let instruction := "print 'hi' 20 times"
    let unsure : String → String → Task Unit (Except ClassifierError Verdict) :=
      fun _ _ => pure (.ok ⟨"Branch", 0.25⟩)
    let broken : String → String → Task Unit (Except ClassifierError Verdict) :=
      fun _ _ => pure (.error (.stated "gone"))
    ∃ e e' notes,
      (expandWith (some unsure) "m.json" 0.5 (fun _ _ => pure ()) instruction ()).1 = .ok e ∧
      (expandWith (some broken) "m.json" 0.5 (fun _ _ => pure ()) instruction ()).1 = .ok e' ∧
      e.intent = e'.intent ∧ e.script = e'.script ∧
      e.degradations = "score 0.25 below threshold 0.50, used keyword fallback" :: notes ∧
      e'.degradations = "macro classifier failed (gone), used keyword fallback" :: notes := by
  intro instruction unsure broken
  have hlabel : Intent.ofLabel? "Branch" = some .branch := by decide
  have hunsure : Lost 0.5 (unwrap instruction.toList) () (some unsure) "m.json"
      (.verdict ⟨"Branch", 0.25⟩) _ := .lowScore (by decide) rfl hlabel (by decide)
  have hbroken : Lost 0.5 (unwrap instruction.toList) () (some broken) "m.json"
      (.failed (.stated "gone")) _ := .failed (by decide) rfl
  have hreason : scoreReason 0.25 0.5 =
      "score 0.25 below threshold 0.50, used keyword fallback" := by decide +kernel
  have hcount : ¬StrayCount (unwrap "print 'hi' 20 times".toList) := by
    rw [← loopCount_error_iff, ← Outcome.exists_ok_iff]
    exact ⟨some 20, rfl⟩
  obtain ⟨e, e', notes, he, he', -, -, hintent, hscript, hnotes, hnotes', -⟩ :=
    (fallback_alike (fun _ _ => .pure ()) (fun _ _ => .pure ()) hunsure hbroken).1 hcount
  rw [hreason] at hnotes
  exact ⟨e, e', notes, he, he', hintent, hscript, hnotes, hnotes'⟩

end Scribe.Run
