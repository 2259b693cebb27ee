import Scribe.Proofs.Instruction.Totality
import Scribe.Proofs.Pattern.Groups
import Scribe.Proofs.Text.OneLine

/-!
# Loops have a count

An instruction is taken as a loop only if it names a count, whatever the classifier of intents
says: every correction of an intent leaves a loop as it is or makes it something else, and a loop
without a count is looked at anew. So the script of a loop repeats one line as often as the count
says, within its bounds, and the default for a missing count is never taken.
-/
namespace Scribe.Instruction
open Text Pattern

variable {cs low : List Char} {intent : Intent} {loopish : Bool}

theorem bare_countCross :
    countCross.bare = edge ++ digits ++ blanks ++ word "x" ++ edge := rfl

/-- The second look for `4x` finds no count that the first one has missed. -/
theorem isLoop_eq (h : unwrap cs = cs) : isLoop cs = (loopCount cs).map Option.isSome := by
  have hcross (hnone : loopCount cs = .ok none) : countCross.found cs = false := by
    rw [loopCount, h] at hnone
    rw [found]
    cases hc : countCross.search cs with
    | none => rfl
    | some m =>
      rw [hc] at hnone
      cases hd : countDigits.search cs <;> rw [hd] at hnone <;> cases hnone
  rw [isLoop, ← bare_countCross, found_bare]
  cases hcount : loopCount cs with
  | error e => rfl
  | ok asked =>
    cases asked with
    | none => simp only [Except.map, hcross hcount, Option.isSome_none, Bool.or_false]
    | some n => simp only [Except.map, Option.isSome_some, Bool.true_or]

theorem firstSignalled_sound {order : List Intent} (h : firstSignalled cs order = .ok intent)
    (hknown : intent ≠ .unknown) : intent.isSignalled cs = .ok true := by
  induction order with
  | nil =>
    cases h
    exact absurd rfl hknown
  | cons first rest ih =>
    rw [firstSignalled] at h
    split at h
    · cases h
    · rename_i hfirst
      cases h
      exact hfirst
    · exact ih h

theorem isLoop_of_inferIntent (h : inferIntent cs = .ok .loop) : isLoop cs = .ok true :=
  firstSignalled_sound h (by decide)

theorem refineAssignment_eq_loop (h : refineAssignment intent low cs = .loop) : intent = .loop := by
  unfold refineAssignment at h
  split at h
  · split at h <;> cases h
  · exact h

/-- No form makes an instruction a loop. -/
theorem refineForm_eq_loop (h : refineForm intent low cs loopish = .loop) : intent = .loop := by
  have untaken {test : Bool} {form intent : Intent} (hform : form ≠ .loop)
      (h : (if test then form else intent) = .loop) : intent = .loop := by
    cases test with
    | true => exact absurd h hform
    | false => exact h
  unfold refineForm at h
  exact untaken (by decide) (untaken (by decide) (untaken (by decide) (untaken (by decide)
    (untaken (by decide) h))))

theorem refineLoop_eq_loop (hloopish : isLoop cs = .ok loopish)
    (h : refineLoop intent low cs loopish = .ok .loop) : isLoop cs = .ok true := by
  unfold refineLoop at h
  split at h
  · rename_i hother
    cases h
    exact absurd hother (by decide)
  · split at h
    · cases h
    · split at h
      · rename_i hyes
        rw [hloopish, hyes]
      · exact isLoop_of_inferIntent h

theorem isLoop_of_refineIntent (h : refineIntent intent cs = .ok .loop) : isLoop cs = .ok true := by
  unfold refineIntent at h
  split at h
  · cases h
  · rename_i loopish hloopish
    obtain ⟨refined, hrefined, hform⟩ := Outcome.map_eq_ok.mp h
    obtain rfl : refined = .loop := refineAssignment_eq_loop (refineForm_eq_loop hform)
    exact refineLoop_eq_loop hloopish hrefined

theorem isLoop_of_resolveIntent {label : Option String} {score threshold : Float}
    (h : resolveIntent label score cs threshold = .ok .loop) : isLoop cs = .ok true := by
  have hinferred (h : (inferIntent cs).bind (refineIntent · cs) = .ok .loop) :
      isLoop cs = .ok true := by
    obtain ⟨inferred, -, hrefine⟩ := Outcome.bind_eq_ok.mp h
    exact isLoop_of_refineIntent hrefine
  unfold resolveIntent at h
  split at h
  · split at h
    · exact hinferred h
    · exact isLoop_of_refineIntent h
  · exact hinferred h

/-- An instruction that is taken as a loop names a count. -/
theorem loopCount_of_resolveIntent {label : Option String} {score threshold : Float}
    (h : resolveIntent label score (unwrap cs) threshold = .ok .loop) :
    ∃ n, loopCount cs = .ok (some n) := by
  have hloop := isLoop_of_resolveIntent h
  rw [isLoop_eq (unwrap_unwrap cs), loopCount_unwrap] at hloop
  obtain ⟨asked, hasked, hsome⟩ := Outcome.map_eq_ok.mp hloop
  obtain ⟨n, rfl⟩ := Option.isSome_iff_exists.mp hsome
  exact ⟨n, hasked⟩

def rounds (n : Nat) : Nat := (clampCount n).toNat

theorem rounds_pos (n : Nat) : 0 < rounds n := by
  simp only [rounds, clampCount, leastCount, mostCount]
  omega

theorem rounds_eq_self_iff (n : Nat) : rounds n = n ↔ 1 ≤ n ∧ n ≤ 12 := by
  simp only [rounds, clampCount, leastCount, mostCount]
  omega

def countNotes (n : Nat) : List String :=
  let count := rounds n
  if 1 ≤ n ∧ n ≤ 12 then [] else [s!"loop count {n} clamped to {count}"]

theorem loopMessage_unwrap (cs : List Char) : loopMessage (unwrap cs) = loopMessage cs := by
  simp only [loopMessage, unwrap_unwrap]

theorem renderLoop_counted {n : Nat} (h : loopCount cs = .ok (some n)) :
    renderLoop cs =
      .ok ⟨joinLines (List.replicate (rounds n) (printText (loopMessage cs))), countNotes n⟩ := by
  have hclamped : ((rounds n : Int) != n) = !decide (1 ≤ n ∧ n ≤ 12) := by
    rw [Bool.eq_iff_iff, bne_iff_ne, Bool.not_eq_true', decide_eq_false_iff_not,
      ← rounds_eq_self_iff]
    omega
  rw [rounds] at hclamped
  simp only [renderLoop, h, Except.map, Option.getD_some, hclamped, countNotes]
  by_cases hin : 1 ≤ n ∧ n ≤ 12
  · simp [hin, rounds]
  · have hrepr : (n : Int).repr = n.repr := rfl
    simp [hin, rounds, hrepr]

theorem scriptFor_loop {n : Nat} (h : loopCount cs = .ok (some n)) :
    Expansion.scriptFor .loop (unwrap cs) =
      .ok ⟨joinLines (List.replicate (rounds n) (printText (loopMessage cs))), countNotes n⟩ := by
  have hnamed : (trim (unwrap cs)).isEmpty = false := by
    rw [trim_unwrap, List.isEmpty_eq_false_iff]
    intro hempty
    rw [← loopCount_unwrap, hempty] at h
    cases h
  have hbody := renderLoop_counted ((loopCount_unwrap cs).trans h)
  rw [loopMessage_unwrap] at hbody
  have hnonblank (message : List Char) :
      (trim (joinLines (List.replicate (rounds n) (printText message)))).isEmpty = false := by
    obtain ⟨k, hk⟩ := Nat.exists_eq_add_one.mpr (rounds_pos n)
    rw [hk, List.replicate_succ]
    cases k with
    | zero => exact isEmpty_trim_cons (by decide) _
    | succ k => exact isEmpty_trim_cons (by decide) _
  simp only [Expansion.scriptFor, hnamed, Bool.false_eq_true, if_false, render, unwrap_unwrap,
    renderBody, hbody, Except.map, hnonblank]

/-- An expansion that is a loop: what it asks for, what is noted, and its script. -/
theorem ofAnswer_loop {threshold : Float} {instruction : String} {answer : Expansion.Answer}
    {expansion : Expansion} (hx : Expansion.ofAnswer threshold instruction answer = .ok expansion)
    (hloop : expansion.intent = .loop) :
    ∃ n, loopCount instruction.toList = .ok (some n) ∧
      expansion.degradations = answer.notes threshold ++ countNotes n ∧
      expansion.script.toList =
        joinLines (List.replicate (rounds n) (printText (loopMessage instruction.toList))) := by
  unfold Expansion.ofAnswer at hx
  dsimp only at hx
  split at hx
  · cases hx
  · rename_i intent hresolve
    obtain ⟨r, hr, rfl⟩ := Outcome.map_eq_ok.mp hx
    obtain rfl : intent = .loop := hloop
    obtain ⟨n, hn⟩ := loopCount_of_resolveIntent hresolve
    rw [scriptFor_loop hn] at hr
    cases hr
    exact ⟨n, hn, rfl, String.toList_ofList⟩

theorem head?_append {a : String} {c : Char} (h : a.toList.head? = some c) (b : String) :
    (a ++ b).toList.head? = some c := by
  rw [String.toList_append, List.head?_append, h]
  rfl

/-- How a note on an answer starts: `macro`, `unknown` or `score`. -/
theorem head?_of_mem_notes {threshold : Float} {answer : Expansion.Answer} {note : String}
    (h : note ∈ answer.notes threshold) : ∃ c ∈ ['m', 'u', 's'], note.toList.head? = some c := by
  unfold Expansion.Answer.notes at h
  split at h
  · obtain rfl := List.mem_singleton.mp h
    exact ⟨'m', by decide, rfl⟩
  · obtain rfl := List.mem_singleton.mp h
    exact ⟨'m', by decide, head?_append (head?_append rfl _) _⟩
  · split at h
    · obtain rfl := List.mem_singleton.mp h
      exact ⟨'u', by decide, head?_append (head?_append rfl _) _⟩
    · split at h
      · obtain rfl := List.mem_singleton.mp h
        refine ⟨'s', by decide, ?_⟩
        exact head?_append (head?_append (head?_append (head?_append rfl _) _) _) _
      · cases h

/-- No note on an answer reads like a note on a count. -/
theorem mem_notes_iff {threshold : Float} {answer : Expansion.Answer} {note : String}
    (hhead : note.toList.head? = some 'l') (n : Nat) :
    note ∈ answer.notes threshold ++ countNotes n ↔ note ∈ countNotes n := by
  rw [List.mem_append]
  refine or_iff_right fun h => ?_
  obtain ⟨c, hc, hnote⟩ := head?_of_mem_notes h
  cases hhead.symm.trans hnote
  revert hc
  decide

/-- A count is noted as clamped exactly if it lies outside the bounds. -/
theorem clamped_mem_countNotes_iff (n : Nat) :
    (∃ asked count : Nat, s!"loop count {asked} clamped to {count}" ∈ countNotes n) ↔
      ¬(1 ≤ n ∧ n ≤ 12) := by
  unfold countNotes
  constructor
  · rintro ⟨asked, count, h⟩ hin
    rw [if_pos hin] at h
    cases h
  · intro hout
    exact ⟨n, rounds n, by simp [hout]⟩

theorem missing_not_mem_countNotes (n : Nat) :
    "loop count missing, defaulted to 1" ∉ countNotes n := by
  intro h
  unfold countNotes at h
  split at h
  · cases h
  · have htext := congrArg String.toList (List.mem_singleton.mp h)
    have hmissing : "loop count missing, defaulted to 1".toList =
        (toString "loop count ").toList ++ "missing, defaulted to 1".toList := rfl
    simp only [String.toList_append, List.append_assoc, hmissing] at htext
    have hrest := List.append_cancel_left htext
    rw [Nat.toString_eq_repr, Nat.toList_repr] at hrest
    -- What follows the words is a number in the one note and none in the other.
    cases hdigits : Nat.toDigits 10 n with
    | nil =>
      rw [hdigits] at hrest
      cases congrArg List.head? hrest
    | cons c r =>
      rw [hdigits] at hrest
      have hc : c.isDigit = true :=
        Nat.isDigit_of_mem_toDigits (by decide) (by decide) (hdigits ▸ List.mem_cons_self)
      cases congrArg List.head? hrest
      cases hc

end Scribe.Instruction
