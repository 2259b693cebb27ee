import Scribe.Proofs.Instruction.Unwrap
import Scribe.Proofs.Run.Expanding

/-!
# Quotes around an instruction

An instruction may be wrapped in quotes, any number of times. What it is expanded to, what the
classifier of intents is asked and what the trace tells do not depend on them; only the instruction
is kept with the quotes it came with.
-/
namespace Scribe.Run
open Instruction Text

variable {σ : Type}

theorem map_run {α β : Type} (f : α → β) (t : Task σ α) (w : σ) :
    (f <$> t) w = ((t w).1.map f, (t w).2) := by
  cases hrun : t w with
  | mk result w' =>
    cases result with
    | ok a => exact Task.bind_of_ok (f := fun a => pure (f a)) hrun
    | error e => exact Task.bind_of_error (f := fun a => pure (f a)) hrun

def requoted (instruction : String) (e : Expansion) : Expansion := { e with instruction }

section Unwrapped
variable {plain wrapped : String} (h : unwrap wrapped.toList = unwrap plain.toList)
  (threshold : Float)
include h

theorem ofAnswer_of_unwrap (answer : Expansion.Answer) :
    Expansion.ofAnswer threshold wrapped answer =
      (Expansion.ofAnswer threshold plain answer).map (requoted wrapped) := by
  simp only [Expansion.ofAnswer, h]
  split
  · rfl
  · rename_i intent _
    cases Expansion.scriptFor intent (unwrap plain.toList) <;> rfl

theorem expandAnswered_of_unwrap (trace : String → String → Task σ Unit)
    (answer : Expansion.Answer) :
    expandAnswered threshold trace wrapped answer =
      requoted wrapped <$> expandAnswered threshold trace plain answer := by
  unfold expandAnswered
  rw [h, ofAnswer_of_unwrap h, map_bind]
  congr 1
  funext _
  cases Expansion.ofAnswer threshold plain answer with
  | error word => rfl
  | ok e =>
    simp only [Except.map, map_bind, map_pure]
    rfl

/-- Instructions that differ in the quotes around them are expanded alike. -/
theorem expandWith_of_unwrap
    (classify : Option (String → String → Task σ (Except ClassifierError Verdict)))
    (modelPath : String) (trace : String → String → Task σ Unit) :
    expandWith classify modelPath threshold trace wrapped =
      requoted wrapped <$> expandWith classify modelPath threshold trace plain := by
  unfold expandWith
  simp only [h, expandAnswered_of_unwrap h, map_bind]

end Unwrapped

/-- Pairs of quotes around a text never matter: unwrapping takes them off, what it leaves has no
blanks and no pair of quotes around it, and an instruction is expanded in quotes as it is without
them. The classifier of intents and the trace may be any tasks on a world, also ones that keep all
that they are given: the world is the same afterwards, and so is the expansion but for the
instruction that it keeps. -/
theorem wrapped_expanded (text : String) :
    (∀ q, isQuote q = true → unwrap (q :: text.toList ++ [q]) = unwrap text.toList) ∧
    unwrap (unwrap text.toList) = unwrap text.toList ∧
    trim (unwrap text.toList) = unwrap text.toList ∧
    (∀ q, isQuote q = true → ∀ body, unwrap text.toList ≠ q :: body ++ [q]) ∧
    ∀ {σ : Type} (classify : Option (String → String → Task σ (Except ClassifierError Verdict)))
      (modelPath : String) (threshold : Float) (trace : String → String → Task σ Unit) (w : σ)
      (quotes : List Char), (∀ q ∈ quotes, isQuote q = true) →
      let wrapped := String.ofList (wrapIn quotes text.toList)
      let plain := expandWith classify modelPath threshold trace text w
      expandWith classify modelPath threshold trace wrapped w =
        (plain.1.map fun e => { e with instruction := wrapped }, plain.2) := by
  refine ⟨fun q hq => unwrap_pair hq _, unwrap_unwrap _, trim_unwrap _,
    fun q hq => unwrap_ne_pair hq _, ?_⟩
  intro σ classify modelPath threshold trace w quotes hquotes wrapped plain
  have hwrapped : unwrap wrapped.toList = unwrap text.toList := by
    rw [String.toList_ofList]
    exact unwrap_wrapIn hquotes text.toList
  rw [expandWith_of_unwrap hwrapped threshold classify modelPath trace, map_run]
  rfl

/-- A classifier that keeps what it is asked, and an instruction in three pairs of quotes. -/
theorem wrapped_expanded_thrice :
    let ask (_ text : String) : Task (List String) (Except ClassifierError Verdict) :=
      fun asked => (.ok (.error (.notFound "model")), asked ++ [text])
    ∃ e : Expansion, expandWith (some ask) "model" defaultThreshold (fun _ _ => pure ())
        "\"'\"Show Ping 2 times\"'\"" [] =
      (.ok { e with instruction := "\"'\"Show Ping 2 times\"'\"" }, ["Show Ping 2 times"]) := by
  intro ask
  obtain ⟨e, he⟩ : ∃ e, expandWith (some ask) "model" defaultThreshold (fun _ _ => pure ())
      "Show Ping 2 times" [] = (.ok e, ["Show Ping 2 times"]) := ⟨_, rfl⟩
  have hall := (wrapped_expanded "Show Ping 2 times").2.2.2.2 (some ask) "model" defaultThreshold
    (fun _ _ => pure ()) [] ['"', '\'', '"'] (by decide)
  rw [he] at hall
  exact ⟨e, hall⟩

end Scribe.Run
