import Scribe.Proofs.Instruction.Branches
import Scribe.Proofs.Run.Loops
import Scribe.Proofs.Script.ChainReading

/-!
# Chains of branches do what they say

A sentence of branches is expanded into one choice with an arm for each of its arms, whatever the
classifier of intents says. Running it emits the message of the first arm whose comparison holds,
or else the last message, and changes nothing else.
-/
namespace Scribe.Run
open Script Instruction Text

variable {σ : Type}

/-- Every answer of the classifier gives the same program. -/
theorem ofAnswer_chain (a : Arm) (rest : List Arm) (last : Option PlainWord) (threshold : Float)
    (answer : Expansion.Answer) :
    ∃ expansion, Expansion.ofAnswer threshold (String.ofList (chainSentence a rest last)) answer =
        .ok expansion ∧ expansion.intent = .branch ∧
      parse expansion.script.toList = .ok (chainProgram a rest last) := by
  have hcount : ¬StrayCount (chainSentence a rest last) := not_strayCount fun c hc =>
    forall_ascii (P := fun c => isStray c = false) (by decide)
      (ascii_chainSentence a rest last c hc)
  have hscript : (trim (joinLines (linesOfArms true (a :: rest) ++ linesOfLast last))).isEmpty =
      false := isEmpty_trim_cons (c := 'i') (by decide) _
  obtain ⟨expansion, hanswer, hintent, htext⟩ := ofAnswer_if (trim_chainSentence a rest last) hcount
    (renderBranch_chain a rest last) hscript threshold answer
  refine ⟨expansion, hanswer, hintent, ?_⟩
  rw [htext, String.toList_ofList]
  exact parse_chain a rest last

/-- What a chain says: the message of the first arm that holds, or else the last message. -/
def said (b : Bindings) (arms : List Arm) (last : Option PlainWord) : List String :=
  (((arms.find? fun a => a.holds b).map Arm.message).or last).toList.map fun m =>
    String.ofList m.text

section Run
variable (h : Host σ) (next : String → Int → Exec σ Unit) (origin : Option Int)

theorem execElse_message (line : Nat) (last : Option PlainWord) :
    execElse h next origin (last.map (messageBlock line)) =
      forM (last.toList.map fun m => String.ofList m.text) (emit h) := by
  cases last with
  | none => rw [Option.map_none, execElse]; rfl
  | some m =>
    have hprint := execBlock_printText h next origin line (String.ofList m.text)
    rw [Option.map_some, execElse, messageBlock, hprint]
    exact (bind_pure _).symm

/-- The first arm that holds is the one that runs. -/
theorem execArms_trees (line : Int) (k l : Nat) (arms : List Arm) (last : Option PlainWord)
    (s : Session σ) :
    execArms h next origin line (execElse h next origin (last.map (messageBlock l)))
      (armTrees k arms) s = forM (said s.machine.bindings arms last) (emit h) s := by
  induction arms generalizing k with
  | nil =>
    rw [armTrees, execArms, execElse_message]
    rfl
  | cons a rest ih =>
    rw [armTrees, execArms, Task.bind_of_ok (valueOf?_ok (evaluate_test _ a))]
    cases hholds : a.holds s.machine.bindings with
    | true =>
      have hsaid : said s.machine.bindings (a :: rest) last = [String.ofList a.message.text] := by
        simp [said, hholds]
      have hprint := execBlock_printText h next origin (k + 1) (String.ofList a.message.text)
      rw [hsaid]
      change execBlock h next origin (messageBlock (k + 1) a.message) s = _
      rw [messageBlock, hprint]
      exact congrFun (bind_pure _).symm s
    | false =>
      have hsaid : said s.machine.bindings (a :: rest) last =
          said s.machine.bindings rest last := by
        simp [said, hholds]
      rw [hsaid]
      exact ih (k + 2)

theorem execBlock_chain (a : Arm) (rest : List Arm) (last : Option PlainWord) (s : Session σ) :
    execBlock h next origin (chainProgram a rest last) s =
      forM (said s.machine.bindings (a :: rest) last) (emit h) s := by
  have harms := execArms_trees h next origin (reportedLine origin 1) 1 (2 * (a :: rest).length + 2)
    (a :: rest) last s
  have hchoose : execBlock h next origin (chainProgram a rest last) =
      execArms h next origin (reportedLine origin 1) (execElse h next origin
        (last.map (messageBlock (2 * (a :: rest).length + 2)))) (armTrees 1 (a :: rest)) := by
    rw [chainProgram, execBlock, execBlock, execStmt]
    exact bind_pure _
  rw [hchoose, harms]

end Run

/-- A chain of branches is taken as a branch, whatever the classifier answers, and its script is one
choice with the comparisons and the messages of its arms in their order. Running it emits the
message of the first arm whose comparison holds, or else the last message, adds the expansion to
the list of expansions, and changes nothing else of the machine. -/
theorem chain_exact {h : Host σ}
    {classify : Option (String → String → Task σ (Except ClassifierError Verdict))}
    {modelPath : String} {least : Float} {trace : String → String → Task σ Unit}
    (hexpand : h.expand = expandWith classify modelPath least trace)
    (a : Arm) (rest : List Arm) (last : Option PlainWord) :
    let instruction := String.ofList (chainSentence a rest last)
    (∀ threshold answer, ∃ expansion,
      Expansion.ofAnswer threshold instruction answer = .ok expansion ∧ expansion.intent = .branch ∧
        parse expansion.script.toList = .ok (chainProgram a rest last)) ∧
      ∀ (s : Session σ) (expansion : Expansion) (w : σ),
        h.expand instruction s.world = (.ok expansion, w) →
        parse expansion.script.toList = .ok (chainProgram a rest last) ∧
        ∀ allowance line,
          let emitted := said s.machine.bindings (a :: rest) last
          let ran := execExpand h (allowance + 1) instruction line s
          let recorded := s.machine.expansions ++ [expansion]
          ran = forM emitted (emit h) ⟨{ s.machine with expansions := recorded }, w⟩ ∧
          ran.2.machine = { s.machine with expansions := recorded } ∧
          ∀ holds lines, h.Takes holds → holds s.world lines →
            ran.1 = .ok () ∧ holds ran.2.world (lines ++ emitted) := by
  intro instruction
  refine ⟨fun threshold answer => ofAnswer_chain a rest last threshold answer,
    fun s expansion w hx => ?_⟩
  have hanswered : parse expansion.script.toList = .ok (chainProgram a rest last) := by
    rw [hexpand] at hx
    obtain ⟨answer, hanswer⟩ := ofAnswer_of_expandWith hx
    obtain ⟨expansion', hsame, -, hparse⟩ := ofAnswer_chain a rest last least answer
    rw [hanswer] at hsame
    cases hsame
    exact hparse
  refine ⟨hanswered, fun allowance line => ?_⟩
  intro emitted ran recorded
  have hrun : ran = forM emitted (emit h) ⟨s.machine.record expansion, w⟩ := by
    change execExpand h (allowance + 1) instruction line s = _
    rw [execExpand_read hx hanswered, execBlock_chain]
    rfl
  refine ⟨hrun, ?_, fun holds lines htakes hs => ?_⟩
  · rw [hrun]
    exact keeps_emits h emitted _
  · have hheld := htakes.expand hs instruction
    rw [hx] at hheld
    rw [hrun]
    exact htakes.emits emitted hheld

theorem chain_exact_second :
    let h := host { modelPath := "" } classifyByModel
    let start : Session (Stage Cache) :=
      ⟨{ bindings := [("score", .number 50.0)] }, ⟨⟨{}, {}⟩, [.buffer []]⟩⟩
    ∃ s, execExpand h 1 "If score >= 90 say high, elif score == 50 say half, else say low" 1 start =
        (.ok (), s) ∧ s.world.sinks = [.buffer ["half"]] := by
  intro h start
  let score : PlainWord := ⟨'s', "core".toList, by decide, by decide⟩
  let first : Arm :=
    ⟨score, .ge, ⟨'9', ['0'], by decide⟩, ⟨'h', "igh".toList, by decide, by decide⟩⟩
  let second : Arm :=
    ⟨score, .eq, ⟨'5', ['0'], by decide⟩, ⟨'h', "alf".toList, by decide, by decide⟩⟩
  let low : PlainWord := ⟨'l', "ow".toList, by decide, by decide⟩
  have htext : "If score >= 90 say high, elif score == 50 say half, else say low" =
      String.ofList (chainSentence first [second] (some low)) := by decide +kernel
  have hexpand := host_expand { modelPath := "" } classifyByModel
  obtain ⟨hanswered, hrun⟩ := chain_exact (h := h) hexpand first [second] (some low)
  obtain ⟨expansion, hanswer, -, -⟩ := hanswered defaultThreshold .absent
  rw [htext]
  obtain ⟨w, hx⟩ : ∃ w, h.expand (String.ofList (chainSentence first [second] (some low)))
      start.world = (.ok expansion, w) := by
    rw [show h.expand = _ from hexpand]
    exact expandWith_ok (fun _ _ => .pure ()) rfl hanswer
  obtain ⟨-, hruns⟩ := hrun start expansion w hx
  obtain ⟨-, -, hholds⟩ := hruns 0 1
  obtain ⟨hok, hsinks⟩ := hholds _ [] (host_takes_buffer _ _) rfl
  have hsaid : said start.machine.bindings [first, second] (some low) = ["half"] := by
    decide +kernel
  cases hran : execExpand h (0 + 1) (String.ofList (chainSentence first [second] (some low))) 1
      start with
  | mk result s =>
    rw [hran] at hok hsinks
    rw [hsaid, List.nil_append] at hsinks
    cases hok
    exact ⟨s, rfl, hsinks⟩

end Scribe.Run
