import Scribe.Proofs.Instruction.Rendering
import Scribe.Proofs.Run.Expanding
import Scribe.Proofs.Run.TameRun
import Scribe.Proofs.Script.Literals

/-!
# The echo is exact

A line that prints a text is read back as that text, whatever characters it has, and running it
emits the text and nothing else. An instruction that nothing is known about, or that is empty, is
echoed in this way, and a script that cannot be read is replaced by the same line.
-/
namespace Scribe.Run
open Script Instruction Text

theorem printText_eq (t : List Char) : printText t = "neuro".toList ++ (' ' :: quote t) := rfl

theorem tokenize_printText (t : List Char) :
    tokenize (printText t) = .ok [⟨.keyword .neuro, "neuro", 1, 1⟩,
      ⟨.string, String.ofList t, 1, 7⟩, ⟨.newline, "", 1, (printText t).length + 1⟩] := by
  have hone : OneLine (printText t) := (plainLine_printText t).oneLine
  have hcode : codeOf (printText t) = printText t := codeOf_quote (by decide) t
  have hlex : lexFrom 1 [] 1 0 (printText t) =
      .ok [⟨.keyword .neuro, "neuro", 1, 1⟩, ⟨.string, String.ofList t, 1, 7⟩] := by
    rw [printText_eq]
    refine (lexFrom_word (by decide) (by decide) (by rfl)).trans ?_
    rw [lexFrom_blank, lexFrom_quote]
    rfl
  have hline : lexLine 1 [] (printText t) = .ok ([⟨.keyword .neuro, "neuro", 1, 1⟩,
      ⟨.string, String.ofList t, 1, 7⟩, ⟨.newline, "", 1, (printText t).length + 1⟩], []) := by
    have hleading : (printText t).takeWhile (fun c => c == ' ' || c == '\t') = [] := rfl
    simp only [lexLine, hleading, List.length_nil, List.drop_zero, Nat.zero_add, hlex]
    rfl
  unfold tokenize
  rw [show lines (printText t) = [printText t] from splitAt_of_absent hone]
  simp only [lexLines, hcode, hline]
  rfl

theorem parse_printText (t : List Char) :
    parse (printText t) = .ok [.print 1 (.lit (.text (String.ofList t)))] := by
  simp only [parse, tokenize_printText]
  rfl

variable {σ : Type}

/-- Printing a literal emits its text, once. -/
theorem execBlock_printText (h : Host σ) (k : String → Int → Exec σ Unit) (origin : Option Int)
    (line : Nat) (text : String) :
    execBlock h k origin [.print line (.lit (.text text))] = emit h text := by
  have hstmt : execStmt h k origin (.print line (.lit (.text text))) = emit h text := by
    funext s
    have hvalue : valueOf? h (reportedLine origin line) (.lit (.text text)) s =
        (.ok (some (.text text)), s) := rfl
    rw [execStmt]
    exact Task.bind_of_ok hvalue
  rw [execBlock, hstmt, execBlock]
  exact bind_pure _

theorem trim_printText (t : List Char) : trim (printText t) = printText t := by
  apply trimWhile_eq_self
  · have hhead : (printText t).head? = some 'n' := rfl
    rw [hhead]
    decide
  · have hlast : (printText t).getLast? = some '"' := by
      rw [printText_eq, quote, ← List.cons_append, ← List.append_assoc, List.getLast?_concat]
    rw [hlast]
    decide

theorem render_echo {intent : Intent} (h : intent = .unknown ∨ intent = .bridge)
    (instruction : List Char) :
    render intent (unwrap instruction) = .ok ⟨printText (unwrap instruction), []⟩ := by
  have hbody : renderBody intent (unwrap instruction) =
      .ok ⟨printText (unwrap instruction), []⟩ := by
    rcases h with rfl | rfl <;> simp only [renderBody, echo, unwrap_unwrap]
  have hnonblank : (trim (printText (unwrap instruction))).isEmpty = false := by
    rw [trim_printText]
    rfl
  simp [render, unwrap_unwrap, hbody, Except.map, hnonblank]

/-- The script of an instruction that is echoed. -/
theorem scriptFor_echo {intent : Intent} {instruction : List Char}
    (hecho : intent = .unknown ∨ intent = .bridge ∨ unwrap instruction = []) :
    ∃ notes, Expansion.scriptFor intent (unwrap instruction) =
      .ok ⟨printText (unwrap instruction), notes⟩ := by
  unfold Expansion.scriptFor
  split
  · exact ⟨_, by rw [echo, unwrap_unwrap]⟩
  · rename_i hne
    rcases hecho with h | h | hempty
    · exact ⟨[], render_echo (.inl h) instruction⟩
    · exact ⟨[], render_echo (.inr h) instruction⟩
    · rw [hempty] at hne
      exact absurd rfl hne

/-- An answer after which an instruction is echoed: its intent is unknown or a bridge, or the
instruction is empty. -/
def Echoed (threshold : Float) (instruction : String) (answer : Expansion.Answer) : Prop :=
  (∃ intent, resolveIntent answer.label? answer.score (unwrap instruction.toList) threshold =
      .ok intent ∧ (intent = .unknown ∨ intent = .bridge)) ∨
    unwrap instruction.toList = []

theorem ofAnswer_echo {threshold : Float} {instruction : String} {answer : Expansion.Answer}
    (h : Echoed threshold instruction answer) :
    ∃ expansion, Expansion.ofAnswer threshold instruction answer = .ok expansion ∧
      expansion.script.toList = printText (unwrap instruction.toList) := by
  have hintent : ∃ intent, resolveIntent answer.label? answer.score (unwrap instruction.toList)
      threshold = .ok intent ∧
        (intent = .unknown ∨ intent = .bridge ∨ unwrap instruction.toList = []) := by
    rcases h with ⟨intent, hresolve, h | h⟩ | hempty
    · exact ⟨intent, hresolve, .inl h⟩
    · exact ⟨intent, hresolve, .inr (.inl h)⟩
    · have hcount : loopCount (unwrap instruction.toList) = .ok none := by
        rw [hempty]
        rfl
      obtain ⟨intent, hresolve⟩ :=
        resolveIntent_ok hcount answer.label? answer.score threshold
      exact ⟨intent, hresolve, .inr (.inr hempty)⟩
  obtain ⟨intent, hresolve, hecho⟩ := hintent
  obtain ⟨notes, hscript⟩ := scriptFor_echo hecho
  simp only [Expansion.ofAnswer, hresolve, hscript, Except.map]
  exact ⟨_, rfl, String.toList_ofList⟩

/-- Running an instruction emits the instruction itself, where the writer of scripts has left the
world `w`, and changes no variable. -/
def EmitsItself (h : Host σ) (instruction : String) (s : Session σ) (w : σ) : Prop :=
  ∀ n line, (∃ expansions, execExpand h (n + 1) instruction line s =
      emit h (String.ofList (unwrap instruction.toList)) ⟨{ s.machine with expansions }, w⟩) ∧
    (execExpand h (n + 1) instruction line s).2.machine.bindings = s.machine.bindings

variable {h : Host σ} {instruction : String} {s : Session σ} {w : σ}

theorem emit_bindings (h : Host σ) (line : String) (s : Session σ) :
    (emit h line s).2.machine.bindings = s.machine.bindings :=
  congrArg Machine.bindings (keeps_emit h line s)

theorem emitsItself_of_run (expansions : List Expansion)
    (hrun : ∀ n line, execExpand h (n + 1) instruction line s =
      emit h (String.ofList (unwrap instruction.toList)) ⟨{ s.machine with expansions }, w⟩) :
    EmitsItself h instruction s w := by
  refine fun n line => ⟨⟨expansions, hrun n line⟩, ?_⟩
  rw [hrun, emit_bindings]

theorem emitsItself_echo {expansion : Expansion}
    (hx : h.expand instruction s.world = (.ok expansion, w))
    (hscript : expansion.script.toList = printText (unwrap instruction.toList)) :
    EmitsItself h instruction s w := by
  have hparse := parse_printText (unwrap instruction.toList)
  rw [← hscript] at hparse
  refine emitsItself_of_run (s.machine.expansions ++ [expansion]) fun n line => ?_
  rw [execExpand_read hx hparse, execBlock_printText]
  rfl

theorem emitsItself_rejected {expansion : Expansion} {fault : Fault}
    (hx : h.expand instruction s.world = (.ok expansion, w))
    (hq : parse expansion.script.toList = .error fault) : EmitsItself h instruction s w :=
  emitsItself_of_run _ fun n line => execExpand_rejected hx hq n line

/-- A text that is printed comes out as it is. An instruction that is echoed, or whose script
cannot be read, emits itself, and what the classifier and the trace leave alone, such as the lines
so far, is the same until then. -/
theorem echo_exact (h : Host σ) (threshold : Float) (instruction : String) (s : Session σ) :
    (∀ t, tokenize (printText t) = .ok [⟨.keyword .neuro, "neuro", 1, 1⟩,
        ⟨.string, String.ofList t, 1, 7⟩, ⟨.newline, "", 1, (printText t).length + 1⟩] ∧
      parse (printText t) = .ok [.print 1 (.lit (.text (String.ofList t)))] ∧
      ∀ k origin, execBlock h k origin [.print 1 (.lit (.text (String.ofList t)))] =
        emit h (String.ofList t)) ∧
    (∀ classify modelPath trace answer w₁,
      h.expand = expandWith classify modelPath threshold trace →
      (∀ heading content, (trace heading content).Returns) →
      askIntent classify modelPath (unwrap instruction.toList) s.world = (.ok answer, w₁) →
      Echoed threshold instruction answer →
      ∃ w, EmitsItself h instruction s w ∧
        ∀ (γ : Type) (part : σ → γ),
          (∀ f, classify = some f → ∀ model text, (f model text).Keeps part) →
          (∀ heading content, (trace heading content).Keeps part) → part w = part s.world) ∧
    ∀ expansion w fault, h.expand instruction s.world = (.ok expansion, w) →
      parse expansion.script.toList = .error fault → EmitsItself h instruction s w := by
  refine ⟨fun t => ⟨tokenize_printText t, parse_printText t, fun k origin => ?_⟩, ?_, ?_⟩
  · exact execBlock_printText h k origin 1 _
  · intro classify modelPath trace answer w₁ hexpand htrace hask hecho
    obtain ⟨expansion, hanswer, hscript⟩ := ofAnswer_echo hecho
    obtain ⟨w, hx⟩ := expandWith_ok htrace hask hanswer
    rw [← hexpand] at hx
    refine ⟨w, emitsItself_echo hx hscript, fun γ part hclassify hkeep => ?_⟩
    have hkeeps := keeps_expandWith hclassify hkeep modelPath threshold instruction s.world
    rw [← hexpand, hx] at hkeeps
    exact hkeeps
  · exact fun expansion w fault hx hq => emitsItself_rejected hx hq

theorem echo_exact_hello :
    let h := host { modelPath := "" } classifyByModel
    let start : Session (Stage Cache) := ⟨{}, ⟨⟨{}, {}⟩, [.buffer []]⟩⟩
    ∃ w, EmitsItself h "'hello'" start w ∧ w.sinks = [.buffer []] := by
  intro h start
  have hunknown : resolveIntent none 0.0 (unwrap "'hello'".toList) defaultThreshold =
      .ok .unknown := rfl
  obtain ⟨w, hemits, hkeeps⟩ := (echo_exact h defaultThreshold "'hello'" start).2.1 _ _ _
    .absent start.world (host_expand _ _) (fun _ _ => .pure ()) rfl
    (.inl ⟨.unknown, hunknown, .inl rfl⟩)
  refine ⟨w, hemits, hkeeps _ Stage.sinks ?_ ?_⟩
  · rintro f ⟨⟩ model text _
    rfl
  · exact fun _ _ _ => rfl

end Scribe.Run
