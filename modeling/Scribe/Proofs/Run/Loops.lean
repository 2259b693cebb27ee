import Scribe.Proofs.Instruction.Loops
import Scribe.Proofs.Run.Echo
import Scribe.Proofs.Run.Joined
import Scribe.Proofs.Script.DraftReading

/-!
# Loops emit what they count

The script of a loop is one printing line, written as often as the loop runs. It is read as that
many statements, and running them emits the message of the loop that often and changes nothing
else.
-/
namespace Scribe

namespace Script.Draft
open Text

def Block.repeated (c : Clause) : Nat → Block
  | 0 => .one c
  | n + 1 => .cons c (repeated c n)

variable {c : Clause} {w : List Char}

theorem Block.lines_repeated (h : c.lines = [w]) (n : Nat) :
    (Block.repeated c n).lines = List.replicate (n + 1) w := by
  induction n with
  | zero => exact h
  | succ n ih =>
    rw [Block.repeated, Block.lines, h, ih]
    rfl

theorem Block.trees_repeated (h : c.lines = [w]) (n line : Nat) :
    (Block.repeated c n).trees line = (List.range' line (n + 1)).map fun i => c.tree i := by
  induction n generalizing line with
  | zero => rfl
  | succ n ih =>
    rw [Block.repeated, Block.trees, h, ih, List.range'_succ (n := n + 1)]
    rfl

theorem parse_repeated (h : c.lines = [w]) {n : Nat} (hn : 0 < n) :
    parse (joinLines (List.replicate n w)) = .ok ((List.range' 1 n).map fun i => c.tree i) := by
  obtain ⟨k, rfl⟩ := Nat.exists_eq_add_one.mpr hn
  rw [← Block.lines_repeated h, Block.parse_text, Block.trees_repeated h]

end Script.Draft

namespace Run
open Script Instruction Text

def prints (text : String) (n : Nat) : Program :=
  (List.range' 1 n).map fun line => .print line (.lit (.text text))

theorem parse_prints (message : List Char) {n : Nat} (hn : 0 < n) :
    parse (joinLines (List.replicate n (printText message))) =
      .ok (prints (String.ofList message) n) := by
  have hline : (Draft.Clause.print (.string (String.ofList message))).lines =
      [printText message] :=
    congrArg (fun text => [printText text]) String.toList_ofList
  exact Draft.parse_repeated hline hn

variable {σ : Type}

theorem execBlock_prints (h : Host σ) (k : String → Int → Exec σ Unit) (origin : Option Int)
    (text : String) (n : Nat) :
    execBlock h k origin (prints text n) = forM (List.replicate n text) (emit h) := by
  suffices hfrom : ∀ line, execBlock h k origin
      ((List.range' line n).map fun line => .print line (.lit (.text text))) =
        forM (List.replicate n text) (emit h) from hfrom 1
  induction n with
  | zero =>
    intro line
    rw [List.range'_zero, List.map_nil, execBlock]
    rfl
  | succ n ih =>
    intro line
    rw [List.range'_succ, List.map_cons, ← List.singleton_append, execBlock_append,
      execBlock_printText, ih, List.replicate_succ, List.forM_cons]

theorem keeps_emits (h : Host σ) (lines : List String) :
    Task.Keeps Session.machine (forM lines (emit h)) := by
  induction lines with
  | nil => exact .pure _
  | cons line rest ih =>
    rw [List.forM_cons]
    exact (keeps_emit h line).bind fun _ => ih

structure Host.Takes (h : Host σ) (holds : σ → List String → Prop) : Prop
    extends h.Records holds where
  returns : ∀ {w lines}, holds w lines → ∀ line, (h.emit line w).1 = .ok ()

theorem Host.Takes.emits {h : Host σ} {holds : σ → List String → Prop} (ht : h.Takes holds)
    (more : List String) {s : Session σ} {lines : List String} (hs : holds s.world lines) :
    (forM more (Run.emit h) s).1 = .ok () ∧
      holds (forM more (Run.emit h) s).2.world (lines ++ more) := by
  induction more generalizing s lines with
  | nil =>
    rw [List.append_nil]
    exact ⟨rfl, hs⟩
  | cons line rest ih =>
    have hreturn := ht.returns hs line
    have hheld := ht.emit hs line
    cases hemit : h.emit line s.world with
    | mk result w =>
      rw [hemit] at hreturn hheld
      cases hreturn
      have hstep : Run.emit h line s = (.ok (), { s with world := w }) := Exec.world_of hemit
      rw [List.forM_cons, Task.bind_of_ok hstep, List.append_cons]
      exact ih hheld

/-- A buffer takes every line. -/
theorem host_takes_buffer {κ : Type} (config : Config) (classify : Classify κ) :
    (host config classify).Takes fun stage lines => stage.sinks = [.buffer lines] := by
  refine ⟨⟨?_, ?_, ?_⟩, ?_⟩
  · rintro ⟨world, sinks⟩ lines rfl line
    rfl
  · rintro stage lines hs f ⟨⟩ model text
    exact hs
  · exact fun hs _ => hs
  · rintro ⟨world, sinks⟩ lines rfl line
    rfl

/-- A loop names a count, its script can be read, and running it emits the message of the loop as
often as the count says within its bounds, adds the expansion to the list of expansions, and
changes nothing else of the machine. -/
theorem loop_exact {h : Host σ}
    {classify : Option (String → String → Task σ (Except ClassifierError Verdict))}
    {modelPath : String} {threshold : Float} {trace : String → String → Task σ Unit}
    (hexpand : h.expand = expandWith classify modelPath threshold trace)
    {instruction : String} {s : Session σ} {expansion : Expansion} {w : σ}
    (hx : h.expand instruction s.world = (.ok expansion, w)) (hloop : expansion.intent = .loop) :
    ∃ n, loopCount instruction.toList = .ok (some n) ∧
      "loop count missing, defaulted to 1" ∉ expansion.degradations ∧
      ((∃ asked count : Nat, s!"loop count {asked} clamped to {count}" ∈ expansion.degradations) ↔
        ¬(1 ≤ n ∧ n ≤ 12)) ∧
      (∃ program, parse expansion.script.toList = .ok program) ∧
      ∀ allowance line,
        let message := String.ofList (loopMessage instruction.toList)
        let emitted := List.replicate (clampCount n).toNat message
        let ran := execExpand h (allowance + 1) instruction line s
        let recorded := s.machine.expansions ++ [expansion]
        ran = forM emitted (emit h) ⟨{ s.machine with expansions := recorded }, w⟩ ∧
        ran.2.machine = { s.machine with expansions := recorded } ∧
        ∀ holds lines, h.Takes holds → holds s.world lines →
          ran.1 = .ok () ∧ holds ran.2.world (lines ++ emitted) := by
  rw [hexpand] at hx
  obtain ⟨answer, hanswer⟩ := ofAnswer_of_expandWith hx
  rw [← hexpand] at hx
  obtain ⟨n, hcount, hnotes, hscript⟩ := ofAnswer_loop hanswer hloop
  have hparse := parse_prints (loopMessage instruction.toList) (rounds_pos n)
  rw [← hscript] at hparse
  have hclamped (asked count : Nat) :
      (s!"loop count {asked} clamped to {count}").toList.head? = some 'l' :=
    head?_append (head?_append (head?_append rfl _) _) _
  refine ⟨n, hcount, ?_, ?_, ⟨_, hparse⟩, fun allowance line => ?_⟩
  · rw [hnotes, mem_notes_iff rfl]
    exact missing_not_mem_countNotes n
  · simp only [hnotes, mem_notes_iff (hclamped _ _)]
    exact clamped_mem_countNotes_iff n
  · intro message emitted ran recorded
    have hrun : ran = forM emitted (emit h) ⟨s.machine.record expansion, w⟩ := by
      change execExpand h (allowance + 1) instruction line s = _
      rw [execExpand_read hx hparse, execBlock_prints]
      rfl
    refine ⟨hrun, ?_, fun holds lines htakes hs => ?_⟩
    · rw [hrun]
      exact keeps_emits h emitted _
    · have hheld := htakes.expand hs instruction
      rw [hx] at hheld
      rw [hrun]
      exact htakes.emits emitted hheld

theorem loop_exact_twenty :
    let h := host { modelPath := "" } classifyByModel
    let start : Session (Stage Cache) := ⟨{}, ⟨⟨{}, {}⟩, [.buffer []]⟩⟩
    ∃ s, execExpand h 1 "print 'hi' 20 times" 1 start = (.ok (), s) ∧
      s.world.sinks = [.buffer (List.replicate 12 "hi")] ∧
      ∃ expansion, s.machine.expansions = [expansion] ∧ ∃ asked count : Nat,
        s!"loop count {asked} clamped to {count}" ∈ expansion.degradations := by
  intro h start
  have hbuffer := host_takes_buffer { modelPath := "" } classifyByModel
  obtain ⟨expansion, hanswer, hloop⟩ : ∃ expansion, Expansion.ofAnswer defaultThreshold
      "print 'hi' 20 times" .absent = .ok expansion ∧ expansion.intent = .loop := ⟨_, rfl, rfl⟩
  have hexpand := host_expand { modelPath := "" } classifyByModel
  obtain ⟨w, hx⟩ : ∃ w, h.expand "print 'hi' 20 times" start.world = (.ok expansion, w) := by
    rw [show h.expand = _ from hexpand]
    exact expandWith_ok (fun _ _ => .pure ()) rfl hanswer
  obtain ⟨n, hcount, -, hnotes, -, hrun⟩ := loop_exact (h := h) hexpand hx hloop
  have htwenty : loopCount "print 'hi' 20 times".toList = .ok (some 20) := rfl
  rw [htwenty] at hcount
  cases hcount
  have hmessage : String.ofList (loopMessage "print 'hi' 20 times".toList) = "hi" := rfl
  have hrounds : (clampCount (20 : Nat)).toNat = 12 := rfl
  obtain ⟨-, hmachine, hholds⟩ := hrun 0 1
  obtain ⟨hok, hsinks⟩ := hholds _ [] hbuffer rfl
  cases hran : execExpand h (0 + 1) "print 'hi' 20 times" 1 start with
  | mk result s =>
    rw [hran] at hok hsinks hmachine
    rw [hmessage, hrounds, List.nil_append] at hsinks
    cases hok
    exact ⟨s, rfl, hsinks, expansion, congrArg Machine.expansions hmachine, hnotes.mpr (by decide)⟩

end Run
end Scribe
