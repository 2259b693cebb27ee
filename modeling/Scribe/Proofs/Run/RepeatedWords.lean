import Scribe.Proofs.Instruction.RepeatedWords
import Scribe.Proofs.Run.Loops

/-!
# Words that are shown several times are emitted

`Show m n times` runs as a loop, whether the words decide or a classifier takes it for one. It emits
the word itself, as often as it says and at most twelve times.
-/
namespace Scribe.Run
open Script Instruction Text

variable {σ : Type} {h : Host σ}
  {classify : Option (String → String → Task σ (Except ClassifierError Verdict))}
  {modelPath : String} {threshold : Float} {trace : String → String → Task σ Unit}
  {instruction : String} {s : Session σ} {expansion : Expansion} {w : σ}

/-- A loop emits its message in as many rounds as it asks for. -/
theorem execExpand_loop (hexpand : h.expand = expandWith classify modelPath threshold trace)
    (hx : h.expand instruction s.world = (.ok expansion, w)) (hloop : expansion.intent = .loop)
    {n : Nat} (hcount : loopCount instruction.toList = .ok (some n)) (allowance : Nat)
    (line : Int) :
    execExpand h (allowance + 1) instruction line s =
      forM (List.replicate (rounds n) (String.ofList (loopMessage instruction.toList))) (emit h)
        ⟨s.machine.record expansion, w⟩ := by
  have hexpanded := hx
  rw [hexpand] at hexpanded
  obtain ⟨answer, hanswer⟩ := ofAnswer_of_expandWith hexpanded
  obtain ⟨asked, hasked, -, hscript⟩ := ofAnswer_loop hanswer hloop
  obtain rfl : asked = n := Option.some.inj (Except.ok.inj (hasked.symm.trans hcount))
  have hparse := parse_prints (loopMessage instruction.toList) (rounds_pos asked)
  rw [← hscript] at hparse
  rw [execExpand_read hx hparse, execBlock_prints]

/-- Lines that are emitted once an instruction is expanded change no more than the list of
expansions, and a host that takes every line holds them. -/
theorem emits_recorded (hx : h.expand instruction s.world = (.ok expansion, w))
    (emitted : List String) :
    (forM emitted (emit h) ⟨s.machine.record expansion, w⟩).2.machine =
        s.machine.record expansion ∧
      ∀ holds lines, h.Takes holds → holds s.world lines →
        (forM emitted (emit h) ⟨s.machine.record expansion, w⟩).1 = .ok () ∧
        holds (forM emitted (emit h) ⟨s.machine.record expansion, w⟩).2.world
          (lines ++ emitted) := by
  refine ⟨keeps_emits h emitted _, fun holds lines htakes hs => ?_⟩
  have hheld := htakes.expand hs instruction
  rw [hx] at hheld
  exact htakes.emits emitted hheld

def showTimes (m : LetterWord) (n : Nat) : String :=
  let word := String.ofList m.text
  s!"Show {word} {n} times"

theorem toList_showTimes (m : LetterWord) (n : Nat) :
    (showTimes m n).toList = shownSentence m (.ofNat n) := by
  have hsame (t : String) : toString t = t := rfl
  simp only [showTimes, hsame, String.toList_append, String.toList_ofList, shownSentence_eq,
    shownCount_eq, Digits.text_ofNat]
  simp

/-- A word that does not count by itself is shown as often as the number says within its bounds,
where the words decide or the classifier has no doubt that it is asked for a loop. -/
theorem shown_repeated (hexpand : h.expand = expandWith classify modelPath threshold trace)
    (htrace : ∀ heading content, (trace heading content).Returns) {m : LetterWord}
    (hm : ¬m.IsMultiplier) (n : Nat) {answer : Expansion.Answer} {w₁ : σ}
    (hask : askIntent classify modelPath (unwrap (showTimes m n).toList) s.world =
      (.ok answer, w₁))
    (hloop : isUnusable answer.label? answer.score threshold = true ∨
      answer.label?.bind Intent.ofLabel? = some .loop) :
    ∃ expansion w, h.expand (showTimes m n) s.world = (.ok expansion, w) ∧
      expansion.intent = .loop ∧
      ∀ allowance line,
        let emitted := List.replicate (max 1 (min 12 n)) (String.ofList m.text)
        let ran := execExpand h (allowance + 1) (showTimes m n) line s
        let recorded := s.machine.expansions ++ [expansion]
        ran = forM emitted (emit h) ⟨{ s.machine with expansions := recorded }, w⟩ ∧
        ran.2.machine = { s.machine with expansions := recorded } ∧
        ∀ holds lines, h.Takes holds → holds s.world lines →
          ran.1 = .ok () ∧ holds ran.2.world (lines ++ emitted) := by
  have htext := toList_showTimes m n
  have hcount : loopCount (showTimes m n).toList = .ok (some n) := by
    rw [htext, loopCount_shown, Digits.number_ofNat]
  have hmessage : loopMessage (showTimes m n).toList = m.text := by
    rw [htext, loopMessage_shown hm]
  obtain ⟨expansion, hanswer, hintent⟩ : ∃ expansion,
      Expansion.ofAnswer threshold (showTimes m n) answer = .ok expansion ∧
        expansion.intent = .loop := by
    have hresolve := resolveIntent_shown m (.ofNat n) hloop
    rw [← unwrap_shownSentence, ← htext] at hresolve
    simp only [Expansion.ofAnswer, hresolve, scriptFor_loop hcount, Except.map]
    exact ⟨_, rfl, rfl⟩
  obtain ⟨w, hx⟩ := expandWith_ok htrace hask hanswer
  rw [← hexpand] at hx
  refine ⟨expansion, w, hx, hintent, fun allowance line => ?_⟩
  intro emitted ran recorded
  have hrounds : rounds n = max 1 (min 12 n) := by
    simp only [rounds, clampCount, leastCount, mostCount]
    omega
  have hrun : ran = forM emitted (emit h) ⟨s.machine.record expansion, w⟩ := by
    change execExpand h (allowance + 1) (showTimes m n) line s = _
    rw [execExpand_loop hexpand hx hintent hcount, hmessage, hrounds]
  rw [hrun]
  exact ⟨rfl, emits_recorded hx emitted⟩

theorem shown_repeated_when :
    let h := host { modelPath := "" } classifyByModel
    let start : Session (Stage Cache) := ⟨{}, ⟨⟨{}, {}⟩, [.buffer []]⟩⟩
    ∃ s, execExpand h 1 "Show when 20 times" 1 start = (.ok (), s) ∧
      s.world.sinks = [.buffer (List.replicate 12 "when")] := by
  intro h start
  let m : LetterWord := ⟨'w', "hen".toList, by decide⟩
  have hbuffer := host_takes_buffer { modelPath := "" } classifyByModel
  have hask : askIntent (some fun model text => Stage.zoom (World.ask classifyByModel model text)) ""
      (unwrap (showTimes m 20).toList) start.world = (.ok .absent, start.world) := rfl
  obtain ⟨expansion, w, -, -, hrun⟩ := shown_repeated (h := h) (m := m) (host_expand _ _)
    (fun _ _ => .pure ()) (by decide) 20 hask (.inl rfl)
  obtain ⟨-, -, hholds⟩ := hrun 0 1
  obtain ⟨hok, hsinks⟩ := hholds _ [] hbuffer rfl
  have htext : showTimes m 20 = "Show when 20 times" := by decide
  rw [htext] at hok hsinks
  cases hran : execExpand h (0 + 1) "Show when 20 times" 1 start with
  | mk result s =>
    rw [hran] at hok hsinks
    cases hok
    exact ⟨s, rfl, hsinks⟩

/-- A word that counts by itself is not what is shown, also when it has a capital letter. -/
theorem shown_capitalized :
    let h := host { modelPath := "" } classifyByModel
    let start : Session (Stage Cache) := ⟨{}, ⟨⟨{}, {}⟩, [.buffer []]⟩⟩
    let m : LetterWord := ⟨'O', "nce".toList, by decide⟩
    String.ofList m.text ∉ ["once", "twice", "thrice"] ∧ showTimes m 3 = "Show Once 3 times" ∧
    ∃ s, execExpand h 1 (showTimes m 3) 1 start = (.ok (), s) ∧
      s.world.sinks = [.buffer (List.replicate 3 "Show")] ∧
      s.world.sinks ≠ [.buffer (List.replicate 3 (String.ofList m.text))] := by
  intro h start m
  have hbuffer := host_takes_buffer { modelPath := "" } classifyByModel
  have htext : showTimes m 3 = "Show Once 3 times" := by decide
  obtain ⟨expansion, hanswer, hloop⟩ : ∃ expansion, Expansion.ofAnswer defaultThreshold
      "Show Once 3 times" .absent = .ok expansion ∧ expansion.intent = .loop := ⟨_, rfl, rfl⟩
  have hexpand := host_expand { modelPath := "" } classifyByModel
  obtain ⟨w, hx⟩ : ∃ w, h.expand "Show Once 3 times" start.world = (.ok expansion, w) := by
    rw [show h.expand = _ from hexpand]
    exact expandWith_ok (fun _ _ => .pure ()) rfl hanswer
  have hrun := execExpand_loop (h := h) hexpand hx hloop (n := 3) rfl 0 1
  have hmessage : String.ofList (loopMessage "Show Once 3 times".toList) = "Show" := rfl
  have hrounds : rounds 3 = 3 := rfl
  rw [hmessage, hrounds] at hrun
  obtain ⟨hok, hsinks⟩ := (emits_recorded hx (List.replicate 3 "Show")).2 _ [] hbuffer rfl
  rw [← hrun] at hok hsinks
  refine ⟨by decide, htext, ?_⟩
  rw [htext]
  cases hran : execExpand h (0 + 1) "Show Once 3 times" 1 start with
  | mk result s =>
    rw [hran] at hok hsinks
    cases hok
    have hother : [Sink.buffer (List.replicate 3 "Show")] ≠
        [Sink.buffer (List.replicate 3 (String.ofList m.text))] := by decide
    exact ⟨s, rfl, hsinks, fun h => hother (hsinks.symm.trans h)⟩

end Scribe.Run
