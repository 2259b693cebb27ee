import Scribe.Proofs.Run.Emission
import Scribe.Proofs.Run.LineMap
import Scribe.Proofs.Script.Positions

/-!
# Lines that errors are reported on

Every error of a run is reported on a line of the script as it was written, namely the line that
its statement comes from, or the line on which the script cannot be read. Statements of an
expanded instruction report the line of the instruction. There is one exception: a script that
ends too early is reported on its first line.
-/
namespace Scribe.Run
open Script Text

variable {σ κ : Type}

/-- What a notice of a run stems from: a fault, with the line that it is found on, or what a
statement says when it is visited, with the line of the statement. -/
inductive Stems (h : Host σ) (source : List Char) (lineMap : List Int) (s : Session σ) :
    Notice → Nat → Prop
  | fault {fault line} (hp : parse source = .error fault) (hf : FoundOn source fault line) :
      Stems h source lineMap s (faultNotice fault) line
  | stmt {program v notice} (hp : parse source = .ok program)
      (hv : v ∈ visitsBlock h (execExpand h h.maxDepth.toNat) none program (s.started lineMap))
      (hn : notice ∈ ownNotices h (expandNotices h h.maxDepth.toNat) none v) :
      Stems h source lineMap s notice v.1.line

def EndsEarly (source : List Char) : Prop :=
  ∃ expected, parse source = .error ⟨.unexpected expected Terminal.endOfInput.describe, some 1⟩

section Stems
variable {h : Host σ} {source : List Char} {lineMap : List Int} {s : Session σ} {notice : Notice}
  {line : Nat}

theorem stems_of_mem (hn : notice ∈ runNotices h source lineMap s) :
    ∃ line, Stems h source lineMap s notice line := by
  unfold runNotices at hn
  cases hp : parse source with
  | error fault =>
    rw [hp] at hn
    obtain ⟨line, hline⟩ := foundOn_of_parse hp
    rw [List.mem_singleton.mp hn]
    exact ⟨line, .fault hp hline⟩
  | ok program =>
    rw [hp] at hn
    obtain ⟨v, hv, hown⟩ := List.mem_flatMap.mp hn
    exact ⟨_, .stmt hp hv hown⟩

theorem Stems.range (hs : Stems h source lineMap s notice line) :
    1 ≤ line ∧ line ≤ (lines source).length := by
  cases hs with
  | fault hp hf => exact hf.range
  | stmt hp hv hn => exact line_of_parse hp (occurs_of_visits hv)

/-- An error is reported on the line that it stems from, unless the script ends too early. -/
theorem Stems.reported {kind message : String} {reported : Int}
    (hs : Stems h source lineMap s notice line) (hn : notice = .report kind reported message) :
    reported = line ∨ reported = 1 ∧ EndsEarly source := by
  have hrange := hs.range
  cases hs with
  | @fault fault line hp hf =>
    obtain ⟨complaint, at?⟩ := fault
    rcases hf.line with hline | ⟨hline, expected, hend⟩
    · cases hline
      cases hn
      exact .inl rfl
    · cases hline
      cases hend
      cases hn
      exact .inr ⟨rfl, expected, hp⟩
  | @stmt program v notice hp hv hown =>
    have hline : reportedLine none v.1.line ≠ 0 := by
      rw [reportedLine]
      omega
    have hon := ownNotices_on (fun i l s hl => expandNotices_on _ i hl s) hline v.2 notice hown
    rw [hn] at hon
    exact .inl hon

/-- A script that cannot be read has one error, on a line. -/
theorem runNotices_unread {fault : Fault} (hp : parse source = .error fault) (h : Host σ)
    (lineMap : List Int) (s : Session σ) :
    ∃ line, runNotices h source lineMap s =
      [.report fault.complaint.kind line fault.message] := by
  obtain ⟨line, hf⟩ := foundOn_of_parse hp
  rw [runNotices, hp]
  rcases hf.line with hline | ⟨hline, -⟩
  · exact ⟨line, by simp only [faultNotice, hline]⟩
  · exact ⟨1, by simp only [faultNotice, hline]⟩

end Stems

def Buffered (stage : Stage κ) (lines : List String) : Prop :=
  ∃ rest, stage.sinks = .buffer lines :: rest

theorem buffered_emitAll (line : String) (lines : List String) (rest : List Sink)
    (around : Surroundings) :
    ∃ rest', (emitAll line (.buffer lines :: rest) around).2 = .buffer (lines ++ [line]) :: rest' :=
  ⟨_, rfl⟩

theorem host_records (c : Config) (classify : Classify κ) :
    (host c classify).Records Buffered where
  emit := by
    rintro ⟨world, sinks⟩ lines ⟨rest, rfl⟩ line
    exact buffered_emitAll line lines rest world.around
  classify := by
    rintro stage lines hb f ⟨⟩ model text
    exact hb
  expand := fun hb _ => hb

/-- The lines of a run on a fresh machine are its notices, whether it ends or crashes. -/
theorem buffered_run (c : Config) (classify : Classify κ) (sinks : List Sink) (source : List Char)
    (w : World κ) :
    let i := interpreter c (.buffer [] :: sinks)
    let modern := modernize (preprocess source)
    let numbers := modern.2.map Int.ofNat
    ∃ rest, (i.run c classify source w).1.2.sinks =
      .buffer ((runNotices (host c classify) modern.1 numbers ⟨i.machine, ⟨w, i.sinks⟩⟩).map
        (Notice.text (sourceLine numbers))) :: rest := by
  intro i modern numbers
  have hstart : Buffered (⟨w, i.sinks⟩ : Stage κ) [] := ⟨_, rfl⟩
  exact (host_records c classify).run modern.1 numbers (s := ⟨i.machine, ⟨w, i.sinks⟩⟩) hstart

theorem output_of_run {c : Config} {classify : Classify κ} {sinks rest : List Sink}
    {source : List Char} {w w' : World κ} {report : Report}
    (h : run c classify sinks source w = (.ok (report, rest), w')) {lines : List String}
    (hlines : ∃ rest, ((interpreter c (.buffer [] :: sinks)).run c classify source w).1.2.sinks =
      .buffer lines :: rest) : report.output = lines := by
  obtain ⟨rest', hlines⟩ := hlines
  unfold run at h
  split at h
  · cases h
  · rename_i phase i w₁ hrun
    rw [hrun] at hlines
    cases h
    rw [hlines]
    rfl

/-- Every error of a run is reported on a line of the script: on the one that the line map gives
for the line it stems from, and only a script that ends too early is reported on its first line
instead. -/
theorem diagnostics_name_lines (c : Config) (classify : Classify κ) (sinks : List Sink)
    (source : List Char) (w : World κ) :
    let script := preprocess source
    let text := (modernize script).1
    let lineMap := (modernize script).2
    let numbers := lineMap.map Int.ofNat
    let h := host c classify
    let i := interpreter c (.buffer [] :: sinks)
    let start : Session (Stage κ) := ⟨i.machine, ⟨w, i.sinks⟩⟩
    let notices := runNotices h text numbers start
    (lineMap.length = (lines text).length ∧ lineMap.Pairwise (· ≤ ·) ∧
      (∀ k ∈ lineMap, 1 ≤ k ∧ k ≤ (lines script).length) ∧
      ∀ k, 1 ≤ k → k ≤ (lines script).length → 1 ≤ lineMap.count k ∧ lineMap.count k ≤ 2) ∧
    (∃ rest, (i.run c classify source w).1.2.sinks =
      .buffer (notices.map (Notice.text (sourceLine numbers))) :: rest) ∧
    (∀ report rest w', run c classify sinks source w = (.ok (report, rest), w') →
      report.output = notices.map (Notice.text (sourceLine numbers))) ∧
    (∀ fault, parse text = .error fault →
      ∃ line, notices = [.report fault.complaint.kind line fault.message]) ∧
    ∀ kind line message, .report kind line message ∈ notices →
      ∃ own reported k : Nat, Stems h text numbers start (.report kind line message) own ∧
        line = reported ∧ (reported = own ∨ reported = 1 ∧ EndsEarly text) ∧
        1 ≤ reported ∧ lineMap[reported - 1]? = some k ∧
        sourceLine numbers line = k ∧ 1 ≤ k ∧ k ≤ (lines script).length := by
  intro script text lineMap numbers h i start notices
  have hbuffer := buffered_run c classify sinks source w
  refine ⟨⟨length_lineMap script, pairwise_lineMap script, fun k => range_of_lineMap script,
    fun k => count_lineMap script⟩, hbuffer, fun report rest w' hrun => output_of_run hrun hbuffer,
    fun fault hp => runNotices_unread hp h numbers start, fun kind line message hmem => ?_⟩
  obtain ⟨own, hstems⟩ := stems_of_mem hmem
  have hrange := hstems.range
  rw [← length_lineMap script] at hrange
  have hplace : ∃ reported : Nat, line = reported ∧
      (reported = own ∨ reported = 1 ∧ EndsEarly text) ∧
      1 ≤ reported ∧ reported ≤ lineMap.length := by
    rcases hstems.reported rfl with rfl | ⟨rfl, hend⟩
    · exact ⟨own, rfl, .inl rfl, hrange.1, hrange.2⟩
    · exact ⟨1, rfl, .inr ⟨rfl, hend⟩, Nat.le_refl 1, Nat.le_trans hrange.1 hrange.2⟩
  obtain ⟨reported, hline, hwhere, hone, hlast⟩ := hplace
  have hentry : lineMap[reported - 1]? = some (lineMap.get ⟨reported - 1, by omega⟩) :=
    List.getElem?_eq_getElem (by omega)
  refine ⟨own, reported, _, hstems, hline, hwhere, hone, hentry, ?_, ?_⟩
  · rw [hline]
    exact sourceLine_of_entry hone (by rw [List.getElem?_map, hentry]; rfl)
  · exact range_of_lineMap script (List.get_mem _ _)

/-- A block that is missing on the last line is reported on the first one. -/
theorem diagnostics_name_lines_early :
    let source := "neuro x\nif x:".toList
    let fault : Fault := ⟨.unexpected ["indented block"] "end of input", some 1⟩
    let h := host {} classifyByModel
    let start : Session (Stage Cache) := ⟨{}, ⟨⟨{}, {}⟩, [.buffer []]⟩⟩
    let notice : Notice := .report "ParseError" 1 fault.message
    runNotices h source [1, 2] start = [notice] ∧ FoundOn source fault 2 ∧
      ∃ own reported k : Nat, Stems h source [1, 2] start notice own ∧
        (reported = own ∨ reported = 1 ∧ EndsEarly source) ∧ sourceLine [1, 2] 1 = k ∧ k ≤ 2 := by
  intro source fault h start notice
  have hp : parse source = .error fault := rfl
  have htokens : tokenize source = .ok
      [⟨.keyword .neuro, "neuro", 1, 1⟩, ⟨.identifier, "x", 1, 7⟩, ⟨.newline, "", 1, 8⟩,
        ⟨.keyword .ifWord, "if", 2, 1⟩, ⟨.identifier, "x", 2, 4⟩, ⟨.colon, ":", 2, 5⟩,
        ⟨.newline, "", 2, 6⟩] := rfl
  have hrun : runNotices h source [1, 2] start = [notice] := by
    rw [runNotices, hp]
    rfl
  have hmem : notice ∈ runNotices h source [1, 2] start := by
    rw [hrun]
    exact List.mem_singleton.mpr rfl
  obtain ⟨own, reported, k, hstems, -, hwhere, -, -, hk, -, hlast⟩ :=
    (diagnostics_name_lines {} classifyByModel [] source ⟨{}, {}⟩).2.2.2.2 _ _ _ hmem
  exact ⟨hrun, .ending htokens, own, reported, k, hstems, hwhere, hk, hlast⟩

end Scribe.Run
