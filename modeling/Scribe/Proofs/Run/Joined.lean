import Scribe.Proofs.Run.Diagnostics
import Scribe.Proofs.Run.Renumbered

/-!
# Runs one after the other

Running two scripts one after the other on one machine is running them as one script. The second
one is then read further down, so its errors have other line numbers, and nothing else differs.
-/
namespace Scribe.Run
open Script Text

variable {σ τ α β γ : Type}

theorem Exec.afterwards_bind {t : Exec σ α} {f : α → Exec σ β} {rest : β → Session σ → List γ}
    {s : Session σ} :
    (t >>= f).afterwards rest s = t.afterwards (fun a => (f a).afterwards rest) s := by
  cases hrun : t s with
  | mk result s₁ =>
    cases result with
    | error e =>
      rw [afterwards_of_error hrun, afterwards_of_error (Task.bind_of_error hrun)]
    | ok a =>
      rw [afterwards_of_ok hrun, Exec.afterwards, Exec.afterwards, Task.bind_of_ok hrun]

section Block
variable (h : Host σ) (next : String → Int → Exec σ Unit)
  (said : String → Int → Session σ → List Notice) (origin : Option Int)

theorem execBlock_append (p q : List Stmt) :
    execBlock h next origin (p ++ q) =
      execBlock h next origin p >>= fun _ => execBlock h next origin q := by
  induction p with
  | nil =>
    rw [List.nil_append, execBlock, pure_bind]
  | cons stmt rest ih => rw [List.cons_append, execBlock, ih, execBlock, bind_assoc]

theorem blockNotices_append (p q : List Stmt) (s : Session σ) :
    blockNotices h next said origin (p ++ q) s = blockNotices h next said origin p s ++
      (execBlock h next origin p).afterwards (fun _ => blockNotices h next said origin q) s := by
  induction p generalizing s with
  | nil =>
    rw [List.nil_append, execBlock]
    rfl
  | cons stmt rest ih =>
    rw [List.cons_append, blockNotices_cons, blockNotices_cons, execBlock, Exec.afterwards_bind,
      List.append_assoc, Exec.afterwards_append]
    congr 2
    funext _ s
    exact ih s

end Block

theorem map_shift_zero (notices : List Notice) : notices.map (Notice.shift 0) = notices := by
  refine (List.map_congr_left fun notice _ => ?_).trans (List.map_id notices)
  cases notice with
  | output line => rfl
  | report kind line message => simp [Notice.shift]

/-- The program of a script keeps pace with itself further down. -/
theorem Host.Detached.paced_program {h : Host σ} {R : σ → σ → Prop} (hd : h.Detached R)
    {source : List Char} {p : Program} (hp : parse source = .ok p) (n : Nat) :
    PacedBlock R n h (execExpand h h.maxDepth.toNat) (expandNotices h h.maxDepth.toNat) none none n
      p := by
  refine hd.paced_block (fun instruction line hline =>
    hd.paced_expand (by omega) _ instruction hline) fun x hx => ?_
  have hline := (line_of_parse hp hx).1
  simp only [reportedLine]
  omega

/-- So does its run, whatever keeps pace with its end. -/
theorem Host.Detached.paced_run {h : Host σ} {R : σ → σ → Prop} (hd : h.Detached R)
    {source : List Char} {p : Program} (hp : parse source = .ok p) (lineMap : List Int) (n : Nat)
    {finish : Exec σ Phase}
    (hfinish : Paced R n (Exec.finish .finished) finish (fun _ => []) fun _ => []) :
    let next := execExpand h h.maxDepth.toNat
    Paced R n (runSource h source lineMap)
      (execBlock h next none (shiftBlock n p) >>= fun _ => finish) (runNotices h source lineMap)
      (blockNotices h next (expandNotices h h.maxDepth.toNat) none (shiftBlock n p)) := by
  intro next s s' hs
  have hpaced := (hd.paced_program hp n).bind_silent fun _ => hfinish
  rw [runSource_read hp, runNotices, hp, execute, Int.sub_zero]
  exact hpaced _ _ ⟨hs.bindings, hs.activeModel, hs.expansions, hs.world⟩

/-- Where the services of a host take no notice of the lines that are emitted, two scripts that
are run one after the other do what they do as one script, and report the errors of the second
one on the lines that it has there. -/
theorem Host.Detached.run_append {h : Host σ} {R : σ → σ → Prop} (hd : h.Detached R)
    {a b : List Char} {p q : Program} (ha : parse a = .ok p) (hb : parse b = .ok q)
    (first second both : List Int) {s : Session σ} (hs : R s.world s.world) :
    let parts := (runSource h a first >>= fun _ => runSource h b second) s
    let whole := runSource h (a ++ '\n' :: b) both s
    parts.1 = whole.1 ∧ parts.2.Alike R whole.2 ∧
      runNotices h (a ++ '\n' :: b) both s = runNotices h a first s ++
        ((runSource h a first).afterwards (fun _ => runNotices h b second) s).map
          (Notice.shift (lines a).length) := by
  intro parts whole
  -- The first of the two runs ends where the whole one goes on.
  have hbetween : Paced R 0 (Exec.finish .finished) (pure .finished) (fun _ => []) fun _ => [] :=
    fun s s' hs => ⟨rfl, ⟨hs.bindings, hs.activeModel, hs.expansions, hs.world⟩, rfl⟩
  have hend : Paced R (lines a).length (Exec.finish .finished) (Exec.finish .finished)
      (fun _ => []) fun _ => [] :=
    fun s s' hs => ⟨rfl, ⟨hs.bindings, hs.activeModel, hs.expansions, hs.world⟩, rfl⟩
  have hstart : s.Alike R (s.started both) := ⟨rfl, rfl, rfl, hs⟩
  obtain ⟨hresult, halike, hnotices⟩ :=
    (hd.paced_run ha first 0 hbetween).seq (fun _ => hd.paced_run hb second _ hend) hstart
  have hp := parse_append ha hb
  have hwhole : whole = _ := runSource_read hp both s
  rw [execute, Int.sub_zero, execBlock_append, bind_assoc] at hwhole
  simp only [shiftBlock_zero, bind_assoc, pure_bind] at hresult halike
  rw [← hwhole] at hresult halike
  rw [shiftBlock_zero, Exec.afterwards_bind, Int.ofNat_zero, map_shift_zero] at hnotices
  refine ⟨hresult, halike, ?_⟩
  rw [runNotices, hp]
  dsimp only
  rw [blockNotices_append]
  exact hnotices

/-- The lines that two runs add are the notices of the first one, and behind them those of the
second one. -/
theorem Host.Records.run_bind {h : Host σ} {holds : σ → List String → Prop} (hr : h.Records holds)
    (a b : List Char) (first second : List Int) {s : Session σ} {log : List String}
    (hs : holds s.world log) :
    holds ((runSource h a first >>= fun _ => runSource h b second) s).2.world
      (log ++ (runNotices h a first s).map (Notice.text (sourceLine first)) ++
        ((runSource h a first).afterwards (fun _ => runNotices h b second) s).map
          (Notice.text (sourceLine second))) := by
  have hfirst := hr.run a first hs
  cases hrun : runSource h a first s with
  | mk result s₁ =>
    rw [hrun] at hfirst
    cases result with
    | error crash =>
      rw [Task.bind_of_error hrun, Exec.afterwards_of_error hrun, List.map_nil, List.append_nil]
      exact hfirst
    | ok phase =>
      rw [Task.bind_of_ok hrun, Exec.afterwards_of_ok hrun]
      exact hr.run b second hfirst

theorem Notice.text_shift (number : Int → Int) (k : Int) (notice : Notice) :
    (notice.shift k).text number = notice.text fun line => number (line + k) := by
  cases notice <;> rfl

/-- The notices of a script read the same under line maps that agree on its lines. -/
theorem text_runNotices_congr {h : Host σ} {source : List Char} {lineMap : List Int}
    {s : Session σ} {number number' : Int → Int}
    (hnumber : ∀ line : Int, 1 ≤ line → line ≤ (lines source).length → number line = number' line) :
    (runNotices h source lineMap s).map (Notice.text number) =
      (runNotices h source lineMap s).map (Notice.text number') := by
  refine List.map_congr_left fun notice hmem => ?_
  cases hn : notice with
  | output line => rfl
  | report kind line message =>
    obtain ⟨own, hstems⟩ := stems_of_mem hmem
    have hrange := hstems.range
    have hline : 1 ≤ line ∧ line ≤ (lines source).length := by
      rcases hstems.reported hn with rfl | ⟨rfl, -⟩ <;> omega
    rw [Notice.text, Notice.text, hnumber line hline.1 hline.2]

structure Logged (τ : Type) where
  log : List String
  services : τ

def Logged.zoom (t : Task τ α) : Task (Logged τ) α :=
  Task.zoom Logged.services (fun services w => { w with services }) t

/-- The host of any services that keeps the lines it is given. -/
def recording (classify : Option (String → String → Task τ (Except ClassifierError Verdict)))
    (expand : String → Task τ Expansion) (maxDepth : Int) : Host (Logged τ) where
  emit line := modify fun w => { w with log := w.log ++ [line] }
  classify := classify.map fun f model text => Logged.zoom (f model text)
  expand instruction := Logged.zoom (expand instruction)
  maxDepth := maxDepth

section Recording
variable (classify : Option (String → String → Task τ (Except ClassifierError Verdict)))
  (expand : String → Task τ Expansion) (maxDepth : Int)

theorem recording_records :
    (recording classify expand maxDepth).Records fun w log => w.log = log where
  emit := by
    rintro w log rfl line
    rfl
  classify := by
    rintro w log rfl f hf model text
    obtain ⟨g, -, rfl⟩ := Option.map_eq_some_iff.mp hf
    rfl
  expand := by
    rintro w log rfl instruction
    rfl

theorem Logged.zoom_respects (t : Task τ α) :
    (Logged.zoom t).Respects fun w w' => w.services = w'.services := by
  intro w w' hw
  change (t w.services).1 = (t w'.services).1 ∧ (t w.services).2 = (t w'.services).2
  rw [hw]
  exact ⟨rfl, rfl⟩

theorem recording_detached :
    (recording classify expand maxDepth).Detached fun w w' => w.services = w'.services where
  emit line line' w w' hw := ⟨rfl, hw⟩
  classify := by
    intro f hf model text
    obtain ⟨g, -, rfl⟩ := Option.map_eq_some_iff.mp hf
    exact Logged.zoom_respects (g model text)
  expand instruction := Logged.zoom_respects (expand instruction)

end Recording

/-- Two scripts that can be read can be read as one, with the lines of the second one moved, and
they are modernized one by one. Running the one script is running the two one after the other:
the variables, the model, the expansions and the lines are the same, but that the errors of the
second script have the numbers of its lines in the whole. The line maps may be any under which
the lines of the first script have the same numbers. -/
theorem run_in_parts {a b : List Char} {p q : Program} (ha : parse a = .ok p)
    (hb : parse b = .ok q)
    (classify : Option (String → String → Task τ (Except ClassifierError Verdict)))
    (expand : String → Task τ Expansion) (maxDepth : Int) (first second both : List Int)
    (hmaps : ∀ line : Int, 1 ≤ line → line ≤ (lines a).length →
      sourceLine both line = sourceLine first line)
    (s : Session (Logged τ)) :
    let n := (lines a).length
    let h := recording classify expand maxDepth
    let parts := (runSource h a first >>= fun _ => runSource h b second) s
    let whole := runSource h (a ++ '\n' :: b) both s
    let said := runNotices h a first s
    let more := (runSource h a first).afterwards (fun _ => runNotices h b second) s
    let heard := s.world.log ++ said.map (Notice.text (sourceLine first))
    parse (a ++ '\n' :: b) = .ok (p ++ shiftBlock n q) ∧
    modernize (a ++ '\n' :: b) = ((modernize a).1 ++ '\n' :: (modernize b).1,
      (modernize a).2 ++ (modernize b).2.map (· + n)) ∧
    parts.1 = whole.1 ∧
    parts.2.machine.bindings = whole.2.machine.bindings ∧
    parts.2.machine.activeModel = whole.2.machine.activeModel ∧
    parts.2.machine.expansions = whole.2.machine.expansions ∧
    parts.2.world.services = whole.2.world.services ∧
    parts.2.world.log = heard ++ more.map (Notice.text (sourceLine second)) ∧
    whole.2.world.log = heard ++ more.map (Notice.text fun line => sourceLine both (line + n)) := by
  intro n h parts whole said more heard
  have hrecords := recording_records classify expand maxDepth
  obtain ⟨hresult, halike, hnotices⟩ :=
    (recording_detached classify expand maxDepth).run_append ha hb first second both (s := s) rfl
  have hwhole : whole.2.world.log = s.world.log ++
      (said ++ more.map (Notice.shift n)).map (Notice.text (sourceLine both)) := by
    rw [← hnotices]
    exact hrecords.run _ both rfl
  refine ⟨parse_append ha hb, modernize_append a b, hresult, halike.bindings, halike.activeModel,
    halike.expansions, halike.world, hrecords.run_bind a b first second rfl, ?_⟩
  have hsaid : said.map (Notice.text (sourceLine both)) =
      said.map (Notice.text (sourceLine first)) := text_runNotices_congr hmaps
  rw [hwhole, List.map_append, hsaid, ← List.append_assoc, List.map_map]
  congr 1
  exact List.map_congr_left fun notice _ => Notice.text_shift _ _ notice

/-- The first script ends inside two blocks, and the second one meets an error on its line 2. -/
theorem run_in_parts_nested :
    let a := "if x == x:\n    if x == x:\n        set y = \"hi\"".toList
    let b := "neuro y\nset z from AI: what".toList
    let expand : String → Task Unit Expansion := fun instruction =>
      pure ⟨instruction, .unknown, "neuro y", none, 0.0, true, []⟩
    let s : Session (Logged Unit) := ⟨{}, ⟨[], ()⟩⟩
    ((runSource (recording none expand 1) a [] >>= fun _ =>
        runSource (recording none expand 1) b []) s).2.world.log = ["hi",
      "❌ ClassifierError on line 2: no model selected, add an `AI: \"path\"` line first"] ∧
    (runSource (recording none expand 1) (a ++ '\n' :: b) [] s).2.world.log = ["hi",
      "❌ ClassifierError on line 5: no model selected, add an `AI: \"path\"` line first"] := by
  intro a b expand s
  let same : Expr := .compare (.var "x") [(.eq, .var "x")]
  have ha : parse a = .ok [.choose 1 [(same,
    [.choose 2 [(same, [.assign 3 "y" (.lit (.text "hi"))])] none])] none] := rfl
  have hb : parse b = .ok [.print 1 (.var "y"), .ask 2 "z" "what"] := rfl
  have hsaid : runNotices (recording none expand 1) a [] s = [] := by decide +kernel
  have hmore : (runSource (recording none expand 1) a []).afterwards
        (fun _ => runNotices (recording none expand 1) b []) s =
      [.output "hi",
        .report "ClassifierError" 2 "no model selected, add an `AI: \"path\"` line first"] := by
    decide +kernel
  obtain ⟨-, -, -, -, -, -, -, hparts, hwhole⟩ :=
    run_in_parts ha hb none expand 1 [] [] [] (fun _ _ _ => rfl) s
  rw [hsaid, hmore] at hparts hwhole
  rw [hparts, hwhole]
  decide +kernel

end Scribe.Run
