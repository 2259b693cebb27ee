import Scribe.Proofs.Run.Notices

/-!
# Emitted lines are notices

A host that holds the lines it is given holds, after a run, the lines it held before and the
notices of the run behind them. This is so whether the run ends or crashes, since a statement is
visited only where the one before it has ended.
-/
namespace Scribe.Run
open Script

variable {σ : Type}

structure Host.Records (h : Host σ) (holds : σ → List String → Prop) : Prop where
  emit : ∀ {w lines}, holds w lines → ∀ line, holds (h.emit line w).2 (lines ++ [line])
  classify : ∀ {w lines}, holds w lines → ∀ f, h.classify = some f → ∀ model text,
    holds (f model text w).2 lines
  expand : ∀ {w lines}, holds w lines → ∀ instruction, holds (h.expand instruction w).2 lines

def Speaks {α : Type} (holds : σ → List String → Prop) (t : Exec σ α)
    (notices : Session σ → List Notice) : Prop :=
  ∀ s lines, holds s.world lines →
    holds (t s).2.world (lines ++ (notices s).map (Notice.text (sourceLine s.machine.lineMap))) ∧
      (t s).2.machine.lineMap = s.machine.lineMap

section Speaks
variable {α β : Type} {holds : σ → List String → Prop} {h : Host σ}

theorem Speaks.silent {t : Exec σ α} (hworld : ∀ s lines, holds s.world lines →
    holds (t s).2.world lines) (hmap : ∀ s, (t s).2.machine.lineMap = s.machine.lineMap) :
    Speaks holds t fun _ => [] := by
  intro s lines hs
  rw [List.map_nil, List.append_nil]
  exact ⟨hworld s lines hs, hmap s⟩

theorem Speaks.pure (a : α) : Speaks holds (pure a : Exec σ α) fun _ => [] :=
  .silent (fun _ _ hs => hs) fun _ => rfl

theorem Speaks.bind {t : Exec σ α} {f : α → Exec σ β} {n : Session σ → List Notice}
    {m : α → Session σ → List Notice} (ht : Speaks holds t n) (hf : ∀ a, Speaks holds (f a) (m a)) :
    Speaks holds (t >>= f) fun s => n s ++ t.afterwards m s := by
  intro s lines hs
  dsimp only
  obtain ⟨hheld, hmap⟩ := ht s lines hs
  cases hrun : t s with
  | mk result s' =>
    rw [hrun] at hheld hmap
    cases result with
    | error e =>
      rw [Task.bind_of_error hrun, Exec.afterwards_of_error hrun, List.append_nil]
      exact ⟨hheld, hmap⟩
    | ok a =>
      obtain ⟨hheld', hmap'⟩ := hf a s' _ hheld
      rw [Task.bind_of_ok hrun, Exec.afterwards_of_ok hrun, List.map_append, ← List.append_assoc]
      rw [hmap] at hheld' hmap'
      exact ⟨hheld', hmap'⟩

theorem Speaks.of_eq {t : Exec σ α} {n m : Session σ → List Notice} (ht : Speaks holds t n)
    (h : ∀ s, m s = n s) : Speaks holds t m := by
  have heq : m = n := funext h
  exact heq ▸ ht

theorem Speaks.bind_silent {t : Exec σ α} {f : α → Exec σ β} {n : Session σ → List Notice}
    (ht : Speaks holds t n) (hf : ∀ a, Speaks holds (f a) fun _ => []) :
    Speaks holds (t >>= f) n :=
  (ht.bind hf).of_eq fun s => by rw [Exec.afterwards_nil, List.append_nil]

/-- A task that does what another one does says what that one says. -/
theorem Speaks.of_run {t : Exec σ α} {n : Session σ → List Notice}
    (ht : ∀ s, ∃ (t' : Exec σ α) (n' : Session σ → List Notice),
      Speaks holds t' n' ∧ t s = t' s ∧ n s = n' s) : Speaks holds t n := by
  intro s lines hs
  obtain ⟨t', n', hspeaks, hrun, hnotices⟩ := ht s
  rw [hrun, hnotices]
  exact hspeaks s lines hs

namespace Host.Records
variable (hr : h.Records holds)
include hr

theorem speaks_emit (line : String) : Speaks holds (Run.emit h line) fun _ => [.output line] :=
  fun _ _ hs => ⟨hr.emit hs line, rfl⟩

theorem speaks_diagnose (kind : String) (line : Int) (message : String) :
    Speaks holds (diagnose h kind line message) fun _ => [.report kind line message] := by
  intro s lines hs
  rw [diagnose, Task.bind_of_ok (Exec.machine_run s)]
  exact ⟨hr.emit hs _, rfl⟩

theorem speaks_valueOf? (line : Int) (e : Expr) :
    Speaks holds (valueOf? h line e) (valueNotices line e) := by
  refine .of_run fun s => ?_
  cases he : evaluate s.machine.bindings e with
  | ok value => exact ⟨_, _, .pure (some value), valueOf?_ok he, by simp only [valueNotices, he]⟩
  | error error =>
    exact ⟨_, _, (hr.speaks_diagnose _ line _).bind_silent fun _ => .pure none, valueOf?_error he,
      by simp only [valueNotices, he]⟩

theorem speaks_labelOf? (line : Int) (prompt : String) :
    Speaks holds (labelOf? h line prompt) (labelNotices h line prompt) := by
  refine .of_run fun s => ?_
  have hreport (message : String) : Speaks holds
      (diagnose h "ClassifierError" line message >>= fun _ => pure (none : Option String))
      fun _ => [.report "ClassifierError" line message] :=
    (hr.speaks_diagnose _ line message).bind_silent fun _ => .pure none
  have hanswer (answer : Except ClassifierError Verdict) :
      Speaks holds (answered h line answer) fun _ => answerNotices line answer := by
    cases answer with
    | ok verdict => exact .pure _
    | error error => exact hreport _
  cases hm : s.machine.activeModel with
  | none => exact ⟨_, _, hreport _, labelOf?_unselected hm line, by simp only [labelNotices, hm]⟩
  | some model =>
    cases hc : h.classify with
    | none =>
      exact ⟨_, _, hreport _, labelOf?_unavailable hm hc line, by simp only [labelNotices, hm, hc]⟩
    | some classify =>
      have hask : Speaks holds (Exec.world (classify model prompt)) fun _ => [] :=
        .silent (fun s lines hs => hr.classify hs classify hc model prompt) fun _ => rfl
      exact ⟨_, _, hask.bind hanswer, labelOf?_asked hm hc line, labelNotices_asked hm hc line⟩

variable {k : String → Int → Exec σ Unit} {n : String → Int → Session σ → List Notice}
  {origin : Option Int}

theorem speaks_arms {line : Int} {otherwise : Option (List Stmt)}
    {arms : List (Expr × List Stmt)}
    (ho : Speaks holds (execElse h k origin otherwise) (elseNotices h k n origin otherwise))
    (ha : ∀ arm ∈ arms,
      Speaks holds (execBlock h k origin arm.2) (blockNotices h k n origin arm.2)) :
    Speaks holds (execArms h k origin line (execElse h k origin otherwise) arms)
      (armsNotices h k n origin line otherwise arms) := by
  induction arms with
  | nil =>
    rw [execArms]
    exact ho
  | cons arm rest ih =>
    obtain ⟨condition, body⟩ := arm
    rw [execArms]
    refine ((hr.speaks_valueOf? line condition).bind fun value => ?_).of_eq
      (armsNotices_cons h k n origin line otherwise condition body rest)
    split
    · exact ha (condition, body) (by simp)
    · exact ih fun arm harm => ha arm (by simp [harm])

omit hr in
theorem speaks_else {otherwise : Option (List Stmt)}
    (ho : ∀ body, otherwise = some body →
      Speaks holds (execBlock h k origin body) (blockNotices h k n origin body)) :
    Speaks holds (execElse h k origin otherwise) (elseNotices h k n origin otherwise) := by
  cases otherwise with
  | none =>
    rw [execElse]
    exact .pure ()
  | some body =>
    rw [execElse]
    exact (ho body rfl).of_eq (elseNotices_some h k n origin body)

theorem speaks_stmt
    (hk : ∀ instruction line, Speaks holds (k instruction line) (n instruction line))
    {stmt : Stmt} (hi : stmt.Inner fun body =>
      Speaks holds (execBlock h k origin body) (blockNotices h k n origin body)) :
    Speaks holds (execStmt h k origin stmt) (stmtNotices h k n origin stmt) := by
  have hsimple (hs : ∀ line arms last, stmt ≠ .choose line arms last)
      (hself : Speaks holds (execStmt h k origin stmt) fun s => ownNotices h n origin (stmt, s)) :
      Speaks holds (execStmt h k origin stmt) (stmtNotices h k n origin stmt) :=
    hself.of_eq (stmtNotices_simple h k n origin hs)
  have hchange (f : Machine → Machine) (hf : ∀ m, (f m).lineMap = m.lineMap) :
      Speaks holds (Exec.change f) fun _ => [] :=
    .silent (fun _ _ hs => hs) fun s => hf s.machine
  cases stmt with
  | print line e =>
    refine hsimple (by simp) ?_
    rw [execStmt]
    refine ((hr.speaks_valueOf? _ e).bind fun value => ?_).of_eq (ownNotices_print n origin line e)
    cases value with
    | none => exact .pure ()
    | some value => exact hr.speaks_emit _
  | assign line name e =>
    refine hsimple (by simp) ?_
    rw [execStmt]
    exact (hr.speaks_valueOf? _ e).bind_silent fun value => hchange _ fun _ => rfl
  | ask line name prompt =>
    refine hsimple (by simp) ?_
    rw [execStmt]
    exact (hr.speaks_labelOf? _ prompt).bind_silent fun value => hchange _ fun _ => rfl
  | select line path =>
    refine hsimple (by simp) ?_
    rw [execStmt]
    refine (hr.speaks_valueOf? _ path).bind_silent fun value => ?_
    split
    · exact hchange _ fun _ => rfl
    · exact .pure _
  | expand line instruction =>
    refine hsimple (by simp) ?_
    rw [execStmt]
    exact hk instruction _
  | choose line arms last =>
    rw [execStmt]
    exact (hr.speaks_arms (speaks_else hi.2) hi.1).of_eq
      (stmtNotices_choose h k n origin line arms last)

theorem speaks_block
    (hk : ∀ instruction line, Speaks holds (k instruction line) (n instruction line))
    (body : List Stmt) :
    Speaks holds (execBlock h k origin body) (blockNotices h k n origin body) := by
  induction body using Program.induction with
  | nil =>
    rw [execBlock]
    exact .pure ()
  | cons stmt rest inner ih =>
    rw [execBlock]
    exact ((hr.speaks_stmt hk inner).bind fun _ => ih).of_eq
      (blockNotices_cons h k n origin stmt rest)

theorem speaks_expand (allowance : Nat) (instruction : String) (line : Int) :
    Speaks holds (execExpand h allowance instruction line)
      (expandNotices h allowance instruction line) := by
  induction allowance generalizing instruction line with
  | zero =>
    rw [execExpand]
    exact hr.speaks_diagnose _ line _
  | succ allowance ih =>
    intro s lines hs
    have hw := hr.expand hs instruction
    cases hx : h.expand instruction s.world with
    | mk result w =>
      rw [hx] at hw
      cases result with
      | error crash =>
        rw [execExpand_crash hx, expandNotices_crash hx, List.map_nil, List.append_nil]
        exact ⟨hw, rfl⟩
      | ok expansion =>
        cases hq : parse expansion.script.toList with
        | ok q =>
          rw [execExpand_read hx hq, expandNotices_read hx hq]
          exact hr.speaks_block ih q ⟨s.machine.record expansion, w⟩ lines hw
        | error fault =>
          rw [execExpand_rejected hx hq, expandNotices_rejected hx hq]
          exact ⟨hr.emit hw _, rfl⟩

end Host.Records

end Speaks

/-- The lines that a run adds are its notices. -/
theorem Host.Records.run {h : Host σ} {holds : σ → List String → Prop} (hr : h.Records holds)
    (source : List Char) (lineMap : List Int) {s : Session σ} {lines : List String}
    (hs : holds s.world lines) :
    holds (runSource h source lineMap s).2.world
      (lines ++ (runNotices h source lineMap s).map (Notice.text (sourceLine lineMap))) := by
  have hend {α : Type} {t : Exec σ α} {n : Session σ → List Notice} (phase : Phase)
      (ht : Speaks holds t n) : holds
        ((t >>= fun _ => Exec.finish phase) (s.started lineMap)).2.world
        (lines ++ (n (s.started lineMap)).map (Notice.text (sourceLine lineMap))) :=
    (ht.bind_silent (fun _ => .silent (fun _ _ hs => hs) fun _ => rfl)
      (s.started lineMap) lines hs).1
  cases hp : parse source with
  | error fault =>
    rw [runSource_unread hp, runNotices, hp]
    have hheld := hend .halted (hr.speaks_emit (haltLine lineMap fault))
    rw [List.map_singleton, Notice.text] at hheld
    rw [List.map_singleton, ← haltLine_eq]
    exact hheld
  | ok program =>
    rw [runSource_read hp, runNotices, hp, execute, Int.sub_zero]
    exact hend .finished (hr.speaks_block (hr.speaks_expand _) program)

end Scribe.Run
