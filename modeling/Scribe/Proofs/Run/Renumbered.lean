import Scribe.Proofs.Run.Notices
import Scribe.Proofs.Script.Joined

/-!
# Runs that differ in line numbers

The same statements on other lines do the same: they change the same variables, ask the same
services for the same things, and say the same, but that their errors are reported on the other
lines. This needs a host whose services take no notice of the lines that are emitted.
-/
namespace Scribe.Run
open Script

variable {σ α β : Type}

/-- Worlds that `R` relates look the same to the services of the host, and stay related whatever
lines are emitted in them. -/
structure Host.Detached (h : Host σ) (R : σ → σ → Prop) : Prop where
  emit : ∀ line line' w w', R w w' →
    (h.emit line w).1 = (h.emit line' w').1 ∧ R (h.emit line w).2 (h.emit line' w').2
  classify : ∀ f, h.classify = some f → ∀ model text, (f model text).Respects R
  expand : ∀ instruction, (h.expand instruction).Respects R

structure Session.Alike (R : σ → σ → Prop) (s s' : Session σ) : Prop where
  bindings : s.machine.bindings = s'.machine.bindings
  activeModel : s.machine.activeModel = s'.machine.activeModel
  expansions : s.machine.expansions = s'.machine.expansions
  world : R s.world s'.world

def Notice.shift (k : Int) : Notice → Notice
  | .output line => .output line
  | .report kind line message => .report kind (line + k) message

/-- Two tasks that keep pace: they return the same and lead to sessions that are alike, and the
second one says what the first one says, `k` lines further down. -/
def Paced (R : σ → σ → Prop) (k : Int) (t t' : Exec σ α) (n n' : Session σ → List Notice) : Prop :=
  ∀ s s', s.Alike R s' → (t s).1 = (t' s').1 ∧ (t s).2.Alike R (t' s').2 ∧
    n' s' = (n s).map (Notice.shift k)

section Paced
variable {R : σ → σ → Prop} {k : Int} {h : Host σ}

theorem Paced.pure (a : α) :
    Paced R k (pure a : Exec σ α) (pure a) (fun _ => []) fun _ => [] :=
  fun _ _ hs => ⟨rfl, hs, rfl⟩

/-- Two chains of tasks that keep pace, the first ones `j` lines apart and the rest `k` lines. -/
theorem Paced.seq {j : Int} {t t' : Exec σ α} {f f' : α → Exec σ β} {n n' : Session σ → List Notice}
    {m m' : α → Session σ → List Notice} (ht : Paced R j t t' n n')
    (hf : ∀ a, Paced R k (f a) (f' a) (m a) (m' a)) {s s' : Session σ} (hs : s.Alike R s') :
    ((t >>= f) s).1 = ((t' >>= f') s').1 ∧ ((t >>= f) s).2.Alike R ((t' >>= f') s').2 ∧
      n' s' ++ t'.afterwards m' s' =
        (n s).map (Notice.shift j) ++ (t.afterwards m s).map (Notice.shift k) := by
  obtain ⟨hresult, halike, hnotices⟩ := ht s s' hs
  cases hrun : t s with
  | mk result s₁ =>
    cases hrun' : t' s' with
    | mk result' s₁' =>
      rw [hrun, hrun'] at hresult halike
      cases hresult
      cases result with
      | error e =>
        rw [Task.bind_of_error hrun, Task.bind_of_error hrun', Exec.afterwards_of_error hrun,
          Exec.afterwards_of_error hrun', List.map_nil, hnotices]
        exact ⟨rfl, halike, rfl⟩
      | ok a =>
        obtain ⟨hresult, halike, hmore⟩ := hf a s₁ s₁' halike
        rw [Task.bind_of_ok hrun, Task.bind_of_ok hrun', Exec.afterwards_of_ok hrun,
          Exec.afterwards_of_ok hrun', hnotices, hmore]
        exact ⟨hresult, halike, rfl⟩

theorem Paced.bind {t t' : Exec σ α} {f f' : α → Exec σ β} {n n' : Session σ → List Notice}
    {m m' : α → Session σ → List Notice} (ht : Paced R k t t' n n')
    (hf : ∀ a, Paced R k (f a) (f' a) (m a) (m' a)) :
    Paced R k (t >>= f) (t' >>= f') (fun s => n s ++ t.afterwards m s)
      fun s => n' s ++ t'.afterwards m' s := by
  intro s s' hs
  dsimp only
  rw [List.map_append]
  exact ht.seq hf hs

theorem Paced.of_eq {t t' : Exec σ α} {n n' m m' : Session σ → List Notice}
    (ht : Paced R k t t' n n') (hn : ∀ s, m s = n s) (hn' : ∀ s, m' s = n' s) :
    Paced R k t t' m m' := by
  have heq : m = n := funext hn
  have heq' : m' = n' := funext hn'
  rw [heq, heq']
  exact ht

theorem Paced.bind_silent {t t' : Exec σ α} {f f' : α → Exec σ β} {n n' : Session σ → List Notice}
    (ht : Paced R k t t' n n')
    (hf : ∀ a, Paced R k (f a) (f' a) (fun _ => []) fun _ => []) :
    Paced R k (t >>= f) (t' >>= f') n n' :=
  (ht.bind hf).of_eq (fun s => by rw [Exec.afterwards_nil, List.append_nil])
    fun s => by rw [Exec.afterwards_nil, List.append_nil]

/-- Two tasks keep pace if they do so wherever their sessions are alike. -/
theorem Paced.of_run {t t' : Exec σ α} {n n' : Session σ → List Notice}
    (ht : ∀ s s', s.Alike R s' → ∃ (u u' : Exec σ α) (m m' : Session σ → List Notice),
      Paced R k u u' m m' ∧ t s = u s ∧ t' s' = u' s' ∧ n s = m s ∧ n' s' = m' s') :
    Paced R k t t' n n' := by
  intro s s' hs
  obtain ⟨u, u', m, m', hpaced, hrun, hrun', hn, hn'⟩ := ht s s' hs
  rw [hrun, hrun', hn, hn']
  exact hpaced s s' hs

theorem Paced.change {f : Machine → Machine}
    (hf : ∀ s s' : Session σ, s.Alike R s' →
      Session.Alike R { s with machine := f s.machine } { s' with machine := f s'.machine }) :
    Paced R k (Exec.change f : Exec σ Unit) (Exec.change f) (fun _ => []) fun _ => [] :=
  fun s s' hs => ⟨rfl, hf s s' hs, rfl⟩

theorem Paced.world {t : Task σ α} (ht : t.Respects R) :
    Paced R k (Exec.world t) (Exec.world t) (fun _ => []) fun _ => [] := by
  intro s s' hs
  obtain ⟨hresult, hafter⟩ := ht s.world s'.world hs.world
  exact ⟨hresult, ⟨hs.bindings, hs.activeModel, hs.expansions, hafter⟩, rfl⟩

namespace Host.Detached
variable (hd : h.Detached R)
include hd

theorem emits (line line' : String) {s s' : Session σ} (hs : s.Alike R s') :
    (Run.emit h line s).1 = (Run.emit h line' s').1 ∧
      (Run.emit h line s).2.Alike R (Run.emit h line' s').2 := by
  obtain ⟨hresult, hafter⟩ := hd.emit line line' s.world s'.world hs.world
  exact ⟨hresult, hs.bindings, hs.activeModel, hs.expansions, hafter⟩

theorem paced_emit (line : String) :
    Paced R k (Run.emit h line) (Run.emit h line) (fun _ => [.output line])
      fun _ => [.output line] := by
  intro s s' hs
  obtain ⟨hresult, halike⟩ := hd.emits line line hs
  exact ⟨hresult, halike, rfl⟩

theorem paced_diagnose (kind : String) (line : Int) (message : String) :
    Paced R k (diagnose h kind line message) (diagnose h kind (line + k) message)
      (fun _ => [.report kind line message]) fun _ => [.report kind (line + k) message] := by
  intro s s' hs
  rw [diagnose, diagnose, Task.bind_of_ok (Exec.machine_run s),
    Task.bind_of_ok (Exec.machine_run s')]
  obtain ⟨hresult, halike⟩ := hd.emits _ _ hs
  exact ⟨hresult, halike, rfl⟩

theorem paced_valueOf? (line : Int) (e : Expr) :
    Paced R k (valueOf? h line e) (valueOf? h (line + k) e) (valueNotices line e)
      (valueNotices (line + k) e) := by
  refine .of_run fun s s' hs => ?_
  cases he : evaluate s.machine.bindings e with
  | ok value =>
    have he' : evaluate s'.machine.bindings e = .ok value := by rw [← hs.bindings, he]
    exact ⟨_, _, _, _, .pure (some value), valueOf?_ok he, valueOf?_ok he',
      by simp only [valueNotices, he], by simp only [valueNotices, he']⟩
  | error error =>
    have he' : evaluate s'.machine.bindings e = .error error := by rw [← hs.bindings, he]
    exact ⟨_, _, _, _, (hd.paced_diagnose _ line _).bind_silent fun _ => .pure none,
      valueOf?_error he, valueOf?_error he', by simp only [valueNotices, he],
      by simp only [valueNotices, he']⟩

theorem paced_labelOf? (line : Int) (prompt : String) :
    Paced R k (labelOf? h line prompt) (labelOf? h (line + k) prompt)
      (labelNotices h line prompt) (labelNotices h (line + k) prompt) := by
  refine .of_run fun s s' hs => ?_
  have hreport (message : String) : Paced R k
      (diagnose h "ClassifierError" line message >>= fun _ => pure (none : Option String))
      (diagnose h "ClassifierError" (line + k) message >>= fun _ => pure none)
      (fun _ => [.report "ClassifierError" line message])
      fun _ => [.report "ClassifierError" (line + k) message] :=
    (hd.paced_diagnose _ line message).bind_silent fun _ => .pure none
  have hanswer (answer : Except ClassifierError Verdict) :
      Paced R k (answered h line answer) (answered h (line + k) answer)
        (fun _ => answerNotices line answer) fun _ => answerNotices (line + k) answer := by
    cases answer with
    | ok verdict => exact .pure _
    | error error => exact hreport _
  cases hm : s.machine.activeModel with
  | none =>
    have hm' : s'.machine.activeModel = none := by rw [← hs.activeModel, hm]
    exact ⟨_, _, _, _, hreport _, labelOf?_unselected hm line, labelOf?_unselected hm' _,
      by simp only [labelNotices, hm], by simp only [labelNotices, hm']⟩
  | some model =>
    have hm' : s'.machine.activeModel = some model := by rw [← hs.activeModel, hm]
    cases hc : h.classify with
    | none =>
      exact ⟨_, _, _, _, hreport _, labelOf?_unavailable hm hc line, labelOf?_unavailable hm' hc _,
        by simp only [labelNotices, hm, hc], by simp only [labelNotices, hm', hc]⟩
    | some classify =>
      have hask : Paced R k (Exec.world (classify model prompt))
          (Exec.world (classify model prompt)) (fun _ => []) fun _ => [] :=
        .world (hd.classify classify hc model prompt)
      exact ⟨_, _, _, _, hask.bind hanswer, labelOf?_asked hm hc line, labelOf?_asked hm' hc _,
        labelNotices_asked hm hc line, labelNotices_asked hm' hc _⟩

end Host.Detached

/-- The statements of a block report on lines from 1 on, and `k` lines further down if they are
moved by `j` lines and belong to another instruction. -/
def Renumbers (origin origin' : Option Int) (j : Nat) (k : Int) (body : List Stmt) : Prop :=
  ∀ x, Occurs x body → 1 ≤ reportedLine origin x.line ∧
    reportedLine origin' (x.line + j) = reportedLine origin x.line + k

def PacedBlock (R : σ → σ → Prop) (k : Int) (h : Host σ) (next : String → Int → Exec σ Unit)
    (said : String → Int → Session σ → List Notice) (origin origin' : Option Int) (j : Nat)
    (body : List Stmt) : Prop :=
  Paced R k (execBlock h next origin body) (execBlock h next origin' (shiftBlock j body))
    (blockNotices h next said origin body) (blockNotices h next said origin' (shiftBlock j body))

namespace Host.Detached
variable {next : String → Int → Exec σ Unit} {said : String → Int → Session σ → List Notice}
  {origin origin' : Option Int} {j : Nat} (hd : h.Detached R)
include hd

omit hd in
theorem paced_else {otherwise : Option (List Stmt)}
    (ho : ∀ body, otherwise = some body → PacedBlock R k h next said origin origin' j body) :
    Paced R k (execElse h next origin otherwise)
      (execElse h next origin' (shiftElse j otherwise)) (elseNotices h next said origin otherwise)
      (elseNotices h next said origin' (shiftElse j otherwise)) := by
  cases otherwise with
  | none =>
    rw [shiftElse, execElse, execElse]
    exact .pure ()
  | some body =>
    rw [shiftElse, execElse, execElse]
    exact (ho body rfl).of_eq (elseNotices_some h next said origin body)
      (elseNotices_some h next said origin' _)

theorem paced_arms (line : Int) {otherwise : Option (List Stmt)} {arms : List (Expr × List Stmt)}
    (ho : Paced R k (execElse h next origin otherwise)
      (execElse h next origin' (shiftElse j otherwise)) (elseNotices h next said origin otherwise)
      (elseNotices h next said origin' (shiftElse j otherwise)))
    (ha : ∀ arm ∈ arms, PacedBlock R k h next said origin origin' j arm.2) :
    Paced R k (execArms h next origin line (execElse h next origin otherwise) arms)
      (execArms h next origin' (line + k) (execElse h next origin' (shiftElse j otherwise))
        (shiftArms j arms))
      (armsNotices h next said origin line otherwise arms)
      (armsNotices h next said origin' (line + k) (shiftElse j otherwise) (shiftArms j arms)) := by
  induction arms with
  | nil =>
    rw [shiftArms, execArms, execArms]
    exact ho
  | cons arm rest ih =>
    obtain ⟨condition, body⟩ := arm
    rw [shiftArms, execArms, execArms]
    refine ((hd.paced_valueOf? line condition).bind fun value => ?_).of_eq
      (armsNotices_cons h next said origin line otherwise condition body rest)
      (armsNotices_cons h next said origin' (line + k) _ condition _ _)
    split
    · exact ha (condition, body) (by simp)
    · exact ih fun arm harm => ha arm (by simp [harm])

theorem paced_stmt
    (hnext : ∀ instruction line, 1 ≤ line → Paced R k (next instruction line)
      (next instruction (line + k)) (said instruction line) (said instruction (line + k)))
    {stmt : Stmt} (hline : 1 ≤ reportedLine origin stmt.line ∧
      reportedLine origin' (stmt.line + j) = reportedLine origin stmt.line + k)
    (hi : stmt.Inner (PacedBlock R k h next said origin origin' j)) :
    Paced R k (execStmt h next origin stmt) (execStmt h next origin' (stmt.shift j))
      (stmtNotices h next said origin stmt) (stmtNotices h next said origin' (stmt.shift j)) := by
  obtain ⟨hpos, hline⟩ := hline
  have hsimple (hs : ∀ line arms last, stmt ≠ .choose line arms last)
      (hs' : ∀ line arms last, stmt.shift j ≠ .choose line arms last)
      (hself : Paced R k (execStmt h next origin stmt) (execStmt h next origin' (stmt.shift j))
        (fun s => ownNotices h said origin (stmt, s))
        fun s => ownNotices h said origin' (stmt.shift j, s)) :
      Paced R k (execStmt h next origin stmt) (execStmt h next origin' (stmt.shift j))
        (stmtNotices h next said origin stmt) (stmtNotices h next said origin' (stmt.shift j)) :=
    hself.of_eq (stmtNotices_simple h next said origin hs)
      (stmtNotices_simple h next said origin' hs')
  have hbind (name : String) (value : Value) : Paced R k (Exec.bind name value : Exec σ Unit)
      (Exec.bind name value) (fun _ => []) fun _ => [] :=
    .change fun s s' hs => ⟨by rw [hs.bindings], hs.activeModel, hs.expansions, hs.world⟩
  have hvalue (e : Expr) : Paced R k (valueOf? h (reportedLine origin stmt.line) e)
      (valueOf? h (reportedLine origin' (stmt.line + j)) e)
      (valueNotices (reportedLine origin stmt.line) e)
      (valueNotices (reportedLine origin' (stmt.line + j)) e) := by
    rw [hline]
    exact hd.paced_valueOf? _ e
  cases stmt with
  | print line e =>
    refine hsimple (by simp) (by simp [Stmt.shift]) ?_
    rw [Stmt.shift, execStmt, execStmt]
    refine ((hvalue e).bind fun value => ?_).of_eq (ownNotices_print said origin line e)
      (ownNotices_print said origin' (line + j) e)
    cases value with
    | none => exact .pure ()
    | some value => exact hd.paced_emit _
  | assign line name e =>
    refine hsimple (by simp) (by simp [Stmt.shift]) ?_
    rw [Stmt.shift, execStmt, execStmt]
    exact (hvalue e).bind_silent fun value => hbind name (value.getD .null)
  | ask line name prompt =>
    have hlabel := hd.paced_labelOf? (k := k) (reportedLine origin line) prompt
    have hline : reportedLine origin' (line + j) = reportedLine origin line + k := hline
    rw [← hline] at hlabel
    refine hsimple (by simp) (by simp [Stmt.shift]) ?_
    rw [Stmt.shift, execStmt, execStmt]
    exact hlabel.bind_silent fun label => hbind name (label.elim .null .text)
  | select line path =>
    refine hsimple (by simp) (by simp [Stmt.shift]) ?_
    rw [Stmt.shift, execStmt, execStmt]
    refine (hvalue path).bind_silent fun value => ?_
    cases value with
    | none => exact .pure ()
    | some value => exact .change fun s s' hs => ⟨hs.bindings, rfl, hs.expansions, hs.world⟩
  | expand line instruction =>
    have hexpand := hnext instruction (reportedLine origin line) hpos
    have hline : reportedLine origin' (line + j) = reportedLine origin line + k := hline
    rw [← hline] at hexpand
    refine hsimple (by simp) (by simp [Stmt.shift]) ?_
    rw [Stmt.shift, execStmt, execStmt]
    exact hexpand
  | choose line arms last =>
    have harms := hd.paced_arms (reportedLine origin line) (paced_else hi.2) hi.1
    have hline : reportedLine origin' (line + j) = reportedLine origin line + k := hline
    rw [← hline] at harms
    rw [Stmt.shift, execStmt, execStmt]
    exact harms.of_eq (stmtNotices_choose h next said origin line arms last)
      (stmtNotices_choose h next said origin' _ _ _)

theorem paced_block
    (hnext : ∀ instruction line, 1 ≤ line → Paced R k (next instruction line)
      (next instruction (line + k)) (said instruction line) (said instruction (line + k)))
    {body : List Stmt} (hb : Renumbers origin origin' j k body) :
    PacedBlock R k h next said origin origin' j body := by
  unfold PacedBlock
  induction body using Program.induction with
  | nil =>
    rw [shiftBlock, execBlock, execBlock]
    exact .pure ()
  | cons stmt rest inner ih =>
    have hinner : stmt.Inner (PacedBlock R k h next said origin origin' j) := by
      cases stmt with
      | choose line arms last =>
        exact ⟨fun arm harm => inner.1 arm harm fun x hx => hb x (.arm harm hx),
          fun body hbody => inner.2 body hbody fun x hx => hb x (by
            subst hbody
            exact .last hx)⟩
      | _ => exact trivial
    rw [shiftBlock, execBlock, execBlock]
    exact ((hd.paced_stmt hnext (hb stmt .head) hinner).bind fun _ =>
      ih fun x hx => hb x (.tail hx)).of_eq (blockNotices_cons h next said origin stmt rest)
        (blockNotices_cons h next said origin' _ _)

/-- An instruction on another line does the same. A line 0 would not be passed on to the
statements that it is expanded into. -/
theorem paced_expand (hk : 0 ≤ k) (allowance : Nat) (instruction : String) {line : Int}
    (hline : 1 ≤ line) :
    Paced R k (execExpand h allowance instruction line)
      (execExpand h allowance instruction (line + k)) (expandNotices h allowance instruction line)
      (expandNotices h allowance instruction (line + k)) := by
  induction allowance generalizing instruction line with
  | zero =>
    rw [execExpand, execExpand]
    exact hd.paced_diagnose _ line _
  | succ allowance ih =>
    intro s s' hs
    obtain ⟨hresult, hafter⟩ := hd.expand instruction s.world s'.world hs.world
    cases hx : h.expand instruction s.world with
    | mk result w =>
      cases hx' : h.expand instruction s'.world with
      | mk result' w' =>
        rw [hx, hx'] at hresult hafter
        cases hresult
        cases result with
        | error crash =>
          rw [execExpand_crash hx, execExpand_crash hx', expandNotices_crash hx,
            expandNotices_crash hx']
          exact ⟨rfl, ⟨hs.bindings, hs.activeModel, hs.expansions, hafter⟩, rfl⟩
        | ok expansion =>
          have hrecord : (s.machine.record expansion).expansions =
              (s'.machine.record expansion).expansions :=
            congrArg (· ++ [expansion]) hs.expansions
          cases hq : parse expansion.script.toList with
          | error fault =>
            rw [execExpand_rejected hx hq, execExpand_rejected hx' hq, expandNotices_rejected hx hq,
              expandNotices_rejected hx' hq]
            refine hd.paced_emit _ _ _ ⟨hs.bindings, hs.activeModel, ?_, hafter⟩
            exact congrArg (noteLast (rejectedNote fault)) hrecord
          | ok q =>
            have hlines : Renumbers (some line) (some (line + k)) 0 k q := by
              intro x _
              rw [reportedLine_some (by omega), reportedLine_some (by omega)]
              exact ⟨hline, rfl⟩
            have hpaced :=
              hd.paced_block (fun instruction line hline => ih instruction hline) hlines
            unfold PacedBlock at hpaced
            rw [shiftBlock_zero] at hpaced
            rw [execExpand_read hx hq, execExpand_read hx' hq, expandNotices_read hx hq,
              expandNotices_read hx' hq]
            exact hpaced _ _ ⟨hs.bindings, hs.activeModel, hrecord, hafter⟩

end Host.Detached

end Paced

end Scribe.Run
