import Scribe.Proofs.Run.Expanding
import Scribe.Proofs.Run.Survival

/-!
# What a run says

What a statement says when it is visited is a list of notices: lines of its own, and errors with
the line of the script that they are reported on. The lines that a run emits are its notices in
order, whether it ends or crashes.
-/
namespace Scribe.Run
open Script

/-- A line, or an error on a line of the script that is run. -/
inductive Notice where
  | output (line : String)
  | report (kind : String) (line : Int) (message : String)
deriving DecidableEq, Repr

def Notice.text (number : Int → Int) : Notice → String
  | .output line => line
  | .report kind line message => s!"❌ {kind} on line {number line}: {message}"

variable {σ : Type}

def valueNotices (line : Int) (e : Expr) (s : Session σ) : List Notice :=
  match evaluate s.machine.bindings e with
  | .ok _ => []
  | .error error => [.report "EvalError" line error.message]

def labelNotices (h : Host σ) (line : Int) (prompt : String) (s : Session σ) : List Notice :=
  match s.machine.activeModel, h.classify with
  | none, _ =>
    [.report "ClassifierError" line "no model selected, add an `AI: \"path\"` line first"]
  | some _, none => [.report "ClassifierError" line "no classifier available"]
  | some model, some classify =>
    match (classify model prompt s.world).1 with
    | .ok (.error error) => [.report "ClassifierError" line error.message]
    | _ => []

def conditionNotices (h : Host σ) (line : Int) :
    List (Expr × List Stmt) → Session σ → List Notice
  | [], _ => []
  | (condition, _) :: rest, s =>
    valueNotices line condition s ++
      Exec.afterwards (valueOf? h line condition)
        (fun value s => if value.any Value.truthy then [] else conditionNotices h line rest s) s

/-- What a statement says itself, without the blocks that it enters; `expanded` is what an
instruction on a line says. -/
def ownNotices (h : Host σ) (expanded : String → Int → Session σ → List Notice)
    (origin : Option Int) : Stmt × Session σ → List Notice
  | (.print line e, s) =>
    match evaluate s.machine.bindings e with
    | .ok value => [.output value.display]
    | .error error => [.report "EvalError" (reportedLine origin line) error.message]
  | (.assign line _ e, s) => valueNotices (reportedLine origin line) e s
  | (.ask line _ prompt, s) => labelNotices h (reportedLine origin line) prompt s
  | (.select line path, s) => valueNotices (reportedLine origin line) path s
  | (.expand line instruction, s) => expanded instruction (reportedLine origin line) s
  | (.choose line arms _, s) => conditionNotices h (reportedLine origin line) arms s

def expandNotices (h : Host σ) : (allowance : Nat) → String → Int → Session σ → List Notice
  | 0, _, line, _ =>
    [.report "MacroError" line s!"macro nesting deeper than {h.maxDepth} is not allowed"]
  | allowance + 1, instruction, line, s =>
    match h.expand instruction s.world with
    | (.error _, _) => []
    | (.ok expansion, w) =>
      match parse expansion.script.toList with
      | .ok program =>
        (visitsBlock h (execExpand h allowance) (some line) program
          ⟨s.machine.record expansion, w⟩).flatMap
            (ownNotices h (expandNotices h allowance) (some line))
      | .error _ => [.output (String.ofList (Instruction.unwrap instruction.toList))]

section Program
variable (h : Host σ) (k : String → Int → Exec σ Unit)
  (n : String → Int → Session σ → List Notice) (origin : Option Int)

def stmtNotices (stmt : Stmt) (s : Session σ) : List Notice :=
  (visitsStmt h k origin stmt s).flatMap (ownNotices h n origin)

def blockNotices (body : List Stmt) (s : Session σ) : List Notice :=
  (visitsBlock h k origin body s).flatMap (ownNotices h n origin)

def elseNotices (otherwise : Option (List Stmt)) (s : Session σ) : List Notice :=
  (visitsElse h k origin otherwise s).flatMap (ownNotices h n origin)

def armsNotices (line : Int) (otherwise : Option (List Stmt)) (arms : List (Expr × List Stmt))
    (s : Session σ) : List Notice :=
  conditionNotices h line arms s ++
    (visitsArms h k origin line (visitsElse h k origin otherwise) arms s).flatMap
      (ownNotices h n origin)

theorem stmtNotices_choose (line : Nat) (arms : List (Expr × List Stmt))
    (otherwise : Option (List Stmt)) (s : Session σ) :
    stmtNotices h k n origin (.choose line arms otherwise) s =
      armsNotices h k n origin (reportedLine origin line) otherwise arms s := by
  rw [stmtNotices, visitsStmt, List.flatMap_cons]
  rfl

theorem stmtNotices_simple {stmt : Stmt} (hs : ∀ line arms last, stmt ≠ .choose line arms last)
    (s : Session σ) : stmtNotices h k n origin stmt s = ownNotices h n origin (stmt, s) :=
  flatMap_visitsStmt_simple h k origin _ hs s

theorem armsNotices_cons (line : Int) (otherwise : Option (List Stmt)) (condition : Expr)
    (body : List Stmt) (rest : List (Expr × List Stmt)) (s : Session σ) :
    armsNotices h k n origin line otherwise ((condition, body) :: rest) s =
      valueNotices line condition s ++ (valueOf? h line condition).afterwards
        (fun value s =>
          if value.any Value.truthy then blockNotices h k n origin body s
          else armsNotices h k n origin line otherwise rest s) s := by
  rw [armsNotices, conditionNotices, flatMap_visitsArms_cons, List.append_assoc,
    Exec.afterwards_append]
  congr 2
  funext value s
  split <;> rfl

theorem elseNotices_some (body : List Stmt) (s : Session σ) :
    elseNotices h k n origin (some body) s = blockNotices h k n origin body s := by
  rw [elseNotices, visitsElse]
  rfl

theorem blockNotices_cons (stmt : Stmt) (rest : List Stmt) (s : Session σ) :
    blockNotices h k n origin (stmt :: rest) s =
      stmtNotices h k n origin stmt s ++ (execStmt h k origin stmt).afterwards
        (fun _ s => blockNotices h k n origin rest s) s :=
  flatMap_visitsBlock_cons h k origin _ stmt rest s

end Program

theorem expandNotices_read {h : Host σ} {instruction : String} {s : Session σ} {w : σ}
    {expansion : Expansion} {q : Program} (hx : h.expand instruction s.world = (.ok expansion, w))
    (hq : parse expansion.script.toList = .ok q) (allowance : Nat) (line : Int) :
    expandNotices h (allowance + 1) instruction line s =
      blockNotices h (execExpand h allowance) (expandNotices h allowance) (some line) q
        ⟨s.machine.record expansion, w⟩ := by
  simp only [expandNotices, hx, hq]
  rfl

theorem expandNotices_rejected {h : Host σ} {instruction : String} {s : Session σ} {w : σ}
    {expansion : Expansion} {fault : Fault}
    (hx : h.expand instruction s.world = (.ok expansion, w))
    (hq : parse expansion.script.toList = .error fault) (allowance : Nat) (line : Int) :
    expandNotices h (allowance + 1) instruction line s =
      [.output (String.ofList (Instruction.unwrap instruction.toList))] := by
  simp only [expandNotices, hx, hq]

theorem expandNotices_crash {h : Host σ} {instruction : String} {s : Session σ} {w : σ}
    {crash : Crash} (hx : h.expand instruction s.world = (.error crash, w)) (allowance : Nat)
    (line : Int) : expandNotices h (allowance + 1) instruction line s = [] := by
  simp only [expandNotices, hx]

section Expression
variable {β : Type} {h : Host σ}

/-- What comes behind an expression, if nothing does where it has no value. -/
theorem afterwards_valueOf? {line : Int} {e : Expr} (rest : Option Value → Session σ → List β)
    (hnone : ∀ s, rest none s = []) (s : Session σ) :
    (valueOf? h line e).afterwards rest s =
      match evaluate s.machine.bindings e with
      | .ok value => rest (some value) s
      | .error _ => [] := by
  cases he : evaluate s.machine.bindings e with
  | ok value => rw [Exec.afterwards_of_ok (valueOf?_ok he)]
  | error error =>
    have hrun : valueOf? h line e s = _ := valueOf?_error he
    cases hd : diagnose h "EvalError" line error.message s with
    | mk result s' =>
      cases result with
      | error crash => exact Exec.afterwards_of_error (hrun.trans (Task.bind_of_error hd)) rest
      | ok =>
        have hnext := Exec.afterwards_of_ok (hrun.trans (Task.bind_of_ok hd)) rest
        exact hnext.trans (hnone s')

/-- A statement that prints reports that its expression has no value, or says the value. -/
theorem ownNotices_print (n : String → Int → Session σ → List Notice) (origin : Option Int)
    (line : Nat) (e : Expr) (s : Session σ) :
    ownNotices h n origin (.print line e, s) = valueNotices (reportedLine origin line) e s ++
      (valueOf? h (reportedLine origin line) e).afterwards
        (fun value _ => value.elim [] fun value => [.output value.display]) s := by
  rw [afterwards_valueOf? _ fun _ => rfl]
  simp only [ownNotices, valueNotices]
  cases evaluate s.machine.bindings e <;> rfl

end Expression

section Label
variable {h : Host σ} {prompt : String} {s : Session σ} {model : String}
  {classify : String → String → Task σ (Except ClassifierError Verdict)}

def answered (h : Host σ) (line : Int) :
    Except ClassifierError Verdict → Exec σ (Option String)
  | .ok verdict => return some verdict.label
  | .error error => do
    diagnose h "ClassifierError" line error.message
    return none

def answerNotices (line : Int) : Except ClassifierError Verdict → List Notice
  | .ok _ => []
  | .error error => [.report "ClassifierError" line error.message]

theorem labelOf?_unselected (hm : s.machine.activeModel = none) (line : Int) :
    labelOf? h line prompt s = (diagnose h "ClassifierError" line
      "no model selected, add an `AI: \"path\"` line first" >>= fun _ => pure none) s := by
  rw [labelOf?, Task.bind_of_ok (Exec.machine_run s), hm]

theorem labelOf?_unavailable (hm : s.machine.activeModel = some model) (hc : h.classify = none)
    (line : Int) :
    labelOf? h line prompt s =
      (diagnose h "ClassifierError" line "no classifier available" >>= fun _ => pure none) s := by
  rw [labelOf?, Task.bind_of_ok (Exec.machine_run s), hm, hc]

theorem labelOf?_asked (hm : s.machine.activeModel = some model) (hc : h.classify = some classify)
    (line : Int) :
    labelOf? h line prompt s = (Exec.world (classify model prompt) >>= answered h line) s := by
  rw [labelOf?, Task.bind_of_ok (Exec.machine_run s), hm, hc]
  rfl

theorem labelNotices_asked (hm : s.machine.activeModel = some model)
    (hc : h.classify = some classify) (line : Int) :
    labelNotices h line prompt s = (Exec.world (classify model prompt)).afterwards
      (fun answer _ => answerNotices line answer) s := by
  simp only [labelNotices, hm, hc]
  cases hrun : classify model prompt s.world with
  | mk result w =>
    cases result with
    | error crash => rw [Exec.afterwards_of_error (Exec.world_of hrun)]
    | ok answer =>
      rw [Exec.afterwards_of_ok (Exec.world_of hrun)]
      cases answer <;> rfl

end Label

def faultNotice (fault : Fault) : Notice :=
  match fault.line with
  | some line => .report fault.complaint.kind line fault.message
  | none => .output s!"❌ {fault.text}"

def runNotices (h : Host σ) (source : List Char) (lineMap : List Int) (s : Session σ) :
    List Notice :=
  match parse source with
  | .error fault => [faultNotice fault]
  | .ok program =>
    blockNotices h (execExpand h h.maxDepth.toNat) (expandNotices h h.maxDepth.toNat) none program
      (s.started lineMap)

theorem haltLine_eq (lineMap : List Int) (fault : Fault) :
    haltLine lineMap fault = (faultNotice fault).text (sourceLine lineMap) := by
  obtain ⟨complaint, line⟩ := fault
  cases line with
  | none => rfl
  | some line =>
    simp only [haltLine, faultNotice, Fault.text, Fault.message, Notice.text, Option.map_some,
      toString, String.append_assoc]

def Notice.On (line : Int) : Notice → Prop
  | .output _ => True
  | .report _ l _ => l = line

section Location
variable {h : Host σ} {k : String → Int → Exec σ Unit}
  {n : String → Int → Session σ → List Notice} {origin : Option Int}

theorem valueNotices_on (line : Int) (e : Expr) (s : Session σ) :
    ∀ notice ∈ valueNotices line e s, notice.On line := by
  unfold valueNotices
  split
  · exact nofun
  · exact List.forall_mem_singleton.mpr rfl

theorem labelNotices_on (line : Int) (prompt : String) (s : Session σ) :
    ∀ notice ∈ labelNotices h line prompt s, notice.On line := by
  unfold labelNotices
  split
  · exact List.forall_mem_singleton.mpr rfl
  · exact List.forall_mem_singleton.mpr rfl
  · split
    · exact List.forall_mem_singleton.mpr rfl
    · exact nofun

theorem conditionNotices_on (line : Int) (arms : List (Expr × List Stmt)) (s : Session σ) :
    ∀ notice ∈ conditionNotices h line arms s, notice.On line := by
  induction arms generalizing s with
  | nil => exact nofun
  | cons arm rest ih =>
    obtain ⟨condition, body⟩ := arm
    rw [conditionNotices]
    intro notice hnotice
    rcases List.mem_append.mp hnotice with hnotice | hnotice
    · exact valueNotices_on line condition s notice hnotice
    · obtain ⟨value, s', -, hnotice⟩ := Exec.mem_afterwards hnotice
      split at hnotice
      · cases hnotice
      · exact ih s' notice hnotice

/-- Whatever a statement says itself is reported on its line, or on that of the instruction it
comes from. -/
theorem ownNotices_on
    (hn : ∀ instruction line s, line ≠ 0 → ∀ notice ∈ n instruction line s, notice.On line)
    {stmt : Stmt} (hline : reportedLine origin stmt.line ≠ 0) (s : Session σ) :
    ∀ notice ∈ ownNotices h n origin (stmt, s), notice.On (reportedLine origin stmt.line) := by
  cases stmt with
  | print line e =>
    rw [ownNotices]
    split
    · exact List.forall_mem_singleton.mpr trivial
    · exact List.forall_mem_singleton.mpr rfl
  | assign line name e => exact valueNotices_on _ e s
  | ask line name prompt => exact labelNotices_on _ prompt s
  | select line path => exact valueNotices_on _ path s
  | expand line instruction => exact hn instruction _ s hline
  | choose line arms last => exact conditionNotices_on _ arms s

theorem reportedLine_some {line : Int} (hline : line ≠ 0) (own : Nat) :
    reportedLine (some line) own = line := by
  simp [reportedLine, hline]

theorem expandNotices_on (allowance : Nat) (instruction : String) {line : Int} (hline : line ≠ 0)
    (s : Session σ) : ∀ notice ∈ expandNotices h allowance instruction line s, notice.On line := by
  induction allowance generalizing instruction line s with
  | zero => exact List.forall_mem_singleton.mpr rfl
  | succ allowance ih =>
    cases hx : h.expand instruction s.world with
    | mk result w =>
      cases result with
      | error crash =>
        rw [expandNotices_crash hx]
        exact nofun
      | ok expansion =>
        cases hq : parse expansion.script.toList with
        | error fault =>
          rw [expandNotices_rejected hx hq]
          exact List.forall_mem_singleton.mpr trivial
        | ok q =>
          rw [expandNotices_read hx hq]
          intro notice hnotice
          obtain ⟨⟨stmt, s'⟩, -, hself⟩ := List.mem_flatMap.mp hnotice
          have hline' := reportedLine_some hline stmt.line
          have hon := ownNotices_on (fun i l s hl => ih i hl s) (by rwa [hline']) s' notice hself
          rw [hline'] at hon
          exact hon

end Location

end Scribe.Run
