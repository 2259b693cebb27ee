import Scribe.Proofs.Instruction.TemplateReading
import Scribe.Proofs.Run.Tasks

/-!
# Running tame programs

A tame program never asks a model and never expands an instruction: its run is the same whatever
classifier the host has and however instructions would be expanded. It leaves the selected model
alone.
-/
namespace Scribe.Run
open Script

variable {σ : Type} {h h' : Host σ} {k k' : String → Int → Exec σ Unit} {origin : Option Int}

theorem emit_congr (he : h.emit = h'.emit) : emit h = emit h' := by
  funext line
  unfold emit
  rw [he]

theorem valueOf?_congr (he : h.emit = h'.emit) : valueOf? h = valueOf? h' := by
  funext line e
  unfold valueOf? diagnose
  rw [emit_congr he]

theorem execBlock_prints_congr (he : h.emit = h'.emit) {body : List Stmt}
    (hb : ∀ s ∈ body, s.IsPrint) :
    execBlock h k origin body = execBlock h' k' origin body := by
  induction body with
  | nil => rfl
  | cons stmt rest ih =>
    have hstmt := hb stmt (by simp)
    cases stmt with
    | print line e =>
      simp only [execBlock, execStmt, valueOf?_congr he, emit_congr he,
        ih fun s hs => hb s (by simp [hs])]
    | _ => exact hstmt.elim

theorem execArms_congr (he : h.emit = h'.emit) {line : Int} {otherwise : Exec σ Unit}
    {arms : List (Expr × List Stmt)} (ha : ∀ arm ∈ arms, ∀ s ∈ arm.2, s.IsPrint) :
    execArms h k origin line otherwise arms = execArms h' k' origin line otherwise arms := by
  induction arms with
  | nil => simp only [execArms]
  | cons arm rest ih =>
    obtain ⟨condition, body⟩ := arm
    have hbody : execBlock h k origin body = execBlock h' k' origin body :=
      execBlock_prints_congr he (ha (condition, body) (by simp))
    simp only [execArms, valueOf?_congr he, hbody, ih fun arm harm => ha arm (by simp [harm])]

/-- The run of a tame program depends on nothing but where its lines go. -/
theorem execBlock_tame_congr (he : h.emit = h'.emit) {q : Program} (hq : ∀ s ∈ q, s.Tame) :
    execBlock h k origin q = execBlock h' k' origin q := by
  induction q with
  | nil => rfl
  | cons stmt rest ih =>
    have hstmt := hq stmt (by simp)
    have hrest := ih fun s hs => hq s (by simp [hs])
    cases stmt with
    | print line e =>
      simp only [execBlock, execStmt, valueOf?_congr he, emit_congr he, hrest]
    | assign line name e => simp only [execBlock, execStmt, valueOf?_congr he, hrest]
    | choose line arms last =>
      have helse : execElse h k origin last = execElse h' k' origin last := by
        cases last with
        | none => rfl
        | some body => exact execBlock_prints_congr he (hstmt.2 body rfl)
      have harms (line : Int) (otherwise : Exec σ Unit) :
          execArms h k origin line otherwise arms = execArms h' k' origin line otherwise arms :=
        execArms_congr he hstmt.1
      simp only [execBlock, execStmt, helse, harms, hrest]
    | ask | select | expand => exact hstmt.elim

def Session.activeModel (s : Session σ) : Option String := s.machine.activeModel

theorem keeps_activeModel {α : Type} {t : Exec σ α} (ht : Task.Keeps Session.machine t) :
    Task.Keeps Session.activeModel t :=
  fun s => congrArg Machine.activeModel (ht s)

theorem keeps_machine : Task.Keeps Session.machine (Exec.machine : Exec σ Machine) :=
  fun _ => rfl

theorem keeps_emit (h : Host σ) (line : String) : Task.Keeps Session.machine (emit h line) :=
  Exec.keeps_world _

theorem keeps_diagnose (h : Host σ) (kind : String) (line : Int) (message : String) :
    Task.Keeps Session.machine (diagnose h kind line message) :=
  keeps_machine.bind fun _ => keeps_emit h _

theorem keeps_valueOf? (h : Host σ) (line : Int) (e : Expr) :
    Task.Keeps Session.machine (valueOf? h line e) := by
  refine keeps_machine.bind fun m => ?_
  split
  · exact .pure _
  · exact (keeps_diagnose h _ line _).bind fun _ => .pure _

theorem keeps_print {line : Nat} {e : Expr} :
    Task.Keeps Session.machine (execStmt h k origin (.print line e)) := by
  rw [execStmt]
  refine (keeps_valueOf? h _ e).bind fun value => ?_
  split
  · exact keeps_emit h _
  · exact .pure _

theorem keeps_prints {body : List Stmt} (hb : ∀ s ∈ body, s.IsPrint) :
    Task.Keeps Session.machine (execBlock h k origin body) := by
  induction body with
  | nil =>
    rw [execBlock]
    exact .pure _
  | cons stmt rest ih =>
    have hstmt := hb stmt (by simp)
    rw [execBlock]
    cases stmt with
    | print line e => exact keeps_print.bind fun _ => ih fun s hs => hb s (by simp [hs])
    | _ => exact hstmt.elim

theorem keeps_arms {line : Int} {otherwise : Exec σ Unit} {arms : List (Expr × List Stmt)}
    (ho : Task.Keeps Session.machine otherwise) (ha : ∀ arm ∈ arms, ∀ s ∈ arm.2, s.IsPrint) :
    Task.Keeps Session.machine (execArms h k origin line otherwise arms) := by
  induction arms with
  | nil =>
    rw [execArms]
    exact ho
  | cons arm rest ih =>
    obtain ⟨condition, body⟩ := arm
    rw [execArms]
    refine (keeps_valueOf? h line condition).bind fun value => ?_
    split
    · exact keeps_prints (ha (condition, body) (by simp))
    · exact ih fun arm harm => ha arm (by simp [harm])

theorem keeps_bind (name : String) (value : Value) :
    Task.Keeps Session.activeModel (Exec.bind name value : Exec σ Unit) :=
  fun _ => rfl

/-- A tame program leaves the selected model alone. -/
theorem keeps_tame {q : Program} (hq : ∀ s ∈ q, s.Tame) :
    Task.Keeps Session.activeModel (execBlock h k origin q) := by
  induction q with
  | nil =>
    rw [execBlock]
    exact .pure _
  | cons stmt rest ih =>
    have hstmt := hq stmt (by simp)
    have hrest := ih fun s hs => hq s (by simp [hs])
    rw [execBlock]
    refine Task.Keeps.bind ?_ fun _ => hrest
    cases stmt with
    | print line e => exact keeps_activeModel keeps_print
    | assign line name e =>
      rw [execStmt]
      exact (keeps_activeModel (keeps_valueOf? h _ e)).bind fun value => keeps_bind name _
    | choose line arms last =>
      rw [execStmt]
      refine keeps_activeModel (keeps_arms ?_ hstmt.1)
      cases last with
      | none =>
        rw [execElse]
        exact .pure _
      | some body =>
        rw [execElse]
        exact keeps_prints (hstmt.2 body rfl)
    | ask | select | expand => exact hstmt.elim

end Scribe.Run
