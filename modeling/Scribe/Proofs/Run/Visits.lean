import Scribe.Proofs.Run.Tasks
import Scribe.Proofs.Script.Trees

/-!
# What a run visits

A run visits the statements of its script one after the other, the blocks that it enters included,
until it ends or crashes. What is gathered from the statements that are visited follows the
program, and a judgement on tasks that is closed under chaining holds of a block if it holds of
the statements that have no blocks of their own.
-/
namespace Scribe.Run
open Script

variable {σ : Type}

def Exec.afterwards {α β : Type} (t : Exec σ α) (rest : α → Session σ → List β)
    (s : Session σ) : List β :=
  match t s with
  | (.ok a, s') => rest a s'
  | (.error _, _) => []

mutual

/-- The statements that a statement visits, itself first, each with the session it starts in. -/
def visitsStmt (h : Host σ) (expand : String → Int → Exec σ Unit) (origin : Option Int) :
    Stmt → Session σ → List (Stmt × Session σ)
  | .choose line arms otherwise, s =>
    (.choose line arms otherwise, s) ::
      visitsArms h expand origin (reportedLine origin line) (visitsElse h expand origin otherwise)
        arms s
  | stmt, s => [(stmt, s)]

def visitsArms (h : Host σ) (expand : String → Int → Exec σ Unit) (origin : Option Int)
    (line : Int) (otherwise : Session σ → List (Stmt × Session σ)) :
    List (Expr × List Stmt) → Session σ → List (Stmt × Session σ)
  | [], s => otherwise s
  | (condition, body) :: rest, s =>
    Exec.afterwards (valueOf? h line condition)
      (fun value s =>
        if value.any Value.truthy then visitsBlock h expand origin body s
        else visitsArms h expand origin line otherwise rest s) s

def visitsElse (h : Host σ) (expand : String → Int → Exec σ Unit) (origin : Option Int) :
    Option (List Stmt) → Session σ → List (Stmt × Session σ)
  | none, _ => []
  | some body, s => visitsBlock h expand origin body s

def visitsBlock (h : Host σ) (expand : String → Int → Exec σ Unit) (origin : Option Int) :
    List Stmt → Session σ → List (Stmt × Session σ)
  | [], _ => []
  | stmt :: rest, s =>
    visitsStmt h expand origin stmt s ++
      Exec.afterwards (execStmt h expand origin stmt)
        (fun _ s => visitsBlock h expand origin rest s) s

end

namespace Exec
variable {α β γ : Type} {t : Exec σ α} {s s' : Session σ}

theorem afterwards_of_ok {a : α} (ht : t s = (.ok a, s')) (rest : α → Session σ → List β) :
    t.afterwards rest s = rest a s' := by
  simp only [afterwards, ht]

theorem afterwards_of_error {e : Crash} (ht : t s = (.error e, s'))
    (rest : α → Session σ → List β) : t.afterwards rest s = [] := by
  simp only [afterwards, ht]

theorem afterwards_nil : t.afterwards (fun _ _ => ([] : List β)) s = [] := by
  unfold afterwards
  split <;> rfl

theorem mem_afterwards {rest : α → Session σ → List β} {x : β} (h : x ∈ t.afterwards rest s) :
    ∃ a s', t s = (.ok a, s') ∧ x ∈ rest a s' := by
  unfold afterwards at h
  split at h
  · exact ⟨_, _, by assumption, h⟩
  · cases h

theorem afterwards_flatMap (rest : α → Session σ → List β) (f : β → List γ) :
    (t.afterwards rest s).flatMap f = t.afterwards (fun a s => (rest a s).flatMap f) s := by
  unfold afterwards
  split <;> rfl

theorem afterwards_append (rest rest' : α → Session σ → List β) :
    t.afterwards rest s ++ t.afterwards rest' s =
      t.afterwards (fun a s => rest a s ++ rest' a s) s := by
  unfold afterwards
  split <;> rfl

end Exec

/-! What is gathered from the statements that are visited follows the program. -/

section Visited
variable {β : Type} (h : Host σ) (k : String → Int → Exec σ Unit) (origin : Option Int)
  (own : Stmt × Session σ → List β)

theorem flatMap_visitsStmt_simple {stmt : Stmt}
    (hs : ∀ line arms last, stmt ≠ .choose line arms last) (s : Session σ) :
    (visitsStmt h k origin stmt s).flatMap own = own (stmt, s) := by
  have hvisit : visitsStmt h k origin stmt s = [(stmt, s)] := by
    cases stmt with
    | choose line arms last => exact absurd rfl (hs line arms last)
    | _ => rfl
  rw [hvisit, List.flatMap_cons, List.flatMap_nil, List.append_nil]

theorem flatMap_visitsArms_cons (line : Int) (otherwise : Session σ → List (Stmt × Session σ))
    (condition : Expr) (body : List Stmt) (rest : List (Expr × List Stmt)) (s : Session σ) :
    (visitsArms h k origin line otherwise ((condition, body) :: rest) s).flatMap own =
      (valueOf? h line condition).afterwards
        (fun value s =>
          if value.any Value.truthy then (visitsBlock h k origin body s).flatMap own
          else (visitsArms h k origin line otherwise rest s).flatMap own) s := by
  rw [visitsArms, Exec.afterwards_flatMap]
  congr 1
  funext value s
  split <;> rfl

theorem flatMap_visitsBlock_cons (stmt : Stmt) (rest : List Stmt) (s : Session σ) :
    (visitsBlock h k origin (stmt :: rest) s).flatMap own =
      (visitsStmt h k origin stmt s).flatMap own ++ (execStmt h k origin stmt).afterwards
        (fun _ s => (visitsBlock h k origin rest s).flatMap own) s := by
  rw [visitsBlock, List.flatMap_append, Exec.afterwards_flatMap]

end Visited

section Location
variable {h : Host σ} {k : String → Int → Exec σ Unit} {origin : Option Int}

theorem occurs_of_visitsArms {line : Int} {otherwise : Session σ → List (Stmt × Session σ)}
    {arms : List (Expr × List Stmt)} {v : Stmt × Session σ} {q : Prop} (s : Session σ)
    (ho : ∀ s, v ∈ otherwise s → q)
    (ha : ∀ arm ∈ arms, ∀ s, v ∈ visitsBlock h k origin arm.2 s → q)
    (hv : v ∈ visitsArms h k origin line otherwise arms s) : q := by
  induction arms generalizing s with
  | nil => exact ho s hv
  | cons arm rest ih =>
    obtain ⟨condition, body⟩ := arm
    rw [visitsArms] at hv
    obtain ⟨value, s', -, hv⟩ := Exec.mem_afterwards hv
    split at hv
    · exact ha (condition, body) (by simp) s' hv
    · exact ih s' (fun arm harm => ha arm (by simp [harm])) hv

/-- A run visits only statements of its script. -/
theorem occurs_of_visits {body : List Stmt} {v : Stmt × Session σ} {s : Session σ}
    (hv : v ∈ visitsBlock h k origin body s) : Occurs v.1 body := by
  induction body using Program.induction generalizing s with
  | nil => cases hv
  | cons stmt rest inner ih =>
    rw [visitsBlock] at hv
    rcases List.mem_append.mp hv with hv | hv
    · cases stmt with
      | choose line arms last =>
        rw [visitsStmt] at hv
        rcases List.mem_cons.mp hv with rfl | hv
        · exact .head
        · refine occurs_of_visitsArms s (fun s hv => ?_) (fun arm harm s hv => ?_) hv
          · cases last with
            | none => cases hv
            | some body =>
              rw [visitsElse] at hv
              exact .last (inner.2 body rfl hv)
          · exact .arm harm (inner.1 arm harm hv)
      | _ =>
        rw [List.mem_singleton.mp hv]
        exact .head
    · obtain ⟨_, s', -, hv⟩ := Exec.mem_afterwards hv
      exact .tail (ih hv)

end Location

section Expression
variable {h : Host σ}

theorem valueOf?_ok {line : Int} {e : Expr} {s : Session σ} {value : Value}
    (he : evaluate s.machine.bindings e = .ok value) :
    valueOf? h line e s = (.ok (some value), s) := by
  rw [valueOf?, Task.bind_of_ok (Exec.machine_run s), he]
  rfl

/-- An assignment binds the value of its expression and does nothing else. -/
theorem execStmt_assign {k : String → Int → Exec σ Unit} {origin : Option Int} {line : Nat}
    {name : String} {e : Expr} {s : Session σ} {value : Value}
    (he : evaluate s.machine.bindings e = .ok value) :
    execStmt h k origin (.assign line name e) s =
      (.ok (), ⟨{ s.machine with bindings := s.machine.bindings.set name value }, s.world⟩) := by
  rw [execStmt]
  exact Task.bind_of_ok (valueOf?_ok he)

theorem valueOf?_error {line : Int} {e : Expr} {s : Session σ} {error : EvalError}
    (he : evaluate s.machine.bindings e = .error error) :
    valueOf? h line e s =
      (diagnose h "EvalError" line error.message >>= fun _ => pure none) s := by
  rw [valueOf?, Task.bind_of_ok (Exec.machine_run s), he]

/-- Whatever is said of it, an expression that has no value gives nothing. -/
theorem value_of_valueOf? {line : Int} {e : Expr} {s s' : Session σ} {value : Option Value}
    (hrun : valueOf? h line e s = (.ok value, s')) :
    value = (evaluate s.machine.bindings e).toOption := by
  cases he : evaluate s.machine.bindings e with
  | ok v =>
    rw [valueOf?_ok he] at hrun
    cases hrun
    rfl
  | error error =>
    rw [valueOf?_error he] at hrun
    obtain ⟨_, s₁, -, hend⟩ := Task.bind_eq_ok hrun
    cases hend
    rfl

theorem evaluate_of_valueOf? {line : Int} {e : Expr} {s s' : Session σ} {value : Value}
    (hrun : valueOf? h line e s = (.ok (some value), s')) :
    evaluate s.machine.bindings e = .ok value := by
  have heq := value_of_valueOf? hrun
  cases he : evaluate s.machine.bindings e with
  | ok v =>
    rw [he] at heq
    cases heq
    rfl
  | error error =>
    rw [he] at heq
    cases heq

end Expression

/-- A judgement on tasks and what is gathered while they run, closed under chaining: what a task
gathers comes before what is gathered behind it. Expressions gather nothing. -/
structure Gathers {β : Type} (h : Host σ)
    (J : (α : Type) → Exec σ α → (Session σ → List β) → Prop) : Prop where
  pure : ∀ {α : Type} (a : α), J α (pure a) fun _ => []
  bind : ∀ {α γ : Type} {t : Exec σ α} {f : α → Exec σ γ} {n : Session σ → List β}
    {m : α → Session σ → List β}, J α t n → (∀ a, J γ (f a) (m a)) →
      J γ (t >>= f) fun s => n s ++ t.afterwards m s
  valueOf? : ∀ line e, J (Option Value) (Run.valueOf? h line e) fun _ => []

namespace Gathers
variable {β : Type} {h : Host σ} {J : (α : Type) → Exec σ α → (Session σ → List β) → Prop}
  {k : String → Int → Exec σ Unit} {origin : Option Int}

theorem of_eq {α : Type} {t : Exec σ α} {n m : Session σ → List β} (ht : J α t n)
    (h : ∀ s, m s = n s) : J α t m := by
  have heq : m = n := funext h
  exact heq ▸ ht

variable (hJ : Gathers h J)
include hJ

theorem arms {own : Stmt × Session σ → List β} {line : Int} {otherwise : Exec σ Unit}
    {last : Session σ → List (Stmt × Session σ)} {arms : List (Expr × List Stmt)}
    (ho : J Unit otherwise fun s => (last s).flatMap own)
    (ha : ∀ arm ∈ arms, J Unit (execBlock h k origin arm.2)
      fun s => (visitsBlock h k origin arm.2 s).flatMap own) :
    J Unit (execArms h k origin line otherwise arms)
      fun s => (visitsArms h k origin line last arms s).flatMap own := by
  induction arms with
  | nil =>
    simp only [execArms, visitsArms]
    exact ho
  | cons arm rest ih =>
    obtain ⟨condition, body⟩ := arm
    rw [execArms]
    refine of_eq (hJ.bind (hJ.valueOf? line condition) fun value => ?_)
      (flatMap_visitsArms_cons h k origin own line last condition body rest)
    split
    · exact ha (condition, body) (by simp)
    · exact ih fun arm harm => ha arm (by simp [harm])

theorem otherwise {own : Stmt × Session σ → List β} {last : Option (List Stmt)}
    (hl : ∀ body, last = some body → J Unit (execBlock h k origin body)
      fun s => (visitsBlock h k origin body s).flatMap own) :
    J Unit (execElse h k origin last) fun s => (visitsElse h k origin last s).flatMap own := by
  cases last with
  | none =>
    simp only [execElse, visitsElse]
    exact hJ.pure ()
  | some body =>
    simp only [execElse, visitsElse]
    exact hl body rfl

/-- A statement with blocks of its own gathers what they gather, and may gather more before. -/
theorem block (own : Stmt × Session σ → List β) {body : List Stmt}
    (hsimple : ∀ stmt, Occurs stmt body → (∀ line arms last, stmt ≠ .choose line arms last) →
      J Unit (execStmt h k origin stmt) fun s => own (stmt, s))
    (hchoose : ∀ {t : Exec σ Unit} {n : Session σ → List β} line arms last, J Unit t n →
      J Unit t fun s => own (.choose line arms last, s) ++ n s) :
    J Unit (execBlock h k origin body) fun s => (visitsBlock h k origin body s).flatMap own := by
  induction body using Program.induction with
  | nil =>
    simp only [execBlock, visitsBlock]
    exact hJ.pure ()
  | cons stmt rest inner ih =>
    rw [execBlock]
    refine of_eq (hJ.bind ?_ fun _ => ih fun stmt hs => hsimple stmt (.tail hs))
      (flatMap_visitsBlock_cons h k origin own stmt rest)
    cases stmt with
    | choose line arms last =>
      have harms : ∀ arm ∈ arms, J Unit (execBlock h k origin arm.2)
          fun s => (visitsBlock h k origin arm.2 s).flatMap own :=
        fun arm harm => inner.1 arm harm fun stmt hs => hsimple stmt (.arm harm hs)
      have hlast : J Unit (execElse h k origin last)
          fun s => (visitsElse h k origin last s).flatMap own :=
        hJ.otherwise fun body hbody => inner.2 body hbody fun stmt hs => hsimple stmt (by
          subst hbody
          exact .last hs)
      rw [execStmt]
      exact hchoose line arms last (hJ.arms hlast harms)
    | _ =>
      exact of_eq (hsimple _ .head (by simp))
        (flatMap_visitsStmt_simple h k origin own (by simp))

end Gathers

def Machine.Selects (A : String → Prop) (m : Machine) : Prop :=
  ∀ path, m.activeModel = some path → A path

/-- The paths that a selection in a block can lead to, whatever the variables. -/
def Selectable (body : List Stmt) (path : String) : Prop :=
  ∃ line e b value, Occurs (.select line e) body ∧ evaluate b e = .ok value ∧ value.display = path

/-- A judgement on tasks that is closed under chaining, and holds of what a run does with its
machine and of the services of the host, the writer of scripts apart, as long as only models in `A`
are selected. -/
structure Host.Upholds (h : Host σ) (A : String → Prop) (J : (α : Type) → Exec σ α → Prop) : Prop
    extends Task.Chains (fun s => s.machine.Selects A) J where
  machine : J Machine Exec.machine
  change : ∀ f, (∀ m, m.Selects A → (f m).Selects A) → J Unit (Exec.change f)
  emit : ∀ line, J Unit (Run.emit h line)
  classify : ∀ f, h.classify = some f → ∀ model, A model → ∀ text, J _ (Exec.world (f model text))

namespace Host.Upholds
variable {h : Host σ} {A : String → Prop} {J : (α : Type) → Exec σ α → Prop}
  {k : String → Int → Exec σ Unit} {origin : Option Int} (hJ : h.Upholds A J)
include hJ

theorem diagnose (kind : String) (line : Int) (message : String) :
    J Unit (diagnose h kind line message) :=
  hJ.seq hJ.machine fun _ => hJ.emit _

theorem valueOf? (line : Int) (e : Expr) : J _ (valueOf? h line e) := by
  refine hJ.seq hJ.machine fun m => ?_
  split
  · exact hJ.pure _
  · exact hJ.seq (hJ.diagnose _ line _) fun _ => hJ.pure _

theorem labelOf? (line : Int) (prompt : String) : J _ (labelOf? h line prompt) := by
  refine hJ.bind hJ.machine fun m hm => ?_
  obtain ⟨s, s', hs, hrun⟩ := hm
  cases hrun
  split
  · exact hJ.seq (hJ.diagnose _ line _) fun _ => hJ.pure _
  · exact hJ.seq (hJ.diagnose _ line _) fun _ => hJ.pure _
  · rename_i model classify hmodel hclassify
    refine hJ.seq (hJ.classify classify hclassify model (hs model hmodel) prompt) fun result => ?_
    split
    · exact hJ.pure _
    · exact hJ.seq (hJ.diagnose _ line _) fun _ => hJ.pure _

theorem bound (name : String) (value : Value) : J Unit (Exec.bind name value) :=
  hJ.change _ fun _ hm => hm

/-- A judgement that holds of the instructions of a block holds of the block. -/
theorem block {body : List Stmt} (hs : ∀ path, Selectable body path → A path)
    (hk : ∀ line instruction, Occurs (.expand line instruction) body →
      J Unit (k instruction (reportedLine origin line))) :
    J Unit (execBlock h k origin body) := by
  have hgathers : Gathers (β := Empty) h fun α t _ => J α t :=
    ⟨hJ.pure, fun ht hf => hJ.seq ht hf, hJ.valueOf?⟩
  -- Nothing is gathered here, so what is gathered from a statement is of no account.
  refine hgathers.block (fun _ => []) (fun stmt ho hn => ?_) fun _ _ _ ht => ht
  cases stmt with
  | print line e =>
    rw [execStmt]
    refine hJ.seq (hJ.valueOf? _ e) fun value => ?_
    split
    · exact hJ.emit _
    · exact hJ.pure _
  | assign line name e =>
    rw [execStmt]
    exact hJ.seq (hJ.valueOf? _ e) fun _ => hJ.bound _ _
  | ask line name prompt =>
    rw [execStmt]
    exact hJ.seq (hJ.labelOf? _ prompt) fun _ => hJ.bound _ _
  | select line e =>
    rw [execStmt]
    refine hJ.bind (hJ.valueOf? _ e) fun value hvalue => ?_
    split
    · obtain ⟨s, s', -, hrun⟩ := hvalue
      refine hJ.change _ fun m _ path hpath => ?_
      exact hs path ⟨line, e, _, _, ho, evaluate_of_valueOf? hrun, Option.some.inj hpath⟩
    · exact hJ.pure _
  | expand line instruction =>
    rw [execStmt]
    exact hk line instruction ho
  | choose line arms last => exact absurd rfl (hn line arms last)

/-- A judgement that holds of writing a script for an instruction holds of the instruction, if it
holds of those in the script. -/
theorem expanded {allowance : Nat} {instruction : String} {line : Int}
    (hx : J Expansion (Exec.world (h.expand instruction)))
    (hs : ∀ expansion q, (h.expand instruction).Yields (fun _ => True) expansion →
      parse expansion.script.toList = .ok q → ∀ path, Selectable q path → A path)
    (hk : ∀ expansion q, (h.expand instruction).Yields (fun _ => True) expansion →
      parse expansion.script.toList = .ok q → ∀ own inner, Occurs (.expand own inner) q →
        ∀ line, J Unit (execExpand h allowance inner line)) :
    J Unit (execExpand h (allowance + 1) instruction line) := by
  rw [execExpand]
  refine hJ.bind hx fun expansion hyields => hJ.seq (hJ.change _ fun _ hm => hm) fun _ => ?_
  have hyields := Exec.yields_of_world hyields
  split
  · rename_i q hq
    exact hJ.block (hs expansion q hyields hq) fun own inner ho =>
      hk expansion q hyields hq own inner ho _
  · exact hJ.seq (hJ.change _ fun _ hm => hm) fun _ => hJ.emit _

/-- A judgement that holds of writing scripts holds of instructions, however they nest. -/
theorem nested (hA : ∀ path, A path)
    (hx : ∀ instruction, J Expansion (Exec.world (h.expand instruction)))
    (allowance : Nat) (instruction : String) (line : Int) :
    J Unit (execExpand h allowance instruction line) := by
  induction allowance generalizing instruction line with
  | zero =>
    rw [execExpand]
    exact hJ.diagnose _ line _
  | succ allowance ih =>
    exact hJ.expanded (hx instruction) (fun _ _ _ _ path _ => hA path)
      fun _ _ _ _ _ inner _ line => ih inner line

/-- A judgement that holds of the instructions of a script holds of its run. -/
theorem run {source : List Char} {lineMap : List Int}
    (hs : ∀ program, parse source = .ok program → ∀ path, Selectable program path → A path)
    (hk : ∀ program, parse source = .ok program → ∀ own instruction,
      Occurs (.expand own instruction) program →
        ∀ line, J Unit (execExpand h h.maxDepth.toNat instruction line)) :
    J Phase (runSource h source lineMap) := by
  refine hJ.seq (hJ.change _ fun _ hm => hm) fun _ => ?_
  split
  · exact hJ.seq (hJ.emit _) fun _ => hJ.seq (hJ.change _ fun _ hm => hm) fun _ => hJ.pure _
  · rename_i program hp
    rw [execute, Int.sub_zero]
    refine hJ.seq (hJ.block (hs program hp) fun own instruction ho =>
      hk program hp own instruction ho _) fun _ => ?_
    exact hJ.seq (hJ.change _ fun _ hm => hm) fun _ => hJ.pure _

end Host.Upholds

end Scribe.Run
