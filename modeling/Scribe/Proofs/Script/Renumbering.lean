import Mathlib.Data.List.Forall2
import Scribe.Proofs.Script.Exactness

/-!
# Tokens on other lines

The reader takes no notice of where tokens stand: the same tokens on other lines give the same tree,
with the lines of its statements moved along, or the same complaint. The ends of blocks may even
stand anywhere, since no statement starts with one.
-/
namespace Scribe.Script

mutual

def Stmt.renumber (f : Nat → Nat) : Stmt → Stmt
  | .print line e => .print (f line) e
  | .assign line name e => .assign (f line) name e
  | .ask line name prompt => .ask (f line) name prompt
  | .select line path => .select (f line) path
  | .expand line instruction => .expand (f line) instruction
  | .choose line arms last => .choose (f line) (renumberArms f arms) (renumberElse f last)

def renumberArms (f : Nat → Nat) : List (Expr × List Stmt) → List (Expr × List Stmt)
  | [] => []
  | (condition, body) :: rest => (condition, renumberBlock f body) :: renumberArms f rest

def renumberElse (f : Nat → Nat) : Option (List Stmt) → Option (List Stmt)
  | none => none
  | some body => some (renumberBlock f body)

def renumberBlock (f : Nat → Nat) : List Stmt → List Stmt
  | [] => []
  | stmt :: rest => stmt.renumber f :: renumberBlock f rest

end

variable {f : Nat → Nat}

theorem renumberBlock_append (body more : List Stmt) :
    renumberBlock f (body ++ more) = renumberBlock f body ++ renumberBlock f more := by
  induction body with
  | nil => rw [renumberBlock, List.nil_append, List.nil_append]
  | cons stmt body ih => rw [List.cons_append, renumberBlock, renumberBlock, ih, List.cons_append]

theorem renumberBlock_concat (body : List Stmt) (stmt : Stmt) :
    renumberBlock f (body ++ [stmt]) = renumberBlock f body ++ [stmt.renumber f] := by
  rw [renumberBlock_append, renumberBlock, renumberBlock]

theorem renumberArms_concat (arms : List (Expr × List Stmt)) (condition : Expr)
    (body : List Stmt) : renumberArms f (arms ++ [(condition, body)]) =
      renumberArms f arms ++ [(condition, renumberBlock f body)] := by
  induction arms with
  | nil => rw [renumberArms, List.nil_append, List.nil_append, renumberArms, renumberArms]
  | cons arm arms ih => rw [List.cons_append, renumberArms, renumberArms, ih, List.cons_append]

def Chain.renumber (f : Nat → Nat) (c : Chain) : Chain := ⟨f c.line, renumberArms f c.arms⟩

def Frame.renumber (f : Nat → Nat) (x : Frame) : Frame :=
  ⟨renumberBlock f x.before, x.chain.renumber f, x.condition⟩

def Purpose.renumber (f : Nat → Nat) : Purpose → Purpose
  | .model line => .model (f line)
  | .assign line name => .assign (f line) name
  | .print line => .print (f line)
  | .condition chain => .condition (chain.renumber f)

def Mode.renumber (f : Nat → Nat) : Mode → Mode
  | .start => .start
  | .blockStart => .blockStart
  | .next => .next
  | .armEnd chain => .armEnd (chain.renumber f)
  | .chainEnd chain last => .chainEnd (chain.renumber f) (renumberBlock f last)
  | .modelColon line => .modelColon (f line)
  | .assignName line => .assignName (f line)
  | .assignSign line name => .assignSign (f line) name
  | .askModel line name => .askModel (f line) name
  | .askColon line name => .askColon (f line) name
  | .askText line name => .askText (f line) name
  | .expandFrom line => .expandFrom (f line)
  | .expandModel line => .expandModel (f line)
  | .expandColon line => .expandColon (f line)
  | .expandText line => .expandText (f line)
  | .lineEnd stmt => .lineEnd (stmt.renumber f)
  | .elseColon chain => .elseColon (chain.renumber f)
  | .headerEnd chain condition => .headerEnd (chain.renumber f) condition
  | .block chain condition => .block (chain.renumber f) condition
  | .operand purpose outer current => .operand (purpose.renumber f) outer current
  | .operator purpose outer current e => .operator (purpose.renumber f) outer current e

def State.renumber (f : Nat → Nat) (s : State) : State :=
  ⟨s.frames.map (Frame.renumber f), renumberBlock f s.done, s.mode.renumber f⟩

theorem State.expected_renumber (s : State) (found : Terminal) :
    (s.renumber f).expected found = s.expected found := by
  obtain ⟨frames, done, mode⟩ := s
  have hframes : (frames.map (Frame.renumber f)).isEmpty = frames.isEmpty := by cases frames <;> rfl
  cases mode with
  | operator purpose => cases purpose <;> rfl
  | next | armEnd | chainEnd =>
    simp only [State.expected, State.renumber, Mode.renumber, hframes]
  | _ => rfl

theorem State.settle_renumber (s : State) : (s.renumber f).settle = s.settle.renumber f := by
  obtain ⟨frames, done, mode⟩ := s
  cases mode with
  | armEnd | chainEnd =>
    simp only [State.settle, State.renumber, Mode.renumber, Chain.renumber, renumberBlock_concat,
      Stmt.renumber, renumberElse]
  | _ => rfl

theorem State.closeBlock_renumber (s : State) :
    (s.renumber f).closeBlock = s.closeBlock.map (State.renumber f) := by
  have hsettle := s.settle_renumber (f := f)
  obtain ⟨frames, done, mode⟩ := s
  cases frames with
  | nil => rfl
  | cons x frames =>
    obtain ⟨before, chain, condition⟩ := x
    simp only [State.closeBlock, hsettle]
    cases condition with
    | none => rfl
    | some condition =>
      simp only [State.renumber, List.map_cons, Frame.renumber, Option.map_some, Mode.renumber,
        Chain.renumber, renumberArms_concat]

theorem Purpose.statement?_renumber (p : Purpose) (e : Expr) :
    (p.renumber f).statement? e = (p.statement? e).map (Stmt.renumber f) := by
  cases p with
  | condition => rfl
  | _ => simp only [Purpose.renumber, Purpose.statement?, Option.map_some, Stmt.renumber]

/-- The same token on the line that the first one's line has become; where a block ends does not
matter. -/
structure Token.Moved (f : Nat → Nat) (t t' : Token) : Prop where
  kind : t'.kind = t.kind
  lexeme : t'.lexeme = t.lexeme
  column : t'.column = t.column
  line : t.kind ≠ .dedent → t'.line = f t.line

def Failure.complaint (x : Failure) : Complaint := x.fault.complaint

section Step
variable {t t' : Token} (h : t.Moved f t')
include h

theorem Token.Moved.describe : t'.describe = t.describe := by
  simp only [Token.describe, h.kind, h.lexeme]

theorem State.fail_renumber (s : State) :
    ((s.renumber f).fail t').mapError Failure.complaint =
      ((s.fail t).mapError Failure.complaint).map (State.renumber f) := by
  simp only [State.fail, Except.mapError, Except.map, Failure.complaint, Failure.fault,
    s.expected_renumber, h.kind, h.describe]

theorem State.begin_renumber (s : State) :
    (s.renumber f).begin t' = (s.begin t).map (State.renumber f) := by
  have hline := h.line
  simp only [State.begin, h.kind, s.settle_renumber]
  split <;> rename_i hk
  all_goals first
    | rw [hline (by rw [hk]; decide)]; rfl
    | rfl

theorem stepOperand_renumber (s : State) (purpose : Purpose) (outer : List Pending)
    (current : Pending) :
    (stepOperand (s.renumber f) (purpose.renumber f) outer current t').mapError
        Failure.complaint =
      ((stepOperand s purpose outer current t).mapError Failure.complaint).map
        (State.renumber f) := by
  have hoperand : operand? t' = operand? t := by simp only [operand?, h.kind, h.lexeme]
  simp only [stepOperand, h.kind, hoperand]
  split
  · rfl
  · rfl
  · split
    · rfl
    · exact s.fail_renumber h

theorem stepOperator_renumber (s : State) (purpose : Purpose) (outer : List Pending)
    (current : Pending) (e : Expr) :
    (stepOperator (s.renumber f) (purpose.renumber f) outer current e t').mapError
        Failure.complaint =
      ((stepOperator s purpose outer current e t).mapError Failure.complaint).map
        (State.renumber f) := by
  simp only [stepOperator, h.kind]
  split
  case h_7 =>
    cases outer with
    | nil => exact s.fail_renumber h
    | cons p outer => rfl
  case h_8 =>
    rw [Purpose.statement?_renumber]
    cases outer with
    | nil =>
      cases purpose.statement? (current.close e) with
      | none => exact s.fail_renumber h
      | some stmt =>
        simp only [Option.map_some, Except.mapError, Except.map, State.renumber,
          renumberBlock_concat, Mode.renumber]
    | cons p outer => exact s.fail_renumber h
  case h_9 =>
    cases outer with
    | nil =>
      cases purpose with
      | condition chain => rfl
      | _ => exact s.fail_renumber h
    | cons p outer => exact s.fail_renumber h
  case h_10 => exact s.fail_renumber h
  all_goals rfl

/-- The end of a block is the only token of which nothing but the open blocks decides. -/
theorem State.closed_renumber (s : State) :
    (match (s.renumber f).closeBlock with
        | some s => Except.ok s
        | none => (s.renumber f).fail t').mapError Failure.complaint =
      ((match s.closeBlock with
        | some s => Except.ok s
        | none => s.fail t).mapError Failure.complaint).map (State.renumber f) := by
  rw [s.closeBlock_renumber]
  cases s.closeBlock with
  | some s' => rfl
  | none => exact s.fail_renumber h

theorem stepStatement_renumber (s : State) :
    (stepStatement (s.renumber f) t').mapError Failure.complaint =
      ((stepStatement s t).mapError Failure.complaint).map (State.renumber f) := by
  have hfail := s.fail_renumber h
  have hdedent := s.closed_renumber h
  simp only [stepStatement, s.begin_renumber h]
  cases s.begin t with
  | some s' => rfl
  | none =>
    simp only [Option.map_none, h.kind]
    obtain ⟨frames, done, mode⟩ := s
    cases mode with
    | start | blockStart => exact hfail
    | armEnd chain =>
      simp only [State.renumber, Mode.renumber] at hfail hdedent ⊢
      cases t.kind with
      | keyword word => cases word <;> first | exact hfail | rfl
      | dedent => exact hdedent
      | _ => exact hfail
    | _ =>
      cases t.kind with
      | dedent => exact hdedent
      | _ => exact hfail

theorem State.step_renumber (s : State) :
    ((s.renumber f).step t').mapError Failure.complaint =
      ((s.step t).mapError Failure.complaint).map (State.renumber f) := by
  have hfail := s.fail_renumber h
  have hstatement := stepStatement_renumber h s
  have hkind := h.kind
  have hlexeme := h.lexeme
  obtain ⟨frames, done, mode⟩ := s
  cases mode with
  | operand purpose outer current => exact stepOperand_renumber h _ purpose outer current
  | operator purpose outer current e => exact stepOperator_renumber h _ purpose outer current e
  | start | blockStart | next | armEnd | chainEnd => exact hstatement
  | lineEnd stmt =>
    simp only [State.step, State.renumber, Mode.renumber, hkind] at hfail ⊢
    cases t.kind with
    | newline =>
      simp only [Except.mapError, Except.map, State.renumber, Mode.renumber, renumberBlock_concat]
    | _ => exact hfail
  | _ =>
    simp only [State.step, State.renumber, Mode.renumber, hkind, hlexeme] at hfail ⊢
    cases t.kind with
    | keyword word => cases word <;> first | exact hfail | rfl
    | _ => first | exact hfail | rfl

end Step

theorem State.run_renumber {ts ts' : List Token} (h : List.Forall₂ (Token.Moved f) ts ts')
    (s : State) :
    (ts'.foldlM State.step (s.renumber f)).mapError Failure.complaint =
      ((ts.foldlM State.step s).mapError Failure.complaint).map (State.renumber f) := by
  induction h generalizing s with
  | nil => rfl
  | cons ht _ ih =>
    rw [List.foldlM_cons, List.foldlM_cons]
    exact Outcome.bind_agree (s.step_renumber ht) ih

theorem State.finish_renumber (s : State) :
    (s.renumber f).finish.mapError Failure.complaint =
      (s.finish.mapError Failure.complaint).map (renumberBlock f) := by
  have hexpected := s.expected_renumber (f := f) .endOfInput
  simp only [State.finish, s.settle_renumber, hexpected]
  obtain ⟨frames, done, mode⟩ := s.settle
  cases frames with
  | nil => cases mode <;> rfl
  | cons x frames => cases mode <;> rfl

/-- The tree of the same tokens on other lines. -/
theorem parseTokens_renumber {ts ts' : List Token} (h : List.Forall₂ (Token.Moved f) ts ts') :
    (parseTokens ts').mapError Failure.complaint =
      ((parseTokens ts).mapError Failure.complaint).map (renumberBlock f) := by
  have hinitial : State.initial.renumber f = State.initial := by
    simp only [State.initial, State.renumber, renumberBlock, List.map_nil, Mode.renumber]
  have hrun := State.run_renumber h State.initial
  rw [hinitial] at hrun
  exact Outcome.bind_agree hrun State.finish_renumber

end Scribe.Script
