import Scribe.Proofs.Script.Numerals
import Scribe.Proofs.Script.StatementReading

/-!
# Every state can be completed

Wherever the reader stands, some tokens lead it to the end of a script: the expression under way
is finished and its parentheses are closed, the statement gets its line end, a block that is
missing gets a statement, and the open blocks are closed. So nothing that has been read rules out
a program.
-/
namespace Scribe.Script

/-- A token of a kind, with a text that would do for a number too. -/
def plainToken (k : Kind) : Token := ⟨k, "0", 1, 1⟩

theorem readable_plainToken (k : Kind) : (plainToken k).Readable := by
  intro _
  have hzero : takeNumber ['0'] = "0".toList := by decide
  rw [plainToken, ← hzero]
  exact Option.isSome_iff_exists.mp (read?_takeNumber [] (by decide))

def State.Leads (s s' : State) : Prop :=
  ∃ kinds : List Kind, s.Reads (kinds.map plainToken) s'

namespace State.Leads

theorem refl (s : State) : s.Leads s := ⟨[], .nil s⟩

theorem step {s s' s'' : State} (k : Kind) (h : s.step (plainToken k) = .ok s')
    (hs : s'.Leads s'') : s.Leads s'' := by
  obtain ⟨kinds, hread⟩ := hs
  exact ⟨k :: kinds, .cons h hread⟩

theorem trans {s s' s'' : State} (h : s.Leads s') (hs : s'.Leads s'') : s.Leads s'' := by
  obtain ⟨kinds, hread⟩ := h
  obtain ⟨kinds', hread'⟩ := hs
  refine ⟨kinds ++ kinds', ?_⟩
  rw [List.map_append]
  exact hread.append hread'

end State.Leads

def State.Ends (s : State) : Prop :=
  ∃ s', s.Leads s' ∧ s'.frames = s.frames ∧ s'.settle.mode = .next

/-- One token more. -/
theorem State.Ends.after {s s₁ : State} (h : s₁.Ends) (k : Kind)
    (hstep : s.step (plainToken k) = .ok s₁) (hframes : s₁.frames = s.frames := by rfl) :
    s.Ends := by
  obtain ⟨s', hlead, hsame, hmode⟩ := h
  exact ⟨s', hlead.step k hstep, hsame.trans hframes, hmode⟩

section Ends
variable {frames : List Frame} {done : List Stmt}

theorem ends_next : State.Ends ⟨frames, done, .next⟩ := ⟨_, .refl _, rfl, rfl⟩

theorem ends_lineEnd (stmt : Stmt) : State.Ends ⟨frames, done, .lineEnd stmt⟩ :=
  ends_next.after .newline rfl

/-- Where a statement may start, one that prints may follow. -/
theorem State.Ready.ends {s : State} (h : s.Ready) : s.Ends := by
  have hnull : ReadsLevel .orTest (.lit .null) [plainToken .null] :=
    readsOr_one <| readsAnd_one <| readsComparison_one <| readsSum_one <| readsProduct_one <|
      readsOperand_of_operand? rfl
  have hprint := readsSimple_print (t := plainToken (.keyword .neuro)) rfl hnull
  exact ⟨_, ⟨[.keyword .neuro, .null, .newline], hprint s (plainToken .newline) h rfl⟩, rfl, rfl⟩

theorem settle_closed (chain : Chain) (condition : Option Expr) (body : List Stmt) :
    (State.settle ⟨frames, done, chain.closed condition body⟩).mode = .next := by
  cases condition <;> rfl

/-- The block of an arm gets a statement and is closed. -/
theorem ends_block (chain : Chain) (condition : Option Expr) :
    State.Ends ⟨frames, done, .block chain condition⟩ := by
  obtain ⟨⟨frames', done', mode'⟩, hlead, hframes, hmode⟩ :=
    State.Ready.ends (s := ⟨⟨done, chain, condition⟩ :: frames, [], .blockStart⟩) trivial
  cases hframes
  have hdedent := State.step_dedent (d := plainToken .dedent) hmode rfl
  exact ⟨_, .step .indent rfl (hlead.trans (.step .dedent hdedent (.refl _))), rfl,
    settle_closed chain condition _⟩

theorem ends_headerEnd (chain : Chain) (condition : Option Expr) :
    State.Ends ⟨frames, done, .headerEnd chain condition⟩ :=
  (ends_block chain condition).after .newline rfl

/-- The parentheses of an expression are closed, and then what it was read for is finished. -/
theorem ends_operator (purpose : Purpose) (outer : List Pending) (p : Pending) (e : Expr) :
    State.Ends ⟨frames, done, .operator purpose outer p e⟩ := by
  induction outer generalizing p e with
  | nil =>
    cases purpose with
    | condition chain => exact (ends_headerEnd chain _).after .colon rfl
    | _ => exact ends_next.after .newline rfl
  | cons q outer ih => exact (ih _ _).after .closeParen rfl

theorem ends_operand (purpose : Purpose) (outer : List Pending) (p : Pending) :
    State.Ends ⟨frames, done, .operand purpose outer p⟩ :=
  (ends_operator purpose outer _ _).after .null rfl

end Ends

theorem State.ends (s : State) : s.Ends := by
  obtain ⟨frames, done, mode⟩ := s
  cases mode with
  | start | blockStart | next | armEnd | chainEnd => exact State.Ready.ends trivial
  | lineEnd stmt => exact ends_lineEnd stmt
  | headerEnd chain condition => exact ends_headerEnd chain condition
  | block chain condition => exact ends_block chain condition
  | operand purpose outer p => exact ends_operand purpose outer p
  | operator purpose outer p e => exact ends_operator purpose outer p e
  | elseColon chain => exact (ends_headerEnd chain none).after .colon rfl
  | modelColon line => exact (ends_operand _ _ _).after .colon rfl
  | assignSign line name => exact (ends_operand _ _ _).after .assign rfl
  | assignName line => exact ((ends_operand _ _ _).after .assign rfl).after .identifier rfl
  | askText line name => exact (ends_lineEnd _).after .raw rfl
  | askColon line name => exact ((ends_lineEnd _).after .raw rfl).after .colon rfl
  | askModel line name =>
    exact (((ends_lineEnd _).after .raw rfl).after .colon rfl).after (.keyword .ai) rfl
  | expandText line => exact (ends_lineEnd _).after .raw rfl
  | expandColon line => exact ((ends_lineEnd _).after .raw rfl).after .colon rfl
  | expandModel line =>
    exact (((ends_lineEnd _).after .raw rfl).after .colon rfl).after (.keyword .ai) rfl
  | expandFrom line =>
    exact ((((ends_lineEnd _).after .raw rfl).after .colon rfl).after (.keyword .ai) rfl).after
      (.keyword .fromWord) rfl

/-- The blocks that are open behind a finished statement are closed one after the other. -/
theorem State.closes {s : State} (h : s.settle.mode = .next) :
    ∃ s' p, s.Leads s' ∧ s'.finish = .ok p := by
  obtain ⟨frames, done, mode⟩ := s
  induction frames generalizing done mode with
  | nil =>
    have hframes : (State.settle ⟨[], done, mode⟩).frames = [] := State.settle_frames _
    refine ⟨_, (State.settle ⟨[], done, mode⟩).done, .refl _, ?_⟩
    simp only [State.finish, h, hframes]
  | cons f frames ih =>
    have hdedent := State.step_dedent (d := plainToken .dedent) h rfl
    obtain ⟨s', p, hlead, hfinish⟩ := ih _ _ (settle_closed f.chain f.condition _)
    exact ⟨s', p, hlead.step .dedent hdedent, hfinish⟩

/-- Tokens that can be read lead from every state to the end of a program. -/
theorem State.completes (s : State) :
    ∃ ts s' p, (∀ t ∈ ts, t.Readable) ∧ s.Reads ts s' ∧ s'.finish = .ok p := by
  obtain ⟨s₁, hlead, -, hmode⟩ := s.ends
  obtain ⟨s', p, hclose, hfinish⟩ := State.closes hmode
  obtain ⟨kinds, hread⟩ := hlead.trans hclose
  refine ⟨_, s', p, ?_, hread, hfinish⟩
  intro t ht
  obtain ⟨k, -, rfl⟩ := List.mem_map.mp ht
  exact readable_plainToken k

end Scribe.Script
