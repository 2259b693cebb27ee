import Scribe.Proofs.Script.ExpressionReading

/-!
# Reading statements that the grammar derives

Where a statement may start, the reader takes every token of the statements, blocks and arms that
the grammar derives, and files their trees. So it accepts every program of the grammar.
-/
namespace Scribe.Script

def State.Ready (s : State) : Prop :=
  match s.mode with
  | .start | .blockStart | .next | .armEnd _ | .chainEnd .. => True
  | _ => False

theorem State.settle_frames (s : State) : s.settle.frames = s.frames := by
  unfold settle
  split <;> rfl

theorem State.Ready.step {s : State} (h : s.Ready) (t : Token) : s.step t = stepStatement s t := by
  obtain ⟨frames, done, mode⟩ := s
  cases mode <;> first | rfl | exact h.elim

/-- A token that starts a statement does so in every state where one may start. -/
theorem State.Ready.reads {s s' s'' : State} (h : s.Ready) {t : Token} {ts : List Token}
    (hb : s.begin t = some s') (hs : s'.Reads ts s'') : s.Reads (t :: ts) s'' := by
  refine State.Reads.cons ?_ hs
  rw [h.step, stepStatement, hb]

structure State.Files (s : State) (body : List Stmt) (s' : State) : Prop where
  frames : s'.frames = s.frames
  done : s'.settle.done = s.settle.done ++ body
  ready : s'.Ready
  ended : s'.settle.mode = .next ∨ body = [] ∧ s' = s

def ReadsSimple (stmt : Stmt) (ts : List Token) : Prop :=
  ∀ (s : State) (n : Token), s.Ready → n.Is .newline →
    s.Reads (ts ++ [n]) ⟨s.frames, s.settle.done ++ [stmt], .next⟩

def ReadsBody (body : List Stmt) (ts : List Token) : Prop :=
  ∀ s : State, s.Ready → ∃ s', s.Reads ts s' ∧ s.Files body s'

def Chain.closed (chain : Chain) (condition : Option Expr) (body : List Stmt) : Mode :=
  match condition with
  | some condition => .armEnd ⟨chain.line, chain.arms ++ [(condition, body)]⟩
  | none => .chainEnd chain body

def ReadsBlock (body : List Stmt) (ts : List Token) : Prop :=
  ∀ (frames : List Frame) (done : List Stmt) (chain : Chain) (condition : Option Expr),
    State.Reads ⟨frames, done, .block chain condition⟩ ts
      ⟨frames, done, chain.closed condition body⟩

def ReadsElifs (arms : List (Expr × List Stmt)) (ts : List Token) : Prop :=
  ∀ (frames : List Frame) (done : List Stmt) (chain : Chain),
    State.Reads ⟨frames, done, .armEnd chain⟩ ts
      ⟨frames, done, .armEnd ⟨chain.line, chain.arms ++ arms⟩⟩

def ReadsOtherwise (last : Option (List Stmt)) (ts : List Token) : Prop :=
  ∀ (frames : List Frame) (done : List Stmt) (chain : Chain), ∃ s',
    State.Reads ⟨frames, done, .armEnd chain⟩ ts s' ∧ s'.Ready ∧
      s'.settle = ⟨frames, done ++ [.choose chain.line chain.arms last], .next⟩ ∧
      s'.frames = frames

/-- Reading an expression to its end, whatever it is read for. -/
theorem ReadsLevel.reads {e : Expr} {ts us : List Token} {frames : List Frame} {done : List Stmt}
    {purpose : Purpose} {s' : State} (h : ReadsLevel .orTest e ts)
    (hs : ∀ q x, q.close x = e →
      State.Reads ⟨frames, done, .operator purpose [] q x⟩ us s') :
    State.Reads ⟨frames, done, .operand purpose [] {}⟩ (ts ++ us) s' := by
  obtain ⟨q, x, hread, -, hclose, -⟩ := h frames done purpose [] {}
  exact hread.append (hs q x hclose)

/-- The line end after an expression files the statement it was read for. -/
theorem reads_lineEnd {frames : List Frame} {done : List Stmt} {purpose : Purpose} {q : Pending}
    {x : Expr} {n : Token} {stmt : Stmt} (hn : n.Is .newline)
    (h : purpose.statement? (q.close x) = some stmt) :
    State.Reads ⟨frames, done, .operator purpose [] q x⟩ [n]
      ⟨frames, done ++ [stmt], .next⟩ := by
  apply State.Reads.one
  simp only [State.step, stepOperator, hn.kind, h]

theorem readsSimple_select {t c : Token} {e : Expr} {ts : List Token} (ht : t.Is .ai)
    (hc : c.Is .colon) (h : ReadsLevel .orTest e ts) :
    ReadsSimple (.select t.line e) (t :: c :: ts) := by
  intro s n hs hn
  refine hs.reads (ht.eval rfl rfl) ?_
  rw [State.settle_frames]
  refine State.Reads.cons (hc.eval rfl rfl) ?_
  exact h.reads fun q x hx => reads_lineEnd hn (by rw [hx]; rfl)

theorem readsSimple_assign {t n a : Token} {e : Expr} {ts : List Token} (ht : t.Is .set)
    (hn : n.Is .name) (ha : a.Is .assign) (h : ReadsLevel .orTest e ts) :
    ReadsSimple (.assign t.line n.lexeme e) (t :: n :: a :: ts) := by
  intro s m hs hm
  refine hs.reads (ht.eval rfl rfl) ?_
  rw [State.settle_frames]
  refine State.Reads.cons (hn.eval rfl rfl) ?_
  refine State.Reads.cons (ha.eval rfl rfl) ?_
  exact h.reads fun q x hx => reads_lineEnd hm (by rw [hx]; rfl)

theorem readsSimple_print {t : Token} {e : Expr} {ts : List Token} (ht : t.Is .neuro)
    (h : ReadsLevel .orTest e ts) : ReadsSimple (.print t.line e) (t :: ts) := by
  intro s n hs hn
  refine hs.reads (ht.eval rfl rfl) ?_
  rw [State.settle_frames]
  exact h.reads fun q x hx => reads_lineEnd hn (by rw [hx]; rfl)

theorem readsSimple_ask {t n f m c r : Token} (ht : t.Is .set) (hn : n.Is .name)
    (hf : f.Is .fromWord) (hm : m.Is .ai) (hc : c.Is .colon) (hr : r.Is .raw) :
    ReadsSimple (.ask t.line n.lexeme (String.ofList (unwrapPrompt r.lexeme.toList)))
      [t, n, f, m, c, r] := by
  intro s e hs he
  refine hs.reads (ht.eval rfl rfl) ?_
  rw [State.settle_frames]
  refine State.Reads.cons (hn.eval rfl rfl) ?_
  refine State.Reads.cons (hf.eval rfl rfl) ?_
  refine State.Reads.cons (hm.eval rfl rfl) ?_
  refine State.Reads.cons (hc.eval rfl rfl) ?_
  refine State.Reads.cons (hr.eval rfl rfl) ?_
  exact State.Reads.one (he.eval rfl rfl)

theorem readsSimple_expand {t f m c r : Token} (ht : t.Is .macroWord) (hf : f.Is .fromWord)
    (hm : m.Is .ai) (hc : c.Is .colon) (hr : r.Is .raw) :
    ReadsSimple (.expand t.line r.lexeme) [t, f, m, c, r] := by
  intro s e hs he
  refine hs.reads (ht.eval rfl rfl) ?_
  rw [State.settle_frames]
  refine State.Reads.cons (hf.eval rfl rfl) ?_
  refine State.Reads.cons (hm.eval rfl rfl) ?_
  refine State.Reads.cons (hc.eval rfl rfl) ?_
  refine State.Reads.cons (hr.eval rfl rfl) ?_
  exact State.Reads.one (he.eval rfl rfl)

theorem readsBody_nil : ReadsBody [] [] := by
  intro s hs
  exact ⟨s, State.Reads.nil s, rfl, by simp, hs, .inr ⟨rfl, rfl⟩⟩

theorem readsBody_cons {stmt : Stmt} {body : List Stmt} {ts us : List Token}
    (h : ReadsBody [stmt] ts) (tail : ReadsBody body us) :
    ReadsBody (stmt :: body) (ts ++ us) := by
  intro s hs
  obtain ⟨s', hread, hfiles⟩ := h s hs
  obtain ⟨s'', hread', hfiles'⟩ := tail s' hfiles.ready
  refine ⟨s'', hread.append hread', hfiles'.frames.trans hfiles.frames, ?_, hfiles'.ready, ?_⟩
  · rw [hfiles'.done, hfiles.done, List.append_assoc, List.singleton_append]
  · rcases hfiles'.ended with hend | ⟨-, rfl⟩
    · exact .inl hend
    · exact .inl (hfiles.ended.resolve_right (by simp))

theorem readsBody_simple {stmt : Stmt} {ts : List Token} {n : Token} (h : ReadsSimple stmt ts)
    (hn : n.Is .newline) : ReadsBody [stmt] (ts ++ [n]) := by
  intro s hs
  exact ⟨_, h s n hs hn, rfl, rfl, trivial, .inl rfl⟩

/-- The end of a header after its condition. -/
theorem reads_header {frames : List Frame} {done : List Stmt} {chain : Chain} {condition : Expr}
    {c n : Token} {ts us : List Token} {s' : State} (h : ReadsLevel .orTest condition ts)
    (hc : c.Is .colon) (hn : n.Is .newline)
    (hs : State.Reads ⟨frames, done, .block chain (some condition)⟩ us s') :
    State.Reads ⟨frames, done, .operand (.condition chain) [] {}⟩ (ts ++ c :: n :: us) s' := by
  refine h.reads fun q x hx => ?_
  subst hx
  refine State.Reads.cons (hc.eval rfl rfl) ?_
  exact State.Reads.cons (hn.eval rfl rfl) hs

theorem State.closeBlock_cons (f : Frame) (frames : List Frame) (done : List Stmt) (mode : Mode) :
    State.closeBlock ⟨f :: frames, done, mode⟩ =
      some ⟨frames, f.before,
        f.chain.closed f.condition (State.settle ⟨f :: frames, done, mode⟩).done⟩ := by
  obtain ⟨before, chain, condition⟩ := f
  cases condition <;> rfl

theorem State.step_dedent {f : Frame} {frames : List Frame} {done : List Stmt} {mode : Mode}
    {d : Token} (hend : (State.settle ⟨f :: frames, done, mode⟩).mode = .next)
    (hd : d.Is .dedent) :
    State.step ⟨f :: frames, done, mode⟩ d =
      .ok ⟨frames, f.before,
        f.chain.closed f.condition (State.settle ⟨f :: frames, done, mode⟩).done⟩ := by
  have hclose := State.closeBlock_cons f frames done mode
  cases mode with
  | next | armEnd | chainEnd =>
    simp only [State.step, stepStatement, State.begin, hd.kind, hclose]
  | _ => exact absurd hend (by simp [State.settle])

theorem readsBlock {i d : Token} {body : List Stmt} {ts : List Token} (hi : i.Is .indent)
    (h : ReadsBody body ts) (more : body ≠ []) (hd : d.Is .dedent) :
    ReadsBlock body (i :: ts ++ [d]) := by
  intro frames done chain condition
  obtain ⟨⟨frames', done', mode'⟩, hread, hframes, hdone, -, hend⟩ :=
    h ⟨⟨done, chain, condition⟩ :: frames, [], .blockStart⟩ trivial
  cases hframes
  refine (State.Reads.cons (hi.eval rfl rfl) hread).append (State.Reads.one ?_)
  have hmode := hend.resolve_right (fun hb => more hb.1)
  rw [State.step_dedent hmode hd, hdone]
  rfl

theorem readsElifs_nil : ReadsElifs [] [] := by
  intro frames done chain
  rw [List.append_nil]
  exact State.Reads.nil _

theorem readsElifs_cons {t c n : Token} {condition : Expr} {body : List Stmt}
    {arms : List (Expr × List Stmt)} {ts us vs : List Token} (ht : t.Is .elifWord)
    (hcond : ReadsLevel .orTest condition ts) (hc : c.Is .colon) (hn : n.Is .newline)
    (hbody : ReadsBlock body us) (harms : ReadsElifs arms vs) :
    ReadsElifs ((condition, body) :: arms) (t :: ts ++ c :: n :: us ++ vs) := by
  intro frames done chain
  have harm := harms frames done ⟨chain.line, chain.arms ++ [(condition, body)]⟩
  have hblock := (hbody frames done chain (some condition)).append harm
  have hheader := reads_header hcond hc hn hblock
  rw [List.append_assoc, List.singleton_append] at hheader
  have hstep : State.step ⟨frames, done, .armEnd chain⟩ t =
      .ok ⟨frames, done, .operand (.condition chain) [] {}⟩ := ht.eval rfl rfl
  simpa using State.Reads.cons hstep hheader

theorem readsOtherwise_none : ReadsOtherwise none [] := by
  intro frames done chain
  exact ⟨_, State.Reads.nil _, trivial, rfl, rfl⟩

theorem readsOtherwise_some {t c n : Token} {body : List Stmt} {ts : List Token}
    (ht : t.Is .elseWord) (hc : c.Is .colon) (hn : n.Is .newline) (hbody : ReadsBlock body ts) :
    ReadsOtherwise (some body) (t :: c :: n :: ts) := by
  intro frames done chain
  refine ⟨⟨frames, done, .chainEnd chain body⟩, ?_, trivial, rfl, rfl⟩
  refine State.Reads.cons (ht.eval rfl rfl) ?_
  refine State.Reads.cons (hc.eval rfl rfl) ?_
  refine State.Reads.cons (hn.eval rfl rfl) ?_
  exact hbody frames done chain none

theorem readsBody_choose {t c n : Token} {condition : Expr} {body : List Stmt}
    {arms : List (Expr × List Stmt)} {last : Option (List Stmt)} {ts us vs ws : List Token}
    (ht : t.Is .ifWord) (hcond : ReadsLevel .orTest condition ts) (hc : c.Is .colon)
    (hn : n.Is .newline) (hbody : ReadsBlock body us) (harms : ReadsElifs arms vs)
    (hlast : ReadsOtherwise last ws) :
    ReadsBody [.choose t.line ((condition, body) :: arms) last]
      (t :: ts ++ c :: n :: us ++ vs ++ ws) := by
  intro s hs
  have harm := harms s.frames s.settle.done ⟨t.line, [(condition, body)]⟩
  obtain ⟨s', hend, hready, hsettle, hframes⟩ :=
    hlast s.frames s.settle.done ⟨t.line, (condition, body) :: arms⟩
  have hblock := (hbody s.frames s.settle.done ⟨t.line, []⟩ (some condition)).append
    (harm.append hend)
  have hheader := reads_header hcond hc hn hblock
  refine ⟨s', ?_, hframes, by rw [hsettle], hready, .inl (by rw [hsettle])⟩
  have hbegin : s.begin t =
      some ⟨s.frames, s.settle.done, .operand (.condition ⟨t.line, []⟩) [] {}⟩ := by
    rw [← State.settle_frames s]
    exact ht.eval rfl rfl
  have hstart := hs.reads hbegin hheader
  simpa using hstart

def Phrase.Reads : Phrase → List Token → Prop
  | .expr .unary e, ts | .expr .atom e, ts => ReadsOperand e ts
  | .expr level e, ts => ReadsLevel level e ts
  | .orTail es, ts => ReadsTail .orTest ts (JoinsAny es)
  | .andTail es, ts => ReadsTail .andTest ts (JoinsAll es)
  | .compareTail rest, ts => ReadsTail .comparison ts (ComparesWith rest)
  | .simple s, ts => ReadsSimple s ts
  | .stmt s, ts => ReadsBody [s] ts
  | .stmts body, ts => ReadsBody body ts
  | .block body, ts => ReadsBlock body ts
  | .elifs arms, ts => ReadsElifs arms ts
  | .otherwise last, ts => ReadsOtherwise last ts
  | .program p, ts => ReadsBody p ts

/-- The reader follows every derivation of the grammar. -/
theorem Derives.reads {φ : Phrase} {ts : List Token} (h : Derives φ ts) : φ.Reads ts := by
  induction h with
  | orOne _ ih => exact readsOr_one ih
  | orMore _ _ more ih tail => exact readsOr_more ih tail more
  | orNil => exact readsTail_orNil
  | orCons ht _ _ ih tail => exact readsTail_orCons ht ih tail
  | andOne _ ih => exact readsAnd_one ih
  | andMore _ _ more ih tail => exact readsAnd_more ih tail more
  | andNil => exact readsTail_andNil
  | andCons ht _ _ ih tail => exact readsTail_andCons ht ih tail
  | compareOne _ ih => exact readsComparison_one ih
  | compareMore _ _ more ih tail => exact readsComparison_more ih tail more
  | compareNil => exact readsTail_compareNil
  | compareCons _ hop _ _ ih tail => exact readsTail_compareCons hop ih tail
  | sumOne _ ih => exact readsSum_one ih
  | sumMore _ ht hop _ left right => exact readsSum_more left ht hop right
  | productOne _ ih => exact readsProduct_one ih
  | productMore _ ht hop _ left right => exact readsProduct_more left ht hop right
  | neg ht _ ih => exact readsOperand_neg ht ih
  | unaryAtom _ ih => exact ih
  | number ht hx => exact readsOperand_of_operand? (by simp only [operand?, ht.kind, hx]; rfl)
  | string ht => exact readsOperand_of_operand? (ht.eval rfl rfl)
  | var ht => exact readsOperand_of_operand? (ht.eval rfl rfl)
  | trueLit ht => exact readsOperand_of_operand? (ht.eval rfl rfl)
  | falseLit ht => exact readsOperand_of_operand? (ht.eval rfl rfl)
  | nullLit ht => exact readsOperand_of_operand? (ht.eval rfl rfl)
  | paren hl _ hr ih => exact readsOperand_paren hl ih hr
  | selectModel ht hc _ ih => exact readsSimple_select ht hc ih
  | assign ht hn ha _ ih => exact readsSimple_assign ht hn ha ih
  | assignAi ht hn hf hm hc hr => exact readsSimple_ask ht hn hf hm hc hr
  | print ht _ ih => exact readsSimple_print ht ih
  | expand ht hf hm hc hr => exact readsSimple_expand ht hf hm hc hr
  | simpleLine _ hn ih => exact readsBody_simple ih hn
  | choose ht _ hc hn _ _ _ hcond hbody harms hlast =>
    exact readsBody_choose ht hcond hc hn hbody harms hlast
  | elifNil => exact readsElifs_nil
  | elifCons ht _ hc hn _ _ hcond hbody harms => exact readsElifs_cons ht hcond hc hn hbody harms
  | elseNone => exact readsOtherwise_none
  | elseSome ht hc hn _ hbody => exact readsOtherwise_some ht hc hn hbody
  | block hi _ more hd ih => exact readsBlock hi ih more hd
  | stmtsNil => exact readsBody_nil
  | stmtsCons _ _ ih tail => exact readsBody_cons ih tail
  | start _ ih => exact ih

/-- Every program of the grammar is accepted, with its tree. -/
theorem Derives.parseTokens {p : Program} {ts : List Token} (h : Derives (.program p) ts) :
    parseTokens ts = .ok p := by
  obtain ⟨s, hread, hframes, hdone, -, hend⟩ := h.reads State.initial trivial
  unfold Script.parseTokens
  rw [show ts.foldlM State.step State.initial = .ok s from hread]
  change s.finish = .ok p
  have hsettled : s.settle.frames = [] := (State.settle_frames s).trans hframes
  have hsettledDone : s.settle.done = p := hdone
  rcases hend with hend | ⟨-, rfl⟩
  · simp only [State.finish, hend, hsettled, hsettledDone]
  · simp only [State.finish, State.initial, State.settle]
    exact congrArg Except.ok hsettledDone

end Scribe.Script
