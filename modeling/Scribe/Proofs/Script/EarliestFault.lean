import Scribe.Proofs.Script.Completions
import Scribe.Proofs.Script.LineReading
import Scribe.Proofs.Script.Positions

/-!
# Faults are found as early as possible

The reader stops at the first token with which the tokens so far start no program any more. Which
tokens it takes depends on their terminals alone, so that is the first terminal that does not fit;
and whatever it has taken can be completed. The end of the input is reported where the tokens
start a program and are none.
-/
namespace Scribe.Script

/-! ## Tokens with the same terminals -/

/-- Two states in which the same terminals fit: they differ in texts, lines and trees only. -/
inductive Mode.Like : Mode → Mode → Prop
  | start : Like .start .start
  | blockStart : Like .blockStart .blockStart
  | next : Like .next .next
  | armEnd {c c'} : Like (.armEnd c) (.armEnd c')
  | chainEnd {c c' body body'} : Like (.chainEnd c body) (.chainEnd c' body')
  | modelColon {l l'} : Like (.modelColon l) (.modelColon l')
  | assignName {l l'} : Like (.assignName l) (.assignName l')
  | assignSign {l l' x x'} : Like (.assignSign l x) (.assignSign l' x')
  | askModel {l l' x x'} : Like (.askModel l x) (.askModel l' x')
  | askColon {l l' x x'} : Like (.askColon l x) (.askColon l' x')
  | askText {l l' x x'} : Like (.askText l x) (.askText l' x')
  | expandFrom {l l'} : Like (.expandFrom l) (.expandFrom l')
  | expandModel {l l'} : Like (.expandModel l) (.expandModel l')
  | expandColon {l l'} : Like (.expandColon l) (.expandColon l')
  | expandText {l l'} : Like (.expandText l) (.expandText l')
  | lineEnd {x x'} : Like (.lineEnd x) (.lineEnd x')
  | elseColon {c c'} : Like (.elseColon c) (.elseColon c')
  | headerEnd {c c' e e'} (he : e.isSome = e'.isSome) : Like (.headerEnd c e) (.headerEnd c' e')
  | block {c c' e e'} (he : e.isSome = e'.isSome) : Like (.block c e) (.block c' e')
  | operand {x x' outer outer' p p'} (hx : x.ending = x'.ending)
      (ho : outer.length = outer'.length) : Like (.operand x outer p) (.operand x' outer' p')
  | operator {x x' outer outer' p p' e e'} (hx : x.ending = x'.ending)
      (ho : outer.length = outer'.length) : Like (.operator x outer p e) (.operator x' outer' p' e')

structure State.Like (s s' : State) : Prop where
  frames : s.frames.map (·.condition.isSome) = s'.frames.map (·.condition.isSome)
  mode : s.mode.Like s'.mode

def terminals (ts : List Token) : List Terminal := ts.map (·.kind.terminal)

def Token.Like (t t' : Token) : Prop := t.kind.terminal = t'.kind.terminal

theorem Token.Is.of_like {t t' : Token} {x : Terminal} (h : t.Is x) (ht : t.Like t') : t'.Is x :=
  ht.symm.trans h

theorem Token.Like.kind {t t' : Token} {k : Kind} (h : t.Like t') (hk : t.kind = k)
    (hone : k.terminal.kind? = some k := by rfl) : t'.kind = k :=
  Kind.eq_of_terminal ((Token.is_of_kind hk).of_like h) hone

theorem Token.Like.operand? {t t' : Token} {e : Expr} (h : t.Like t')
    (he : operand? t = some e) : ∃ e', operand? t' = some e' := by
  unfold Script.operand? at he
  split at he <;> cases he <;> rename_i hk
  · exact ⟨_, Token.eval_of_kind (h.kind hk) rfl⟩
  · exact ⟨_, Token.eval_of_kind (h.kind hk) rfl⟩
  · exact ⟨_, Token.eval_of_kind (h.kind hk) rfl⟩
  · rename_i b
    exact ⟨_, Token.eval_of_kind (h.kind hk (by cases b <;> rfl)) rfl⟩
  · exact ⟨_, Token.eval_of_kind (h.kind hk) rfl⟩

/-- Where an operand must follow. -/
theorem State.Like.operand {s s' s₁ : State} {x : Purpose} {outer : List Pending} {p : Pending}
    {t t' : Token} (h : s.Like s') (hm : s.mode = .operand x outer p) (ht : t.Like t')
    (hs : stepOperand s x outer p t = .ok s₁) : ∃ s₁', s'.step t' = .ok s₁' ∧ s₁.Like s₁' := by
  obtain ⟨frames, done, mode⟩ := s
  obtain ⟨frames', done', mode'⟩ := s'
  cases hm
  obtain ⟨hf, hlike⟩ := h
  cases hlike with
  | operand hx ho =>
    unfold stepOperand at hs
    split at hs
    · rename_i hk
      cases hs
      exact ⟨_, Token.eval_of_kind (ht.kind hk) rfl, hf, .operand hx (by simp [ho])⟩
    · rename_i hk
      cases hs
      exact ⟨_, Token.eval_of_kind (ht.kind hk) rfl, hf, .operand hx ho⟩
    · split at hs
      · rename_i e he
        cases hs
        obtain ⟨e', he'⟩ := ht.operand? he
        exact ⟨_, (readsOperand_of_operand? he' ..).of_one, hf, .operator hx ho⟩
      · cases hs

def operators : List Terminal := [.plus, .minus, .mulOp, .compOp, .andWord, .orWord]

theorem stepOperator_operators {s : State} {x : Purpose} {outer : List Pending} {p : Pending}
    {e : Expr} {t : Token} (h : t.kind.terminal ∈ operators) :
    ∃ q, stepOperator s x outer p e t = .ok { s with mode := .operand x outer q } := by
  cases hk : t.kind with
  | keyword w =>
    rw [hk] at h
    cases w with
    | andWord | orWord => exact ⟨_, Token.eval_of_kind hk rfl⟩
    | _ => exact absurd h (by decide)
  | arith op => cases op <;> exact ⟨_, Token.eval_of_kind hk rfl⟩
  | compare op => exact ⟨_, Token.eval_of_kind hk rfl⟩
  | bool b =>
    rw [hk] at h
    cases b <;> exact absurd h (by decide)
  | _ =>
    rw [hk] at h
    exact absurd h (by decide)

/-- What one token can do after an operand. -/
theorem stepOperator_cases {s s₁ : State} {x : Purpose} {outer : List Pending} {p : Pending}
    {e : Expr} {t : Token} (hs : stepOperator s x outer p e t = .ok s₁) :
    t.kind.terminal ∈ operators ∨
    (t.Is .closeParen ∧ ∃ q rest q' e', outer = q :: rest ∧
      s₁ = { s with mode := .operator x rest q' e' }) ∨
    (t.Is .newline ∧ outer = [] ∧ ∃ stmt, x.statement? (p.close e) = some stmt ∧
      s₁ = { s with done := s.done ++ [stmt], mode := .next }) ∨
    (t.Is .colon ∧ outer = [] ∧ ∃ chain, x = .condition chain ∧
      s₁ = { s with mode := .headerEnd chain (some (p.close e)) }) := by
  unfold stepOperator at hs
  split at hs <;> rename_i hk
  · exact .inl (hk ▸ by decide)
  · exact .inl (hk ▸ by decide)
  · rename_i op _ _
    exact .inl (hk ▸ by cases op <;> decide)
  · rename_i op
    exact .inl (hk ▸ by cases op <;> decide)
  · exact .inl (hk ▸ by decide)
  · exact .inl (hk ▸ by decide)
  · split at hs
    · cases hs
    · cases hs
      exact .inr (.inl ⟨Token.is_of_kind hk, _, _, _, _, rfl, rfl⟩)
  · split at hs
    · rename_i hstmt
      cases hs
      exact .inr (.inr (.inl ⟨Token.is_of_kind hk, rfl, _, hstmt, rfl⟩))
    · cases hs
  · split at hs
    · cases hs
      exact .inr (.inr (.inr ⟨Token.is_of_kind hk, rfl, _, rfl, rfl⟩))
    · cases hs
  · cases hs

theorem Purpose.statement?_of_ending {x : Purpose} (h : x.ending = .newline) (e : Expr) :
    ∃ stmt, x.statement? e = some stmt := by
  cases x with
  | condition => cases h
  | _ => exact ⟨_, rfl⟩

theorem Purpose.ending_of_statement? {x : Purpose} {e : Expr} {stmt : Stmt}
    (h : x.statement? e = some stmt) : x.ending = .newline := by
  cases x with
  | condition => cases h
  | _ => rfl

/-- After an operand. -/
theorem State.Like.operator {s s' s₁ : State} {x : Purpose} {outer : List Pending} {p : Pending}
    {e : Expr} {t t' : Token} (h : s.Like s') (hm : s.mode = .operator x outer p e)
    (ht : t.Like t') (hs : stepOperator s x outer p e t = .ok s₁) :
    ∃ s₁', s'.step t' = .ok s₁' ∧ s₁.Like s₁' := by
  obtain ⟨frames, done, mode⟩ := s
  obtain ⟨frames', done', mode'⟩ := s'
  cases hm
  obtain ⟨hf, hlike⟩ := h
  cases hlike with
  | @operator _ x' _ outer' _ p' _ e' hx ho =>
    rcases stepOperator_cases hs with hop | ⟨hc, q, rest, q', e', rfl, rfl⟩ |
      ⟨hn, rfl, stmt, hstmt, rfl⟩ | ⟨hc, rfl, chain, rfl, rfl⟩
    · obtain ⟨q, hq⟩ := stepOperator_operators hop
      obtain ⟨q', hq'⟩ := stepOperator_operators (ht ▸ hop)
      cases hq.symm.trans hs
      exact ⟨_, hq', hf, .operand hx ho⟩
    · obtain ⟨r, rest', rfl⟩ := List.exists_cons_of_length_eq_add_one ho.symm
      exact ⟨_, (hc.of_like ht).eval rfl rfl, hf, .operator hx (by simpa using ho)⟩
    · rw [List.eq_nil_of_length_eq_zero ho.symm]
      obtain ⟨stmt', hstmt'⟩ := Purpose.statement?_of_ending
        (hx.symm.trans (Purpose.ending_of_statement? hstmt)) (p'.close e')
      exact ⟨_, (reads_lineEnd (hn.of_like ht) hstmt').of_one, hf, .next⟩
    · rw [List.eq_nil_of_length_eq_zero ho.symm]
      cases x' with
      | condition chain' => exact ⟨_, (hc.of_like ht).eval rfl rfl, hf, .headerEnd rfl⟩
      | _ => cases hx

theorem State.Like.settle {s s' : State} (h : s.Like s') : s.settle.Like s'.settle := by
  obtain ⟨frames, done, mode⟩ := s
  obtain ⟨frames', done', mode'⟩ := s'
  obtain ⟨hf, hm⟩ := h
  cases hm <;> exact ⟨hf, by constructor <;> assumption⟩

theorem State.Like.ready {s s' : State} (h : s.Like s') (hr : s.Ready) : s'.Ready := by
  obtain ⟨frames, done, mode⟩ := s
  obtain ⟨frames', done', mode'⟩ := s'
  cases h.mode <;> trivial

theorem Chain.closed_like {c c' : Chain} {e e' : Option Expr} {body body' : List Stmt}
    (he : e.isSome = e'.isSome) : (c.closed e body).Like (c'.closed e' body') := by
  cases e with
  | none =>
    cases e' with
    | none => exact .chainEnd
    | some _ => cases he
  | some _ =>
    cases e' with
    | none => cases he
    | some _ => exact .armEnd

/-- A block that can be closed can be closed in every state that is alike. -/
theorem State.Like.dedent {s s' s₁ : State} {t : Token} (h : s.Like s')
    (hend : s.settle.mode = .next) (ht : t.Is .dedent) (hs : s.closeBlock = some s₁) :
    ∃ s₁', s'.step t = .ok s₁' ∧ s₁.Like s₁' := by
  have hend' : s'.settle.mode = .next := by
    have hmode := h.settle.mode
    rw [hend] at hmode
    generalize s'.settle.mode = m at hmode
    cases hmode
    rfl
  obtain ⟨frames, done, mode⟩ := s
  obtain ⟨frames', done', mode'⟩ := s'
  have hframes := h.frames
  cases frames with
  | nil => cases hs
  | cons f frames =>
    cases frames' with
    | nil => cases hframes
    | cons f' frames' =>
      obtain ⟨hfirst, hrest⟩ := List.cons.inj hframes
      rw [State.closeBlock_cons] at hs
      cases hs
      exact ⟨_, State.step_dedent hend' ht, hrest, Chain.closed_like hfirst⟩

theorem State.Like.begin {s s' s₁ : State} {t t' : Token} (h : s.Like s') (ht : t.Like t')
    (hs : s.begin t = some s₁) : ∃ s₁', s'.begin t' = some s₁' ∧ s₁.Like s₁' := by
  have hsettle := h.settle
  unfold State.begin at hs
  simp only at hs
  split at hs <;> cases hs <;> rename_i hk
  · exact ⟨_, Token.eval_of_kind (ht.kind hk) rfl, hsettle.frames, .modelColon⟩
  · exact ⟨_, Token.eval_of_kind (ht.kind hk) rfl, hsettle.frames, .assignName⟩
  · exact ⟨_, Token.eval_of_kind (ht.kind hk) rfl, hsettle.frames, .operand rfl rfl⟩
  · exact ⟨_, Token.eval_of_kind (ht.kind hk) rfl, hsettle.frames, .expandFrom⟩
  · exact ⟨_, Token.eval_of_kind (ht.kind hk) rfl, hsettle.frames, .operand rfl rfl⟩

/-- Where a statement may start. -/
theorem State.Like.statement {s s' s₁ : State} {t t' : Token} (h : s.Like s') (hr : s.Ready)
    (ht : t.Like t') (hs : stepStatement s t = .ok s₁) :
    ∃ s₁', s'.step t' = .ok s₁' ∧ s₁.Like s₁' := by
  have hstep := (h.ready hr).step t'
  unfold stepStatement at hs
  split at hs
  · rename_i hb
    cases hs
    obtain ⟨s₁', hb', hlike⟩ := h.begin ht hb
    exact ⟨s₁', by rw [hstep, stepStatement, hb'], hlike⟩
  · obtain ⟨frames, done, mode⟩ := s
    obtain ⟨frames', done', mode'⟩ := s'
    have hf := h.frames
    have hm := h.mode
    split at hs
    · rename_i hmode hk
      cases hmode
      cases hs
      cases hm with
      | armEnd => exact ⟨_, Token.eval_of_kind (ht.kind hk) rfl, hf, .operand rfl rfl⟩
    · rename_i hmode hk
      cases hmode
      cases hs
      cases hm with
      | armEnd => exact ⟨_, Token.eval_of_kind (ht.kind hk) rfl, hf, .elseColon⟩
    · cases hs
    · cases hs
    · rename_i hk hstart hblock
      split at hs
      · rename_i hclose
        cases hs
        refine h.dedent ?_ ((Token.is_of_kind hk).of_like ht) hclose
        cases mode with
        | start => exact (hstart rfl).elim
        | blockStart => exact (hblock rfl).elim
        | next | armEnd | chainEnd => rfl
        | _ => exact hr.elim
      · cases hs
    · cases hs

theorem Mode.Goes.step {t : Token} {mode mode' : Mode} (h : Mode.Goes t mode mode')
    (frames : List Frame) (done : List Stmt) :
    State.step ⟨frames, done, mode⟩ t = .ok ⟨frames, done, mode'⟩ := by
  cases h <;> exact Token.Is.eval ‹_› rfl rfl

theorem Mode.Goes.like {t t' : Token} {mode mode₁ mode' : Mode} (h : Mode.Goes t mode mode₁)
    (ht : t.Like t') (hm : mode.Like mode') : ∃ mode₁', Mode.Goes t' mode' mode₁' ∧
      mode₁.Like mode₁' := by
  cases h with
  | modelColon h =>
    cases hm with
    | modelColon => exact ⟨_, .modelColon (h.of_like ht), .operand rfl rfl⟩
  | assignName h =>
    cases hm with
    | assignName => exact ⟨_, .assignName (h.of_like ht), .assignSign⟩
  | assignSign h =>
    cases hm with
    | assignSign => exact ⟨_, .assignSign (h.of_like ht), .operand rfl rfl⟩
  | askFrom h =>
    cases hm with
    | assignSign => exact ⟨_, .askFrom (h.of_like ht), .askModel⟩
  | askModel h =>
    cases hm with
    | askModel => exact ⟨_, .askModel (h.of_like ht), .askColon⟩
  | askColon h =>
    cases hm with
    | askColon => exact ⟨_, .askColon (h.of_like ht), .askText⟩
  | askText h =>
    cases hm with
    | askText => exact ⟨_, .askText (h.of_like ht), .lineEnd⟩
  | expandFrom h =>
    cases hm with
    | expandFrom => exact ⟨_, .expandFrom (h.of_like ht), .expandModel⟩
  | expandModel h =>
    cases hm with
    | expandModel => exact ⟨_, .expandModel (h.of_like ht), .expandColon⟩
  | expandColon h =>
    cases hm with
    | expandColon => exact ⟨_, .expandColon (h.of_like ht), .expandText⟩
  | expandText h =>
    cases hm with
    | expandText => exact ⟨_, .expandText (h.of_like ht), .lineEnd⟩
  | elseColon h =>
    cases hm with
    | elseColon => exact ⟨_, .elseColon (h.of_like ht), .headerEnd rfl⟩
  | headerEnd h =>
    cases hm with
    | headerEnd he => exact ⟨_, .headerEnd (h.of_like ht), .block he⟩

/-- Where one token fits, so does every token with its terminal. -/
theorem State.Like.step {s s' s₁ : State} {t t' : Token} (h : s.Like s') (ht : t.Like t')
    (hs : s.step t = .ok s₁) : ∃ s₁', s'.step t' = .ok s₁' ∧ s₁.Like s₁' := by
  obtain ⟨frames, done, mode⟩ := s
  obtain ⟨frames', done', mode'⟩ := s'
  have hf := h.frames
  have hm := h.mode
  rcases State.step_direct hs with ⟨x, outer, p, rfl⟩ | ⟨x, outer, p, e, rfl⟩ | hready |
    ⟨mode₁, hgoes, rfl⟩ | ⟨stmt, rfl, hn, rfl⟩ | ⟨chain, condition, rfl, hi, rfl⟩
  · exact h.operand rfl ht hs
  · exact h.operator rfl ht hs
  · rw [hready.step] at hs
    exact h.statement hready ht hs
  · obtain ⟨mode₁', hgoes', hlike⟩ := hgoes.like ht hm
    exact ⟨_, hgoes'.step frames' done', hf, hlike⟩
  · cases hm with
    | lineEnd => exact ⟨_, (hn.of_like ht).eval rfl rfl, hf, .next⟩
  · cases hm with
    | block he =>
      refine ⟨_, (hi.of_like ht).eval rfl rfl, ?_, .blockStart⟩
      simp only [List.map_cons, he]
      exact congrArg _ hf

theorem State.Like.refl (s : State) : s.Like s := by
  obtain ⟨frames, done, mode⟩ := s
  refine ⟨rfl, ?_⟩
  cases mode <;> constructor <;> rfl

/-- Which tokens are taken depends on their terminals alone. -/
theorem State.Like.reads {s s' s₁ : State} {ts ts' : List Token} (h : s.Like s')
    (ht : terminals ts = terminals ts') (hs : s.Reads ts s₁) :
    ∃ s₁', s'.Reads ts' s₁' ∧ s₁.Like s₁' := by
  induction ts generalizing s s' ts' with
  | nil =>
    cases List.map_eq_nil_iff.mp ht.symm
    cases hs
    exact ⟨s', .nil s', h⟩
  | cons t ts ih =>
    cases ts' with
    | nil => cases ht
    | cons t' ts' =>
      obtain ⟨hfirst, hrest⟩ := List.cons.inj ht
      obtain ⟨s₂, hstep, hread⟩ := hs.of_cons
      obtain ⟨s₂', hstep', hlike⟩ := h.step hfirst hstep
      obtain ⟨s₁', hread', hlike'⟩ := ih hlike hrest hread
      exact ⟨s₁', .cons hstep' hread', hlike'⟩

theorem State.Like.finish {s s' : State} {p : Program} (h : s.Like s')
    (hs : s.finish = .ok p) : ∃ p', s'.finish = .ok p' := by
  have hlike := h.settle
  simp only [State.finish] at hs ⊢
  generalize s.settle = x at hs hlike
  generalize s'.settle = y at hlike
  obtain ⟨frames, done, mode⟩ := x
  obtain ⟨frames', done', mode'⟩ := y
  obtain ⟨hf, hm⟩ := hlike
  cases frames with
  | nil =>
    cases List.map_eq_nil_iff.mp hf.symm
    cases hm with
    | start | next => exact ⟨_, rfl⟩
    | _ => cases hs
  | cons f frames => cases hm <;> cases hs

/-! ## Where the reader stops -/

def Grammatical (xs : List Terminal) : Prop :=
  ∃ p ts, Derives (.program p) ts ∧ terminals ts = xs

/-- The first terminals of some program. -/
def Viable (xs : List Terminal) : Prop := ∃ ys, Grammatical (xs ++ ys)

theorem State.Reads.viable {s : State} {ts : List Token} (h : State.initial.Reads ts s)
    (hr : ∀ t ∈ ts, t.Readable) : Viable (terminals ts) := by
  obtain ⟨us, s', p, hread, hrun, hfinish⟩ := s.completes
  have hall : State.initial.Reads (ts ++ us) s' := h.append hrun
  have hderives : Derives (.program p) (ts ++ us) := by
    refine (State.covers_initial.run ?_ hall).finish hfinish
    intro t ht
    rcases List.mem_append.mp ht with ht | ht
    · exact hr t ht
    · exact hread t ht
  exact ⟨terminals us, p, ts ++ us, hderives, List.map_append⟩

/-- Terminals that start a program are taken. -/
theorem Viable.reads {ts : List Token} (h : Viable (terminals ts)) :
    ∃ s, State.initial.Reads ts s := by
  obtain ⟨ys, p, us, hderives, hus⟩ := h
  obtain ⟨us₁, us₂, rfl, hfirst, -⟩ := List.map_eq_append_iff.mp hus
  obtain ⟨s, hread, -⟩ := hderives.reads State.initial trivial
  obtain ⟨s₁, hread₁, -⟩ := hread.of_append
  obtain ⟨s₁', hread', -⟩ := (State.Like.refl State.initial).reads hfirst hread₁
  exact ⟨s₁', hread'⟩

/-- Tokens with the terminals of a program are a program. -/
theorem Grammatical.parseTokens {ts : List Token} (h : Grammatical (terminals ts)) :
    ∃ p, parseTokens ts = .ok p := by
  obtain ⟨p, us, hderives, hus⟩ := h
  have hparse := hderives.parseTokens
  obtain ⟨s, hread, hfinish⟩ := Outcome.bind_eq_ok.mp hparse
  obtain ⟨s', hread', hlike⟩ := (State.Like.refl State.initial).reads hus hread
  obtain ⟨p', hfinish'⟩ := hlike.finish hfinish
  exact ⟨p', Outcome.bind_eq_ok.mpr ⟨s', hread', hfinish'⟩⟩

/-- Reading stops at the first token for which there is no step. -/
theorem stop_of_foldlM {s : State} {ts : List Token} {f : Failure}
    (h : ts.foldlM State.step s = .error f) :
    ∃ k t s', ts[k]? = some t ∧ s.Reads (ts.take k) s' ∧ s'.step t = .error f := by
  induction ts generalizing s with
  | nil => cases h
  | cons t ts ih =>
    rw [List.foldlM_cons] at h
    cases hstep : s.step t with
    | error f' =>
      rw [hstep] at h
      cases h
      exact ⟨0, t, s, rfl, .nil s, hstep⟩
    | ok s₁ =>
      rw [hstep] at h
      obtain ⟨k, u, s', hu, hread, hstop⟩ := ih h
      exact ⟨k + 1, u, s', hu, .cons hstep hread, hstop⟩

theorem State.finish_found {s : State} {f : Failure} (h : s.finish = .error f) :
    f.found = none := by
  simp only [State.finish] at h
  split at h <;> cases h
  rfl

/-- The token that does not fit is the first with which the tokens start no program. -/
theorem State.Reads.stop {s : State} {ts : List Token} {t : Token} {k : Nat} {f : Failure}
    (h : State.initial.Reads (ts.take k) s) (ht : ts[k]? = some t) (hs : s.step t = .error f) :
    ¬Viable (terminals (ts.take (k + 1))) := by
  intro hviable
  obtain ⟨s', hread⟩ := hviable.reads
  rw [List.take_add_one, ht] at hread
  obtain ⟨s₁, hread₁, hlast⟩ := hread.of_append
  cases hread₁.symm.trans h
  cases hs.symm.trans hlast.of_one

theorem parse_fails_earliest {source : List Char} {tokens : List Token} {fault : Fault}
    (h : tokenize source = .ok tokens) (hfail : parse source = .error fault) :
    (∃ k t expected, tokens[k]? = some t ∧ Viable (terminals (tokens.take k)) ∧
      ¬Viable (terminals (tokens.take (k + 1))) ∧
      fault = ⟨.unexpected expected t.describe, some t.line⟩) ∨
    (∃ expected, Viable (terminals tokens) ∧ ¬Grammatical (terminals tokens) ∧
      fault = ⟨.unexpected expected Terminal.endOfInput.describe, some 1⟩) := by
  have hreadable := readable_of_tokenize h
  rw [parse_of_tokenize h] at hfail
  cases hparse : parseTokens tokens with
  | ok p =>
    rw [hparse] at hfail
    cases hfail
  | error f =>
    rw [hparse] at hfail
    cases hfail
    cases hread : tokens.foldlM State.step State.initial with
    | error f' =>
      rw [parseTokens, hread] at hparse
      cases hparse
      obtain ⟨k, t, s, ht, hrun, hstop⟩ := stop_of_foldlM hread
      have hviable := hrun.viable fun u hu => hreadable u (List.mem_of_mem_take hu)
      refine .inl ⟨k, t, f.expected.map Terminal.describe, ht, hviable, hrun.stop ht hstop, ?_⟩
      simp only [Failure.fault, State.step_found hstop]
    | ok s =>
      have hnone : ¬Grammatical (terminals tokens) := by
        intro hg
        obtain ⟨p, hp⟩ := hg.parseTokens
        cases hp.symm.trans hparse
      rw [parseTokens, hread] at hparse
      refine .inr ⟨f.expected.map Terminal.describe, State.Reads.viable hread hreadable, hnone, ?_⟩
      simp only [Failure.fault, State.finish_found hparse]

/-- A script that breaks off behind a header on its second line, reported on the first. -/
theorem parse_fails_earliest_header :
    Viable [.neuro, .name, .newline, .ifWord, .name, .colon, .newline] ∧
    ¬Grammatical [.neuro, .name, .newline, .ifWord, .name, .colon, .newline] ∧
    parse "neuro x\nif x:".toList =
      .error ⟨.unexpected ["indented block"] "end of input", some 1⟩ := by
  obtain ⟨tokens, htokens, hterminals, hnamed⟩ :
      ∃ tokens, tokenize "neuro x\nif x:".toList = .ok tokens ∧
        terminals tokens = [.neuro, .name, .newline, .ifWord, .name, .colon, .newline] ∧
        ∀ t ∈ tokens, t.describe ≠ "end of input" :=
    ⟨[⟨.keyword .neuro, "neuro", 1, 1⟩, ⟨.identifier, "x", 1, 7⟩, ⟨.newline, "", 1, 8⟩,
      ⟨.keyword .ifWord, "if", 2, 1⟩, ⟨.identifier, "x", 2, 4⟩, ⟨.colon, ":", 2, 5⟩,
      ⟨.newline, "", 2, 6⟩], rfl, rfl, by decide⟩
  have hparse : parse "neuro x\nif x:".toList =
      .error ⟨.unexpected ["indented block"] "end of input", some 1⟩ := rfl
  rw [← hterminals]
  rcases parse_fails_earliest htokens hparse with ⟨k, t, expected, ht, -, -, hfault⟩ |
    ⟨expected, hviable, hnone, -⟩
  · injection hfault with hcomplaint
    injection hcomplaint with _ hfound
    exact absurd hfound.symm (hnamed t (List.mem_of_getElem? ht))
  · exact ⟨hviable, hnone, hparse⟩

end Scribe.Script
