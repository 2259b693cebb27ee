import Scribe.Proofs.Script.Grammar

/-!
# Reading expressions that the grammar derives

Where an operand must follow, the reader takes every token of an expression that the grammar
derives, and the state it reaches stands for the tree of that expression: `Pending.upTo` says which
tree the operators that still wait make with the last operand. What waited below the level of the
expression is unchanged.
-/
namespace Scribe.Script

def Terminal.kind? : Terminal → Option Kind
  | .ai => some (.keyword .ai)
  | .set => some (.keyword .set)
  | .fromWord => some (.keyword .fromWord)
  | .neuro => some (.keyword .neuro)
  | .macroWord => some (.keyword .macroWord)
  | .ifWord => some (.keyword .ifWord)
  | .elifWord => some (.keyword .elifWord)
  | .elseWord => some (.keyword .elseWord)
  | .andWord => some (.keyword .andWord)
  | .orWord => some (.keyword .orWord)
  | .trueWord => some (.bool true)
  | .falseWord => some (.bool false)
  | .null => some .null
  | .name => some .identifier
  | .string => some .string
  | .number => some .number
  | .raw => some .raw
  | .plus => some (.arith .add)
  | .minus => some (.arith .sub)
  | .assign => some .assign
  | .openParen => some .openParen
  | .closeParen => some .closeParen
  | .colon => some .colon
  | .newline => some .newline
  | .indent => some .indent
  | .dedent => some .dedent
  | .mulOp | .compOp | .endOfInput => none

theorem Kind.eq_of_terminal {k k' : Kind} {x : Terminal} (h : k.terminal = x)
    (hk : x.kind? = some k') : k = k' := by
  subst h
  cases k with
  | keyword w => cases w <;> exact Option.some.inj hk
  | bool b => cases b <;> exact Option.some.inj hk
  | arith op => cases op <;> first | exact Option.some.inj hk | cases hk
  | compare op => cases hk
  | _ => exact Option.some.inj hk

theorem Token.Is.kind {t : Token} {x : Terminal} (h : t.Is x) {k : Kind}
    (hk : x.kind? = some k := by rfl) : t.kind = k :=
  Kind.eq_of_terminal h hk

/-- What is computed from a token may be computed at the kind that it is known to have. -/
theorem Token.eval_of_kind {α : Type} {f : Token → α} {a : α} {t : Token} {k : Kind}
    (h : t.kind = k) (hf : f { t with kind := k } = a) : f t = a := by
  subst h
  exact hf

theorem Token.Is.eval {α : Type} {f : Token → α} {a : α} {t : Token} {x : Terminal} {k : Kind}
    (h : t.Is x) (hk : x.kind? = some k) (hf : f { t with kind := k } = a) : f t = a :=
  Token.eval_of_kind (h.kind hk) hf

def State.Reads (s : State) (ts : List Token) (s' : State) : Prop :=
  ts.foldlM State.step s = .ok s'

namespace State.Reads

theorem nil (s : State) : s.Reads [] s := rfl

theorem cons {s s' s'' : State} {t : Token} {ts : List Token} (h : s.step t = .ok s')
    (hs : s'.Reads ts s'') : s.Reads (t :: ts) s'' := by
  unfold State.Reads
  rw [List.foldlM_cons, h]
  exact hs

theorem one {s s' : State} {t : Token} (h : s.step t = .ok s') : s.Reads [t] s' :=
  cons h (nil s')

theorem append {s s' s'' : State} {ts us : List Token} (h : s.Reads ts s')
    (hs : s'.Reads us s'') : s.Reads (ts ++ us) s'' := by
  unfold State.Reads at *
  rw [List.foldlM_append, h]
  exact hs

end State.Reads

namespace Pending

theorem negate_neg (n : Nat) (e : Expr) : negate n (.neg e) = negate (n + 1) e := by
  induction n with
  | zero => rfl
  | succ n ih => exact congrArg Expr.neg ih

def below (p : Pending) : Level → Pending
  | .orTest => {}
  | .andTest => { ors := p.ors }
  | .comparison => { ors := p.ors, ands := p.ands }
  | .sum => { ors := p.ors, ands := p.ands, chain := p.chain }
  | .product => { ors := p.ors, ands := p.ands, chain := p.chain, sum := p.sum }
  | .unary | .atom => { p with minus := 0 }

def upTo (p : Pending) : Level → Expr → Expr
  | .orTest => p.close
  | .andTest => p.andWith
  | .comparison => p.comparisonWith
  | .sum => p.sumWith
  | .product => p.productWith
  | .unary | .atom => id

def orOperands (p : Pending) (e : Expr) : List Expr := p.ors ++ [p.andWith e]

def andOperands (p : Pending) (e : Expr) : List Expr := p.ands ++ [p.comparisonWith e]

def compareParts (p : Pending) (e : Expr) : Expr × List (Comparison × Expr) :=
  match p.chain with
  | none => (p.sumWith e, [])
  | some (first, rest, op) => (first, rest ++ [(op, p.sumWith e)])

theorem close_of_orOperands {p : Pending} {e x : Expr} {xs : List Expr}
    (h : p.orOperands e = x :: xs) : p.close e = if xs.isEmpty then x else .any (x :: xs) := by
  unfold orOperands at h
  unfold close
  cases hp : p.ors with
  | nil =>
    rw [hp] at h
    obtain ⟨rfl, rfl⟩ := List.cons.inj h
    rfl
  | cons y ys =>
    rw [hp] at h
    obtain ⟨rfl, rfl⟩ := List.cons.inj h
    simp

theorem andWith_of_andOperands {p : Pending} {e x : Expr} {xs : List Expr}
    (h : p.andOperands e = x :: xs) : p.andWith e = if xs.isEmpty then x else .all (x :: xs) := by
  unfold andOperands at h
  unfold andWith
  cases hp : p.ands with
  | nil =>
    rw [hp] at h
    obtain ⟨rfl, rfl⟩ := List.cons.inj h
    rfl
  | cons y ys =>
    rw [hp] at h
    obtain ⟨rfl, rfl⟩ := List.cons.inj h
    simp

theorem comparisonWith_of_compareParts {p : Pending} {e x : Expr} {rest : List (Comparison × Expr)}
    (h : p.compareParts e = (x, rest)) :
    p.comparisonWith e = if rest.isEmpty then x else .compare x rest := by
  unfold compareParts at h
  unfold comparisonWith
  cases hp : p.chain with
  | none =>
    rw [hp] at h
    obtain ⟨rfl, rfl⟩ := Prod.mk.inj h
    rfl
  | some c =>
    rw [hp] at h
    obtain ⟨rfl, rfl⟩ := Prod.mk.inj h
    simp

end Pending

/-- Reading the tokens where an operand must follow leaves the operators that waited before, and
the tree of the level. -/
def ReadsLevel (level : Level) (e : Expr) (ts : List Token) : Prop :=
  ∀ (frames : List Frame) (done : List Stmt) (purpose : Purpose) (outer : List Pending)
    (p : Pending), ∃ (q : Pending) (x : Expr),
    State.Reads ⟨frames, done, .operand purpose outer (p.below level)⟩ ts
      ⟨frames, done, .operator purpose outer q x⟩ ∧
    q.below level = p.below level ∧ q.upTo level x = e ∧ q.minus = 0

/-- Minus signs that wait apply to the operand that is read. -/
def ReadsOperand (e : Expr) (ts : List Token) : Prop :=
  ∀ (frames : List Frame) (done : List Stmt) (purpose : Purpose) (outer : List Pending)
    (p : Pending),
    State.Reads ⟨frames, done, .operand purpose outer p⟩ ts
      ⟨frames, done, .operator purpose outer { p with minus := 0 } (Pending.negate p.minus e)⟩

def ReadsTail (level : Level) (ts : List Token) (Grows : Pending → Expr → Pending → Expr → Prop) :
    Prop :=
  ∀ (frames : List Frame) (done : List Stmt) (purpose : Purpose) (outer : List Pending)
    (p : Pending) (e : Expr), p.minus = 0 → ∃ (q : Pending) (x : Expr),
    State.Reads ⟨frames, done, .operator purpose outer p e⟩ ts
      ⟨frames, done, .operator purpose outer q x⟩ ∧
    q.below level = p.below level ∧ Grows p e q x ∧ q.minus = 0

theorem readsOperand_of_operand? {t : Token} {e : Expr} (h : operand? t = some e) :
    ReadsOperand e [t] := by
  intro frames done purpose outer p
  apply State.Reads.one
  change stepOperand _ purpose outer p t = _
  unfold stepOperand
  split
  · rename_i hk
    simp [operand?, hk] at h
  · rename_i hk
    simp [operand?, hk] at h
  · simp only [h]

theorem readsOperand_neg {t : Token} {e : Expr} {ts : List Token} (ht : t.Is .minus)
    (h : ReadsOperand e ts) : ReadsOperand (.neg e) (t :: ts) := by
  intro frames done purpose outer p
  have hstep : State.step ⟨frames, done, .operand purpose outer p⟩ t =
      .ok ⟨frames, done, .operand purpose outer { p with minus := p.minus + 1 }⟩ :=
    ht.eval rfl rfl
  have hs := State.Reads.cons hstep (h frames done purpose outer _)
  rwa [← Pending.negate_neg] at hs

theorem readsOperand_paren {l r : Token} {e : Expr} {ts : List Token} (hl : l.Is .openParen)
    (h : ReadsLevel .orTest e ts) (hr : r.Is .closeParen) : ReadsOperand e (l :: ts ++ [r]) := by
  intro frames done purpose outer p
  obtain ⟨q, x, hs, -, rfl, -⟩ := h frames done purpose (p :: outer) {}
  exact (State.Reads.cons (hl.eval rfl rfl) hs).append (State.Reads.one (hr.eval rfl rfl))

theorem readsProduct_one {e : Expr} {ts : List Token} (h : ReadsOperand e ts) :
    ReadsLevel .product e ts := by
  intro frames done purpose outer p
  exact ⟨_, _, h frames done purpose outer (p.below .product), rfl, rfl, rfl⟩

theorem readsProduct_more {t : Token} {op : Arith} {l r : Expr} {ts us : List Token}
    (left : ReadsLevel .product l ts) (ht : t.Is .mulOp) (hop : t.kind = .arith op)
    (right : ReadsOperand r us) : ReadsLevel .product (.arith op l r) (ts ++ t :: us) := by
  intro frames done purpose outer p
  obtain ⟨q, x, hs, hb, rfl, hm⟩ := left frames done purpose outer p
  have hstep : State.step ⟨frames, done, .operator purpose outer q x⟩ t =
      .ok ⟨frames, done, .operand purpose outer (q.pushMul x op)⟩ := by
    rw [Token.Is, hop] at ht
    refine Token.eval_of_kind hop ?_
    cases op with
    | add | sub => cases ht
    | _ => rfl
  refine ⟨_, _, hs.append (State.Reads.cons hstep (right ..)), hb, ?_, rfl⟩
  simp [Pending.pushMul, Pending.upTo, Pending.productWith, Pending.joinArith, hm,
    Pending.negate]

theorem readsSum_one {e : Expr} {ts : List Token} (h : ReadsLevel .product e ts) :
    ReadsLevel .sum e ts := by
  intro frames done purpose outer p
  obtain ⟨q, x, hs, hb, rfl, hm⟩ := h frames done purpose outer (p.below .sum)
  have hsum : q.sum = none := congrArg Pending.sum hb
  have hbelow := congrArg (Pending.below · .sum) hb
  refine ⟨q, x, hs, hbelow, ?_, hm⟩
  simp [Pending.upTo, Pending.sumWith, hsum, Pending.joinArith]

theorem readsSum_more {t : Token} {op : Arith} {l r : Expr} {ts us : List Token}
    (left : ReadsLevel .sum l ts) (ht : t.Is .plus ∨ t.Is .minus) (hop : t.kind = .arith op)
    (right : ReadsLevel .product r us) : ReadsLevel .sum (.arith op l r) (ts ++ t :: us) := by
  intro frames done purpose outer p
  obtain ⟨q, x, hs, hb, rfl, hm⟩ := left frames done purpose outer p
  obtain ⟨q', x', hs', hb', rfl, hm'⟩ := right frames done purpose outer (q.pushAdd x op)
  have hpush : (q.pushAdd x op).below .product = q.pushAdd x op := by
    simp [Pending.below, Pending.pushAdd, hm]
  rw [hpush] at hs' hb'
  refine ⟨q', x', hs.append (State.Reads.cons ?_ hs'), ?_, ?_, hm'⟩
  · rcases ht with ht | ht
    · cases ht.kind.symm.trans hop
      exact ht.eval rfl rfl
    · cases ht.kind.symm.trans hop
      exact ht.eval rfl rfl
  · exact (congrArg (Pending.below · .sum) hb').trans hb
  · have hsum : q'.sum = some (q.sumWith x, op) := congrArg Pending.sum hb'
    simp [Pending.upTo, Pending.sumWith, hsum, Pending.joinArith]

def ComparesWith (rest : List (Comparison × Expr)) (p : Pending) (e : Expr) (q : Pending)
    (x : Expr) : Prop :=
  q.compareParts x = ((p.compareParts e).1, (p.compareParts e).2 ++ rest)

theorem readsComparison_one {e : Expr} {ts : List Token} (h : ReadsLevel .sum e ts) :
    ReadsLevel .comparison e ts := by
  intro frames done purpose outer p
  obtain ⟨q, x, hs, hb, rfl, hm⟩ := h frames done purpose outer (p.below .comparison)
  have hchain : q.chain = none := congrArg Pending.chain hb
  have hbelow := congrArg (Pending.below · .comparison) hb
  refine ⟨q, x, hs, hbelow, ?_, hm⟩
  simp [Pending.upTo, Pending.comparisonWith, hchain]

theorem readsComparison_more {e : Expr} {rest : List (Comparison × Expr)} {ts us : List Token}
    (h : ReadsLevel .sum e ts) (tail : ReadsTail .comparison us (ComparesWith rest))
    (more : rest ≠ []) : ReadsLevel .comparison (.compare e rest) (ts ++ us) := by
  intro frames done purpose outer p
  obtain ⟨q, x, hs, hb, rfl, hm⟩ := h frames done purpose outer (p.below .comparison)
  have hchain : q.chain = none := congrArg Pending.chain hb
  have hbelow := congrArg (Pending.below · .comparison) hb
  obtain ⟨q', x', hs', hb', hgrow, hm'⟩ := tail frames done purpose outer q x hm
  refine ⟨q', x', hs.append hs', hb'.trans hbelow, ?_, hm'⟩
  have hparts : q'.compareParts x' = (q.sumWith x, rest) := by
    rw [hgrow]
    simp [Pending.compareParts, hchain]
  simpa [more, Pending.upTo] using Pending.comparisonWith_of_compareParts hparts

theorem readsTail_compareNil : ReadsTail .comparison [] (ComparesWith []) := by
  intro frames done purpose outer p e hm
  exact ⟨p, e, State.Reads.nil _, rfl, by simp [ComparesWith], hm⟩

theorem readsTail_compareCons {t : Token} {op : Comparison} {e : Expr}
    {rest : List (Comparison × Expr)} {ts us : List Token} (hop : t.kind = .compare op)
    (h : ReadsLevel .sum e ts) (tail : ReadsTail .comparison us (ComparesWith rest)) :
    ReadsTail .comparison (t :: ts ++ us) (ComparesWith ((op, e) :: rest)) := by
  intro frames done purpose outer p x hm
  obtain ⟨q, y, hs, hb, rfl, hm'⟩ := h frames done purpose outer (p.pushCompare x op)
  have hpush : (p.pushCompare x op).below .sum = p.pushCompare x op := by
    simp [Pending.below, Pending.pushCompare, hm]
  rw [hpush] at hs hb
  obtain ⟨q', y', hs', hb', hgrow, hm''⟩ := tail frames done purpose outer q y hm'
  have hstep : State.step ⟨frames, done, .operator purpose outer p x⟩ t =
      .ok ⟨frames, done, .operand purpose outer (p.pushCompare x op)⟩ :=
    Token.eval_of_kind hop rfl
  refine ⟨q', y', (State.Reads.cons hstep hs).append hs', ?_, ?_, hm''⟩
  · have hbelow := congrArg (Pending.below · .comparison) hb
    exact hb'.trans hbelow
  · have hchain : q.chain = (p.pushCompare x op).chain := by rw [← hb]; rfl
    rw [ComparesWith, hgrow]
    cases hp : p.chain <;>
      simp [Pending.compareParts, hchain, Pending.pushCompare, hp, Pending.upTo]

def JoinsAll (es : List Expr) (p : Pending) (e : Expr) (q : Pending) (x : Expr) : Prop :=
  q.andOperands x = p.andOperands e ++ es

theorem readsAnd_one {e : Expr} {ts : List Token} (h : ReadsLevel .comparison e ts) :
    ReadsLevel .andTest e ts := by
  intro frames done purpose outer p
  obtain ⟨q, x, hs, hb, rfl, hm⟩ := h frames done purpose outer (p.below .andTest)
  have hands : q.ands = [] := congrArg Pending.ands hb
  have hbelow := congrArg (Pending.below · .andTest) hb
  refine ⟨q, x, hs, hbelow, ?_, hm⟩
  simp [Pending.upTo, Pending.andWith, hands]

theorem readsAnd_more {e : Expr} {es : List Expr} {ts us : List Token}
    (h : ReadsLevel .comparison e ts) (tail : ReadsTail .andTest us (JoinsAll es))
    (more : es ≠ []) : ReadsLevel .andTest (.all (e :: es)) (ts ++ us) := by
  intro frames done purpose outer p
  obtain ⟨q, x, hs, hb, rfl, hm⟩ := h frames done purpose outer (p.below .andTest)
  have hands : q.ands = [] := congrArg Pending.ands hb
  have hbelow := congrArg (Pending.below · .andTest) hb
  obtain ⟨q', x', hs', hb', hgrow, hm'⟩ := tail frames done purpose outer q x hm
  refine ⟨q', x', hs.append hs', hb'.trans hbelow, ?_, hm'⟩
  have hops : q'.andOperands x' = q.comparisonWith x :: es := by
    rw [hgrow]
    simp [Pending.andOperands, hands]
  simpa [more, Pending.upTo] using Pending.andWith_of_andOperands hops

theorem readsTail_andNil : ReadsTail .andTest [] (JoinsAll []) := by
  intro frames done purpose outer p e hm
  exact ⟨p, e, State.Reads.nil _, rfl, by simp [JoinsAll], hm⟩

theorem readsTail_andCons {t : Token} {e : Expr} {es : List Expr} {ts us : List Token}
    (ht : t.Is .andWord) (h : ReadsLevel .comparison e ts)
    (tail : ReadsTail .andTest us (JoinsAll es)) :
    ReadsTail .andTest (t :: ts ++ us) (JoinsAll (e :: es)) := by
  intro frames done purpose outer p x hm
  obtain ⟨q, y, hs, hb, rfl, hm'⟩ := h frames done purpose outer (p.pushAnd x)
  obtain ⟨q', y', hs', hb', hgrow, hm''⟩ := tail frames done purpose outer q y hm'
  refine ⟨q', y', (State.Reads.cons (ht.eval rfl rfl) hs).append hs', ?_, ?_, hm''⟩
  · have hbelow := congrArg (Pending.below · .andTest) hb
    exact hb'.trans hbelow
  · have hands : q.ands = p.andOperands x := congrArg Pending.ands hb
    rw [JoinsAll, hgrow]
    simp [Pending.andOperands, hands, Pending.upTo]

def JoinsAny (es : List Expr) (p : Pending) (e : Expr) (q : Pending) (x : Expr) : Prop :=
  q.orOperands x = p.orOperands e ++ es

theorem readsOr_one {e : Expr} {ts : List Token} (h : ReadsLevel .andTest e ts) :
    ReadsLevel .orTest e ts := by
  intro frames done purpose outer p
  obtain ⟨q, x, hs, hb, rfl, hm⟩ := h frames done purpose outer {}
  have hors : q.ors = [] := congrArg Pending.ors hb
  refine ⟨q, x, hs, rfl, ?_, hm⟩
  simp [Pending.upTo, Pending.close, hors]

theorem readsOr_more {e : Expr} {es : List Expr} {ts us : List Token}
    (h : ReadsLevel .andTest e ts) (tail : ReadsTail .orTest us (JoinsAny es))
    (more : es ≠ []) : ReadsLevel .orTest (.any (e :: es)) (ts ++ us) := by
  intro frames done purpose outer p
  obtain ⟨q, x, hs, hb, rfl, hm⟩ := h frames done purpose outer {}
  have hors : q.ors = [] := congrArg Pending.ors hb
  obtain ⟨q', x', hs', -, hgrow, hm'⟩ := tail frames done purpose outer q x hm
  refine ⟨q', x', hs.append hs', rfl, ?_, hm'⟩
  have hops : q'.orOperands x' = q.andWith x :: es := by
    rw [hgrow]
    simp [Pending.orOperands, hors]
  simpa [more, Pending.upTo] using Pending.close_of_orOperands hops

theorem readsTail_orNil : ReadsTail .orTest [] (JoinsAny []) := by
  intro frames done purpose outer p e hm
  exact ⟨p, e, State.Reads.nil _, rfl, by simp [JoinsAny], hm⟩

theorem readsTail_orCons {t : Token} {e : Expr} {es : List Expr} {ts us : List Token}
    (ht : t.Is .orWord) (h : ReadsLevel .andTest e ts)
    (tail : ReadsTail .orTest us (JoinsAny es)) :
    ReadsTail .orTest (t :: ts ++ us) (JoinsAny (e :: es)) := by
  intro frames done purpose outer p x hm
  obtain ⟨q, y, hs, hb, rfl, hm'⟩ := h frames done purpose outer (p.pushOr x)
  obtain ⟨q', y', hs', -, hgrow, hm''⟩ := tail frames done purpose outer q y hm'
  refine ⟨q', y', (State.Reads.cons (ht.eval rfl rfl) hs).append hs', rfl, ?_, hm''⟩
  · have hors : q.ors = p.orOperands x := congrArg Pending.ors hb
    rw [JoinsAny, hgrow]
    simp [Pending.orOperands, hors, Pending.upTo]

end Scribe.Script
