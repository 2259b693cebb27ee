import Scribe.Proofs.Script.Grammar

/-!
# The tokens behind an expression under way

Operators that wait for their right operand have already covered tokens. The statements below say
which tokens these are, one part of `Pending` at a time, and that closing the operators over an
operand gives a tree which the grammar derives from all of them.
-/
namespace Scribe.Script

theorem derives_orTail_snoc {e : Expr} {es : List Expr} {t : Token} {us ts : List Token}
    (h : Derives (.orTail es) us) (ht : t.Is .orWord) (he : Derives (.expr .andTest e) ts) :
    Derives (.orTail (es ++ [e])) (us ++ t :: ts) := by
  induction es generalizing us with
  | nil =>
    cases h
    simpa using Derives.orCons ht he .orNil
  | cons x xs ih =>
    cases h with
    | orCons ht' hx tail => simpa using Derives.orCons ht' hx (ih tail)

theorem derives_andTail_snoc {e : Expr} {es : List Expr} {t : Token} {us ts : List Token}
    (h : Derives (.andTail es) us) (ht : t.Is .andWord) (he : Derives (.expr .comparison e) ts) :
    Derives (.andTail (es ++ [e])) (us ++ t :: ts) := by
  induction es generalizing us with
  | nil =>
    cases h
    simpa using Derives.andCons ht he .andNil
  | cons x xs ih =>
    cases h with
    | andCons ht' hx tail => simpa using Derives.andCons ht' hx (ih tail)

theorem derives_compareTail_snoc {e : Expr} {rest : List (Comparison × Expr)} {t : Token}
    {op : Comparison} {us ts : List Token} (h : Derives (.compareTail rest) us)
    (hop : t.kind = .compare op) (he : Derives (.expr .sum e) ts) :
    Derives (.compareTail (rest ++ [(op, e)])) (us ++ t :: ts) := by
  have ht : t.Is .compOp := by rw [Token.Is, hop]; rfl
  induction rest generalizing us with
  | nil =>
    cases h
    simpa using Derives.compareCons ht hop he .compareNil
  | cons x xs ih =>
    cases h with
    | compareCons ht' hop' hx tail => simpa using Derives.compareCons ht' hop' hx (ih tail)

namespace Pending

inductive OrHead : List Expr → List Token → Prop
  | nil : OrHead [] []
  | cons {e es t ts us} (h : Derives (.expr .andTest e) ts) (tail : Derives (.orTail es) us)
      (ht : t.Is .orWord) : OrHead (e :: es) (ts ++ us ++ [t])

inductive AndHead : List Expr → List Token → Prop
  | nil : AndHead [] []
  | cons {e es t ts us} (h : Derives (.expr .comparison e) ts) (tail : Derives (.andTail es) us)
      (ht : t.Is .andWord) : AndHead (e :: es) (ts ++ us ++ [t])

inductive CompareHead : Option (Expr × List (Comparison × Expr) × Comparison) → List Token → Prop
  | none : CompareHead none []
  | some {e rest op t ts us} (h : Derives (.expr .sum e) ts) (tail : Derives (.compareTail rest) us)
      (hop : t.kind = .compare op) : CompareHead (some (e, rest, op)) (ts ++ us ++ [t])

inductive SumHead : Option (Expr × Arith) → List Token → Prop
  | none : SumHead none []
  | some {e op t ts} (h : Derives (.expr .sum e) ts) (ht : t.Is .plus ∨ t.Is .minus)
      (hop : t.kind = .arith op) : SumHead (some (e, op)) (ts ++ [t])

inductive ProductHead : Option (Expr × Arith) → List Token → Prop
  | none : ProductHead none []
  | some {e op t ts} (h : Derives (.expr .product e) ts) (ht : t.Is .mulOp)
      (hop : t.kind = .arith op) : ProductHead (some (e, op)) (ts ++ [t])

def Covers (p : Pending) (ts : List Token) : Prop :=
  ∃ a b c d e m, ts = a ++ b ++ c ++ d ++ e ++ m ∧ OrHead p.ors a ∧ AndHead p.ands b ∧
    CompareHead p.chain c ∧ SumHead p.sum d ∧ ProductHead p.product e ∧
    m.length = p.minus ∧ ∀ t ∈ m, t.Is .minus

def CoversWith (p : Pending) (e : Expr) (ts : List Token) : Prop :=
  p.minus = 0 ∧ ∃ us vs, ts = us ++ vs ∧ p.Covers us ∧ Derives (.expr .unary e) vs

theorem derives_negate {e : Expr} {m ts : List Token} (hm : ∀ t ∈ m, t.Is .minus)
    (h : Derives (.expr .unary e) ts) : Derives (.expr .unary (negate m.length e)) (m ++ ts) := by
  induction m with
  | nil => exact h
  | cons t m ih =>
    exact Derives.neg (hm t (by simp)) (ih fun u hu => hm u (by simp [hu]))

theorem ProductHead.derives {x : Option (Expr × Arith)} {e : Expr} {ts us : List Token}
    (h : ProductHead x ts) (he : Derives (.expr .unary e) us) :
    Derives (.expr .product (joinArith x e)) (ts ++ us) := by
  cases h with
  | none => exact .productOne he
  | some hl ht hop => simpa [joinArith] using Derives.productMore hl ht hop he

theorem SumHead.derives {x : Option (Expr × Arith)} {e : Expr} {ts us : List Token}
    (h : SumHead x ts) (he : Derives (.expr .product e) us) :
    Derives (.expr .sum (joinArith x e)) (ts ++ us) := by
  cases h with
  | none => exact .sumOne he
  | some hl ht hop => simpa [joinArith] using Derives.sumMore hl ht hop he

/-- One more part of a comparison. -/
theorem CompareHead.push {p : Pending} {e : Expr} {op : Comparison} {t : Token}
    {ts us : List Token} (h : CompareHead p.chain ts) (he : Derives (.expr .sum (p.sumWith e)) us)
    (hop : t.kind = .compare op) :
    CompareHead (p.pushCompare e op).chain (ts ++ us ++ [t]) := by
  unfold pushCompare
  cases hc : p.chain with
  | none =>
    rw [hc] at h
    cases h
    simpa using CompareHead.some he .compareNil hop
  | some c =>
    rw [hc] at h
    cases h with
    | some hfirst tail hop' =>
      simpa using CompareHead.some hfirst (derives_compareTail_snoc tail hop' he) hop

theorem CompareHead.derives {p : Pending} {e : Expr} {ts us : List Token}
    (h : CompareHead p.chain ts) (he : Derives (.expr .sum (p.sumWith e)) us) :
    Derives (.expr .comparison (p.comparisonWith e)) (ts ++ us) := by
  unfold comparisonWith
  cases hc : p.chain with
  | none =>
    rw [hc] at h
    cases h
    exact .compareOne he
  | some c =>
    rw [hc] at h
    cases h with
    | some hfirst tail hop =>
      simpa using Derives.compareMore hfirst (derives_compareTail_snoc tail hop he) (by simp)

theorem AndHead.push {es : List Expr} {e : Expr} {t : Token} {ts us : List Token}
    (h : AndHead es ts) (he : Derives (.expr .comparison e) us) (ht : t.Is .andWord) :
    AndHead (es ++ [e]) (ts ++ us ++ [t]) := by
  cases h with
  | nil => simpa using AndHead.cons he .andNil ht
  | cons hx tail ht' => simpa using AndHead.cons hx (derives_andTail_snoc tail ht' he) ht

theorem AndHead.derives {p : Pending} {e : Expr} {ts us : List Token} (h : AndHead p.ands ts)
    (he : Derives (.expr .comparison (p.comparisonWith e)) us) :
    Derives (.expr .andTest (p.andWith e)) (ts ++ us) := by
  unfold andWith
  cases hp : p.ands with
  | nil =>
    rw [hp] at h
    cases h
    exact .andOne he
  | cons x xs =>
    rw [hp] at h
    cases h with
    | cons hx tail ht =>
      simpa using Derives.andMore hx (derives_andTail_snoc tail ht he) (by simp)

theorem OrHead.push {es : List Expr} {e : Expr} {t : Token} {ts us : List Token}
    (h : OrHead es ts) (he : Derives (.expr .andTest e) us) (ht : t.Is .orWord) :
    OrHead (es ++ [e]) (ts ++ us ++ [t]) := by
  cases h with
  | nil => simpa using OrHead.cons he .orNil ht
  | cons hx tail ht' => simpa using OrHead.cons hx (derives_orTail_snoc tail ht' he) ht

theorem OrHead.derives {p : Pending} {e : Expr} {ts us : List Token} (h : OrHead p.ors ts)
    (he : Derives (.expr .andTest (p.andWith e)) us) :
    Derives (.expr .orTest (p.close e)) (ts ++ us) := by
  unfold close
  cases hp : p.ors with
  | nil =>
    rw [hp] at h
    cases h
    exact .orOne he
  | cons x xs =>
    rw [hp] at h
    cases h with
    | cons hx tail ht =>
      simpa using Derives.orMore hx (derives_orTail_snoc tail ht he) (by simp)

theorem covers_nil : Covers {} [] :=
  ⟨[], [], [], [], [], [], rfl, .nil, .nil, .none, .none, .none, rfl, by simp⟩

theorem Covers.minus {p : Pending} {t : Token} {ts : List Token} (h : p.Covers ts)
    (ht : t.Is .minus) : Covers { p with minus := p.minus + 1 } (ts ++ [t]) := by
  obtain ⟨a, b, c, d, e, m, rfl, ha, hb, hc, hd, he, hm, hall⟩ := h
  refine ⟨a, b, c, d, e, m ++ [t], by simp, ha, hb, hc, hd, he, by simp [hm], ?_⟩
  intro u hu
  rcases List.mem_append.mp hu with hu | hu
  · exact hall u hu
  · rwa [List.mem_singleton.mp hu]

/-- The operand that the waiting minus signs apply to. -/
theorem Covers.operand {p : Pending} {e : Expr} {ts us : List Token} (h : p.Covers ts)
    (he : Derives (.expr .unary e) us) :
    CoversWith { p with minus := 0 } (negate p.minus e) (ts ++ us) := by
  obtain ⟨a, b, c, d, f, m, rfl, ha, hb, hc, hd, hf, hm, hall⟩ := h
  refine ⟨rfl, a ++ b ++ c ++ d ++ f, m ++ us, by simp, ?_, ?_⟩
  · exact ⟨a, b, c, d, f, [], by simp, ha, hb, hc, hd, hf, rfl, by simp⟩
  · rw [← hm]
    exact derives_negate hall he

/-- What each level of the operators derives with the operand behind them. -/
theorem CoversWith.levels {p : Pending} {e : Expr} {ts : List Token} (h : p.CoversWith e ts) :
    ∃ a b c d f, ts = a ++ b ++ c ++ d ++ f ∧ OrHead p.ors a ∧ AndHead p.ands b ∧
      CompareHead p.chain c ∧ SumHead p.sum d ∧ Derives (.expr .product (p.productWith e)) f := by
  obtain ⟨hm, us, vs, rfl, ⟨a, b, c, d, f, m, rfl, ha, hb, hc, hd, hf, hlen, -⟩, he⟩ := h
  have hnil : m = [] := List.eq_nil_of_length_eq_zero (hlen.trans hm)
  subst hnil
  exact ⟨a, b, c, d, f ++ vs, by simp, ha, hb, hc, hd, hf.derives he⟩

theorem CoversWith.pushMul {p : Pending} {e : Expr} {op : Arith} {t : Token} {ts : List Token}
    (h : p.CoversWith e ts) (ht : t.Is .mulOp) (hop : t.kind = .arith op) :
    (p.pushMul e op).Covers (ts ++ [t]) := by
  obtain ⟨a, b, c, d, f, rfl, ha, hb, hc, hd, hf⟩ := h.levels
  exact ⟨a, b, c, d, f ++ [t], [], by simp, ha, hb, hc, hd, .some hf ht hop, h.1.symm, by simp⟩

theorem CoversWith.pushAdd {p : Pending} {e : Expr} {op : Arith} {t : Token} {ts : List Token}
    (h : p.CoversWith e ts) (ht : t.Is .plus ∨ t.Is .minus) (hop : t.kind = .arith op) :
    (p.pushAdd e op).Covers (ts ++ [t]) := by
  obtain ⟨a, b, c, d, f, rfl, ha, hb, hc, hd, hf⟩ := h.levels
  exact ⟨a, b, c, d ++ f ++ [t], [], [], by simp, ha, hb, hc, .some (hd.derives hf) ht hop, .none,
    h.1.symm, by simp⟩

theorem CoversWith.pushCompare {p : Pending} {e : Expr} {op : Comparison} {t : Token}
    {ts : List Token} (h : p.CoversWith e ts) (hop : t.kind = .compare op) :
    (p.pushCompare e op).Covers (ts ++ [t]) := by
  obtain ⟨a, b, c, d, f, rfl, ha, hb, hc, hd, hf⟩ := h.levels
  exact ⟨a, b, c ++ (d ++ f) ++ [t], [], [], [], by simp, ha, hb, hc.push (hd.derives hf) hop,
    .none, .none, h.1.symm, by simp⟩

theorem CoversWith.pushAnd {p : Pending} {e : Expr} {t : Token} {ts : List Token}
    (h : p.CoversWith e ts) (ht : t.Is .andWord) : (p.pushAnd e).Covers (ts ++ [t]) := by
  obtain ⟨a, b, c, d, f, rfl, ha, hb, hc, hd, hf⟩ := h.levels
  exact ⟨a, b ++ (c ++ (d ++ f)) ++ [t], [], [], [], [], by simp, ha,
    hb.push (hc.derives (hd.derives hf)) ht, .none, .none, .none, rfl, by simp⟩

theorem CoversWith.pushOr {p : Pending} {e : Expr} {t : Token} {ts : List Token}
    (h : p.CoversWith e ts) (ht : t.Is .orWord) : (p.pushOr e).Covers (ts ++ [t]) := by
  obtain ⟨a, b, c, d, f, rfl, ha, hb, hc, hd, hf⟩ := h.levels
  exact ⟨a ++ (b ++ (c ++ (d ++ f))) ++ [t], [], [], [], [], [], by simp,
    ha.push (hb.derives (hc.derives (hd.derives hf))) ht, .nil, .none, .none, .none, rfl, by simp⟩

/-- Closing the operators gives an expression that the grammar derives from their tokens. -/
theorem CoversWith.close {p : Pending} {e : Expr} {ts : List Token} (h : p.CoversWith e ts) :
    Derives (.expr .orTest (p.close e)) ts := by
  obtain ⟨a, b, c, d, f, rfl, ha, hb, hc, hd, hf⟩ := h.levels
  simpa using ha.derives (hb.derives (hc.derives (hd.derives hf)))

end Pending

/-- A number is read, not defaulted. -/
def Token.Readable (t : Token) : Prop :=
  t.kind = .number → ∃ x, Decimal.read? t.lexeme.toList = some x

theorem derives_of_operand? {t : Token} {e : Expr} (hr : t.Readable) (h : operand? t = some e) :
    Derives (.expr .atom e) [t] := by
  unfold operand? at h
  split at h <;> rename_i hk
  · obtain ⟨x, hx⟩ := hr hk
    rw [hx] at h
    cases h
    exact .number (by rw [Token.Is, hk]; rfl) hx
  · cases h
    exact .string (by rw [Token.Is, hk]; rfl)
  · cases h
    exact .var (by rw [Token.Is, hk]; rfl)
  · rename_i b
    cases h
    cases b
    · exact .falseLit (by rw [Token.Is, hk]; rfl)
    · exact .trueLit (by rw [Token.Is, hk]; rfl)
  · cases h
    exact .nullLit (by rw [Token.Is, hk]; rfl)
  · cases h

end Scribe.Script
