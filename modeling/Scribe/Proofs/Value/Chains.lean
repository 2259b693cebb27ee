import Scribe.Eval

/-!
# Chains of comparisons

A chain of comparisons means that each operand stands in its relation to the next one. It has the
value of the conjunction of these comparisons, and the same error where one of them has an error,
although the chain evaluates each operand once and the conjunction evaluates the inner ones twice.
Both stop at the first comparison that does not hold.
-/
namespace Scribe
open Script

/-- The comparisons of each operand of a chain with the next one. -/
def Script.neighbours (left : Expr) : List (Comparison × Expr) → List Expr
  | [] => []
  | (op, right) :: rest => .compare left [(op, right)] :: neighbours right rest

def Script.lastOperand (left : Expr) : List (Comparison × Expr) → Expr
  | [] => left
  | (_, right) :: rest => lastOperand right rest

variable {b : Bindings} {left right : Expr} {op : Comparison} {rest : List (Comparison × Expr)}
  {x y : Value} {e : EvalError}

theorem evaluate_compare (hleft : evaluate b left = .ok x) :
    evaluate b (.compare left rest) = (evaluateChain b x rest).map .bool := by
  rw [evaluate, hleft]
  rfl

theorem evaluate_compare_error (hleft : evaluate b left = .error e) :
    evaluate b (.compare left rest) = .error e := by
  rw [evaluate, hleft]
  rfl

theorem evaluateChain_cons (hright : evaluate b right = .ok y) :
    evaluateChain b x ((op, right) :: rest) =
      if compareValues op x y then evaluateChain b y rest else .ok false := by
  rw [evaluateChain, hright]
  rfl

theorem evaluateChain_error (hright : evaluate b right = .error e) :
    evaluateChain b x ((op, right) :: rest) = .error e := by
  rw [evaluateChain, hright]
  rfl

theorem evaluate_pair (hleft : evaluate b left = .ok x) (hright : evaluate b right = .ok y) :
    evaluate b (.compare left [(op, right)]) = .ok (.bool (compareValues op x y)) := by
  rw [evaluate_compare hleft, evaluateChain_cons hright, evaluateChain]
  cases compareValues op x y <;> rfl

theorem evaluate_all (operands : List Expr) :
    evaluate b (.all operands) = (evaluateAll b operands).map .bool := by
  rw [evaluate]
  rfl

theorem evaluateAll_cons {holds : Bool} (h : evaluate b left = .ok (.bool holds))
    (more : List Expr) :
    evaluateAll b (left :: more) = if holds then evaluateAll b more else .ok false := by
  rw [evaluateAll, h]
  rfl

theorem evaluateAll_error (h : evaluate b left = .error e) (more : List Expr) :
    evaluateAll b (left :: more) = .error e := by
  rw [evaluateAll, h]
  rfl

/-- Operands that hold leave the answer to those behind them. -/
theorem evaluateAll_holding {front : List Expr}
    (h : ∀ operand ∈ front, evaluate b operand = .ok (.bool true)) (more : List Expr) :
    evaluateAll b (front ++ more) = evaluateAll b more := by
  induction front with
  | nil => rfl
  | cons operand front ih =>
    obtain ⟨hfirst, hrest⟩ := List.forall_mem_cons.mp h
    rw [List.cons_append, evaluateAll_cons hfirst, if_pos rfl, ih hrest]

/-- What a chain still has to compare is what its conjunction still has to evaluate. -/
theorem evaluateChain_eq (hleft : evaluate b left = .ok x) (rest : List (Comparison × Expr)) :
    evaluateChain b x rest = evaluateAll b (neighbours left rest) := by
  induction rest generalizing left x with
  | nil => rw [evaluateChain, neighbours, evaluateAll]
  | cons link rest ih =>
    obtain ⟨op, right⟩ := link
    cases hright : evaluate b right with
    | error e =>
      have hpair : evaluate b (.compare left [(op, right)]) = .error e := by
        rw [evaluate_compare hleft, evaluateChain_error hright]
        rfl
      rw [evaluateChain_error hright, neighbours, evaluateAll_error hpair]
    | ok y =>
      rw [evaluateChain_cons hright, neighbours, evaluateAll_cons (evaluate_pair hleft hright),
        ih hright]

theorem evaluate_chain_eq (link : Comparison × Expr) (rest : List (Comparison × Expr)) :
    evaluate b (.compare left (link :: rest)) =
      evaluate b (.all (neighbours left (link :: rest))) := by
  rw [evaluate_all]
  cases hleft : evaluate b left with
  | error e =>
    rw [evaluate_compare_error hleft, neighbours,
      evaluateAll_error (evaluate_compare_error hleft)]
    rfl
  | ok x => rw [evaluate_compare hleft, evaluateChain_eq hleft]

theorem neighbours_append (left : Expr) (before after : List (Comparison × Expr)) :
    neighbours left (before ++ after) =
      neighbours left before ++ neighbours (lastOperand left before) after := by
  induction before generalizing left with
  | nil => rfl
  | cons link before ih =>
    rw [List.cons_append, neighbours, neighbours, lastOperand, ih, List.cons_append]

/-- A chain of comparisons evaluates to the value, or fails with the error, of the conjunction of
the comparisons of its neighbours. Once a comparison does not hold where all before it do, the
chain does not hold, whatever operands follow and whether or not they could be evaluated. -/
theorem chain_pairwise (b : Bindings) (first : Expr) :
    (∀ link rest, evaluate b (.compare first (link :: rest)) =
      evaluate b (.all (neighbours first (link :: rest)))) ∧
    ∀ before op operand, (∀ pair ∈ neighbours first before, evaluate b pair = .ok (.bool true)) →
      evaluate b (.compare (lastOperand first before) [(op, operand)]) = .ok (.bool false) →
      ∀ after, evaluate b (.compare first (before ++ (op, operand) :: after)) =
        .ok (.bool false) := by
  refine ⟨evaluate_chain_eq, fun before op operand hbefore hfalse after => ?_⟩
  obtain ⟨link, rest, hchain⟩ : ∃ link rest, before ++ (op, operand) :: after = link :: rest :=
    List.exists_cons_of_ne_nil (by simp)
  calc evaluate b (.compare first (before ++ (op, operand) :: after))
      = (evaluateAll b (neighbours first (before ++ (op, operand) :: after))).map .bool := by
        rw [hchain, evaluate_chain_eq, evaluate_all]
    _ = (evaluateAll b (neighbours (lastOperand first before) ((op, operand) :: after))).map
          .bool := by
        rw [neighbours_append, evaluateAll_holding hbefore]
    _ = .ok (.bool false) := by
        rw [neighbours, evaluateAll_cons hfalse]
        rfl

/-- The second comparison does not hold, so the third operand is not negated, which would fail. -/
theorem chain_pairwise_stops :
    let text (s : String) : Expr := .lit (.text s)
    evaluate [] (.neg (text "c")) = .error (.cannotNegate (.text "c")) ∧
      evaluate [] (.compare (text "a") [(.lt, text "b"), (.lt, text "b"), (.lt, .neg (text "c"))]) =
        .ok (.bool false) := by
  intro text
  refine ⟨rfl, (chain_pairwise [] (text "a")).2 [(.lt, text "b")] .lt (text "b") ?_ rfl _⟩
  exact List.forall_mem_singleton.mpr rfl

end Scribe
