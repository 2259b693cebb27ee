import Scribe.Eval
import Scribe.Proofs.Value.Numerals

/-!
# The comparison of texts

Two texts that are numbers compare as numbers, any others as they are written. Pair by pair this is
an order, although it is not one order for all texts, and equality is the same for all: texts are
equal if both are the same number, or if neither is a number and they are written alike.
-/
namespace Scribe
open Script Decimal

def Script.Comparison.holds : Comparison → Ordering → Bool
  | .eq, o => o == .eq
  | .ne, o => o != .eq
  | .lt, o => o == .lt
  | .gt, o => o == .gt
  | .le, o => o != .gt
  | .ge, o => o != .lt

theorem compareNumbers_eq {x y : Float} (hx : x.isNaN = false) (hy : y.isNaN = false)
    (op : Comparison) : compareNumbers op x y = op.holds (order x y) := by
  have hswap : order y x = (order x y).swap := (cmp_swap _ _).symm
  have heq : (x == y) = (order x y == .eq) :=
    Bool.eq_iff_iff.mpr ((beq_iff_order hx hy).trans beq_iff_eq.symm)
  have hlt := lt_iff_order hx hy
  have hgt := lt_iff_order hy hx
  have hle := le_iff_order hx hy
  have hge := le_iff_order hy hx
  rw [hswap] at hgt hge
  cases op with
  | eq => exact heq
  | ne => exact congrArg not heq
  | lt | gt | le | ge =>
    simp only [compareNumbers, hlt, hgt, hle, hge]
    cases order x y <;> rfl

theorem compareTexts_eq (op : Comparison) (s t : String) :
    compareTexts op s t = op.holds (cmp s t) := by
  have heq : (s == t) = (cmp s t == .eq) :=
    Bool.eq_iff_iff.mpr (beq_iff_eq.trans ((cmp_eq_eq_iff s t).symm.trans beq_iff_eq.symm))
  have hlt : s < t ↔ cmp s t = .lt := (cmp_eq_lt_iff s t).symm
  have hgt : t < s ↔ cmp s t = .gt := (cmp_eq_gt_iff s t).symm
  cases op with
  | eq => exact heq
  | ne => exact congrArg not heq
  | lt | gt | le | ge =>
    simp only [compareTexts, hlt, hgt]
    cases cmp s t <;> rfl

def textOrder (a b : String) : Ordering :=
  match (Value.text a).toNumber?, (Value.text b).toNumber? with
  | some x, some y => order x y
  | _, _ => cmp (Value.text a).fold (Value.text b).fold

theorem compareValues_text (op : Comparison) (a b : String) :
    compareValues op (.text a) (.text b) = op.holds (textOrder a b) := by
  unfold compareValues textOrder
  rcases Value.toNumber?_text a with ⟨-, x, hx, hnx⟩ | ⟨-, hx⟩
  · rcases Value.toNumber?_text b with ⟨-, y, hy, hny⟩ | ⟨-, hy⟩
    · rw [hx, hy]
      exact compareNumbers_eq hnx hny op
    · rw [hx, hy]
      exact compareTexts_eq op _ _
  · rw [hx]
    exact compareTexts_eq op _ _

theorem textOrder_swap (a b : String) : (textOrder a b).swap = textOrder b a := by
  unfold textOrder
  cases (Value.text a).toNumber? with
  | none =>
    cases (Value.text b).toNumber? with
    | none => exact cmp_swap _ _
    | some y => exact cmp_swap _ _
  | some x =>
    cases (Value.text b).toNumber? with
    | none => exact cmp_swap _ _
    | some y => exact cmp_swap _ _

/-- What equal texts have in common: the place of their number, or how they are written. -/
def textKey (a : String) : (ℤ ×ₗ ℤ ×ₗ ℤ) ⊕ String :=
  match (Value.text a).toNumber? with
  | some x => .inl (place x.toModel.unpack)
  | none => .inr (Value.text a).fold

/-- A number is written like no text that is none. -/
theorem fold_ne_of_number {a b : String} {x : Float} (ha : (Value.text a).toNumber? = some x)
    (hb : (Value.text b).toNumber? = none) : (Value.text a).fold ≠ (Value.text b).fold := by
  intro hfold
  have hnumeral (s : String) :
      Value.isNumeral (Value.text s).fold.toList = Value.isNumeral (Text.trim s.toList) := by
    rw [Value.fold, String.toList_ofList, Value.isNumeral_lower]
    rfl
  rcases Value.toNumber?_text a with ⟨hyes, -⟩ | ⟨-, hnone⟩
  · rcases Value.toNumber?_text b with ⟨-, y, hsome, -⟩ | ⟨hno, -⟩
    · rw [hb] at hsome
      cases hsome
    · rw [← hnumeral, hfold, hnumeral, hno] at hyes
      cases hyes
  · rw [ha] at hnone
    cases hnone

theorem textOrder_eq_iff (a b : String) : textOrder a b = .eq ↔ textKey a = textKey b := by
  unfold textOrder textKey
  cases ha : (Value.text a).toNumber? with
  | none =>
    cases hb : (Value.text b).toNumber? with
    | none => simp only [cmp_eq_eq_iff, Sum.inr.injEq]
    | some y =>
      simp only [cmp_eq_eq_iff, reduceCtorEq, iff_false]
      exact (fold_ne_of_number hb ha).symm
  | some x =>
    cases hb : (Value.text b).toNumber? with
    | none =>
      simp only [cmp_eq_eq_iff, reduceCtorEq, iff_false]
      exact fold_ne_of_number ha hb
    | some y => simp only [order, cmp_eq_eq_iff, Sum.inl.injEq]

structure CoherentComparison (holds : Comparison → String → String → Prop) : Prop where
  one : ∀ a b, holds .lt a b ∧ ¬holds .eq a b ∧ ¬holds .gt a b ∨
    ¬holds .lt a b ∧ holds .eq a b ∧ ¬holds .gt a b ∨
    ¬holds .lt a b ∧ ¬holds .eq a b ∧ holds .gt a b
  le_iff : ∀ a b, holds .le a b ↔ holds .lt a b ∨ holds .eq a b
  ge_iff : ∀ a b, holds .ge a b ↔ holds .gt a b ∨ holds .eq a b
  ne_iff : ∀ a b, holds .ne a b ↔ ¬holds .eq a b
  lt_iff_gt : ∀ a b, holds .lt a b ↔ holds .gt b a
  equivalence : Equivalence (holds .eq)
  number_ne : ∀ a b, (Value.text a).toNumber?.isSome = true → (Value.text b).toNumber? = none →
    ¬holds .eq a b

/-- Texts are compared by the laws. -/
theorem coherent_compareValues :
    CoherentComparison fun op a b => compareValues op (.text a) (.text b) = true := by
  have hkey (a b : String) :
      compareValues .eq (.text a) (.text b) = true ↔ textKey a = textKey b := by
    rw [compareValues_text, ← textOrder_eq_iff]
    exact beq_iff_eq
  constructor
  case lt_iff_gt =>
    intro a b
    rw [compareValues_text, compareValues_text, ← textOrder_swap a b]
    cases textOrder a b <;> decide
  case equivalence =>
    simp only [hkey]
    exact ⟨fun _ => rfl, Eq.symm, Eq.trans⟩
  case number_ne =>
    intro a b ha hb
    obtain ⟨x, ha⟩ := Option.isSome_iff_exists.mp ha
    rw [hkey, textKey, textKey, ha, hb]
    nofun
  all_goals
    intro a b
    simp only [compareValues_text]
    cases textOrder a b <;> decide

end Scribe
