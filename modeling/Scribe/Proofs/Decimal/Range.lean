import Mathlib
import Scribe.Decimal.Binary

/-!
# The range of doubles

A whole number rounds to an infinity exactly from `2 ^ 1024 - 2 ^ 970` on. This is half a step above
the greatest double, where the tie goes to the even neighbour, which is out of range.
-/
namespace Scribe.Decimal
open Float.Model

section Bits
open UnpackedFloat

variable {b : BitVec Format.binary64.numBits}

theorem toNat_unpackExponent (b : BitVec 64) :
    (@unpackExponent Format.binary64 b).toNat = b.toNat / 2 ^ 52 % 2 ^ 11 := by
  change b.toNat >>> 52 % 2 ^ 11 = _
  rw [Nat.shiftRight_eq_div_pow]

theorem toNat_unpackMantissa (b : BitVec 64) :
    (@unpackMantissa Format.binary64 b).toNat = b.toNat % 2 ^ 52 := by
  change b.toNat >>> 0 % 2 ^ 52 = _
  rw [Nat.shiftRight_zero]

end Bits

theorem roundDiv_cases (n d : Nat) :
    (roundDiv n d = n / d ∧ (2 * (n % d) < d ∨ 2 * (n % d) = d ∧ n / d % 2 = 0)) ∨
      roundDiv n d = n / d + 1 ∧ (d < 2 * (n % d) ∨ 2 * (n % d) = d ∧ n / d % 2 = 1) := by
  unfold roundDiv
  dsimp only
  split
  · rename_i hup
    simp only [Bool.or_eq_true, decide_eq_true_eq, Bool.and_eq_true, beq_iff_eq] at hup
    exact .inr ⟨rfl, hup⟩
  · rename_i hdown
    simp only [Bool.or_eq_true, decide_eq_true_eq, Bool.and_eq_true, beq_iff_eq] at hdown
    exact .inl ⟨rfl, by omega⟩

section Whole
variable {n : Nat}

theorem packed_of_lt {m : Nat} (hlow : 2 ^ 52 ≤ m) (hhigh : m < 2 ^ 53) (e : Int) :
    packed m e = if 971 < e then 2047 * 2 ^ 52 else (e + 1075).toNat * 2 ^ 52 + (m - 2 ^ 52) := by
  have hsize : (m == pow2 53) = false := beq_false_of_ne (Nat.ne_of_lt hhigh)
  have hbits : ¬m < pow2 52 := Nat.not_lt.mpr hlow
  unfold packed
  simp only [hsize, Bool.false_eq_true, if_false, if_neg hbits]
  rfl

theorem packed_carry (e : Int) : packed (2 ^ 53) e = packed (2 ^ 52) (e + 1) := rfl

end Whole

/-- The least whole number that rounds to an infinity, `2 ^ 1024 - 2 ^ 970`. -/
def leastInfinite : Nat := (2 ^ 54 - 1) * 2 ^ 970

end Scribe.Decimal
