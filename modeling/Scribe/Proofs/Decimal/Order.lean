import Mathlib
import Scribe.Decimal.Numeral
import Scribe.Proofs.Decimal.Range

/-!
# The order of doubles

The doubles that are numbers stand in one line, in which only the two zeros share a place. A numeral
is never read as a double that has no place there.
-/
namespace Scribe.Decimal
open Float.Model UnpackedFloat

def place : UnpackedFloat → ℤ ×ₗ ℤ ×ₗ ℤ
  | .infinity .negative => toLex (-2, toLex (0, 0))
  | .finite .negative m e _ => toLex (-1, toLex (-e, -m))
  | .zero _ => toLex (0, toLex (0, 0))
  | .finite .positive m e _ => toLex (1, toLex (e, m))
  | .infinity .positive => toLex (2, toLex (0, 0))
  | .notANumber => toLex (3, toLex (0, 0))

theorem cmp_toLex {α β : Type} [LinearOrder α] [LinearOrder β] (a a' : α) (b b' : β) :
    cmp (toLex (a, b)) (toLex (a', b')) = (cmp a a').then (cmp b b') := by
  rw [cmp_eq_compare, cmp_eq_compare, cmp_eq_compare]
  rfl

theorem place_positive (e e' : ℤ) {m m' : ℕ} (hm : 0 < m) (hm' : 0 < m') :
    cmp (place (.finite .positive m e hm)) (place (.finite .positive m' e' hm')) =
      (compare e e').then (compare m m') := by
  have hmantissa : cmp (m : ℤ) (m' : ℤ) = cmp m m' := Nat.strictMono_cast.cmp_map_eq m m'
  rw [place, place, cmp_toLex, cmp_toLex, cmp_self_eq_eq, hmantissa, cmp_eq_compare, cmp_eq_compare]
  rfl

/-- Below zero the order is the other way round. -/
theorem place_negative (e e' : ℤ) {m m' : ℕ} (hm : 0 < m) (hm' : 0 < m') :
    cmp (place (.finite .negative m e hm)) (place (.finite .negative m' e' hm')) =
      cmp (place (.finite .positive m' e' hm')) (place (.finite .positive m e hm)) := by
  have hanti : StrictAnti (Neg.neg : ℤ → ℤ) := fun _ _ h => neg_lt_neg h
  have hneg (i j : ℤ) : cmp (-i) (-j) = cmp j i := hanti.cmp_map_eq i j
  rw [place, place, place, place, cmp_toLex, cmp_toLex, cmp_toLex, cmp_toLex, cmp_self_eq_eq,
    cmp_self_eq_eq, hneg, hneg]

/-- Doubles that are numbers compare as their places do. -/
theorem compare_eq_cmp {a b : UnpackedFloat} (ha : a.isNaN = false) (hb : b.isNaN = false) :
    a.compare b = some (cmp (place a) (place b)) := by
  cases a with
  | notANumber => cases ha
  | infinity s =>
    cases b with
    | notANumber => cases hb
    | infinity s' => cases s <;> cases s' <;> rfl
    | zero => cases s <;> rfl
    | finite s' => cases s <;> cases s' <;> rfl
  | zero =>
    cases b with
    | notANumber => cases hb
    | zero => rfl
    | infinity s' | finite s' => cases s' <;> rfl
  | finite s m e hm =>
    cases b with
    | notANumber => cases hb
    | infinity s' => cases s <;> cases s' <;> rfl
    | zero => cases s <;> rfl
    | finite s' m' e' hm' =>
      have hpositive := place_positive e e' hm hm'
      cases s <;> cases s'
      · rw [place_negative, ← cmp_swap, hpositive]
        rfl
      · rfl
      · rfl
      · rw [hpositive]
        rfl

def order (x y : Float) : Ordering := cmp (place x.toModel.unpack) (place y.toModel.unpack)

section Order
variable {x y : Float} (hx : x.isNaN = false) (hy : y.isNaN = false)
include hx hy

theorem lt_iff_order : x < y ↔ order x y = .lt := by
  have hlt : x < y ↔ (x.toModel.unpack.compare y.toModel.unpack == some .lt) = true :=
    decide_eq_true_iff
  rw [hlt, compare_eq_cmp hx hy, beq_iff_eq, Option.some.injEq]
  rfl

theorem le_iff_order : x ≤ y ↔ order x y ≠ .gt := by
  have hle : x ≤ y ↔ (x.toModel.unpack.compare y.toModel.unpack).any (·.isLE) = true :=
    decide_eq_true_iff
  rw [hle, compare_eq_cmp hx hy, Option.any_some]
  change (order x y).isLE = true ↔ _
  cases order x y <;> decide

theorem beq_iff_order : (x == y) = true ↔ order x y = .eq := by
  change (x.toModel.unpack.compare y.toModel.unpack == some .eq) = true ↔ _
  rw [compare_eq_cmp hx hy, beq_iff_eq, Option.some.injEq]
  rfl

end Order

section Bits
variable {b : BitVec Format.binary64.numBits}

theorem isNaN_unpack :
    (UnpackedFloat.unpack Format.binary64 b).isNaN = true ↔
      unpackExponent b = -1#_ ∧ unpackMantissa b ≠ 0#_ := by
  unfold UnpackedFloat.unpack
  dsimp only
  split
  · rename_i hexp
    split
    · rename_i hman
      exact ⟨nofun, fun h => absurd hman h.2⟩
    · rename_i hman
      exact ⟨fun _ => ⟨hexp, hman⟩, fun _ => rfl⟩
  · rename_i hexp
    refine ⟨fun h => ?_, fun h => absurd h.1 hexp⟩
    split at h
    · split at h <;> cases h
    · cases h

theorem isNaN_ofBits (bits : UInt64) :
    (Float.ofBits bits).isNaN = true ↔
      bits.toNat / 2 ^ 52 % 2 ^ 11 = 2 ^ 11 - 1 ∧ bits.toNat % 2 ^ 52 ≠ 0 := by
  have hbits : (UnpackedFloat.unpack Format.binary64 bits.toBitVec).isNaN = true ↔ _ :=
    isNaN_unpack
  rw [← BitVec.toNat_inj, Ne, ← BitVec.toNat_inj, toNat_unpackExponent,
    toNat_unpackMantissa] at hbits
  refine Iff.trans ?_ hbits
  change (UnpackedFloat.unpack Format.binary64 (UnpackedFloat.pack Format.binary64
    (UnpackedFloat.unpack Format.binary64 bits.toBitVec))).isNaN = true ↔ _
  rw [pack_unpack]
  split
  · rename_i hnan
    rw [unpack_packedNaN]
    exact ⟨fun _ => isNaN_unpack.mpr (of_decide_eq_true hnan), fun _ => rfl⟩
  · rfl

/-- Packing makes no number out of what is none, nor the other way round. -/
theorem isNaN_unpack_pack (u : UnpackedFloat) :
    (UnpackedFloat.unpack Format.binary64 (UnpackedFloat.pack Format.binary64 u)).isNaN =
      u.isNaN := by
  have hnumber (s : Sign) (e : BitVec 11) (m : BitVec 52) (h : e = -1#11 → m = 0#52) :
      (UnpackedFloat.unpack Format.binary64 (packComponents Format.binary64 s e m)).isNaN =
        false := by
    refine Bool.eq_false_iff.mpr fun hnan => ?_
    rw [isNaN_unpack, unpackExponent_packComponents, unpackMantissa_packComponents] at hnan
    exact hnan.2 (h hnan.1)
  have hinfinity (s : Sign) := hnumber s (-1#11) 0#52 fun _ => rfl
  have hsmall (s : Sign) (m : BitVec 52) := hnumber s 0#11 m fun h => absurd h (by decide)
  cases u with
  | notANumber =>
    rw [UnpackedFloat.pack, unpack_packedNaN]
  | infinity s => exact hinfinity s
  | zero s => exact hsmall s 0#52
  | finite s m e hm =>
    unfold UnpackedFloat.pack
    dsimp only
    split
    · exact hinfinity s
    · rename_i hrange
      split
      · refine hnumber s _ _ fun hfull => absurd (congrArg BitVec.toNat hfull) ?_
        rw [BitVec.toNat_ofNat]
        change ¬2 ^ 11 ≤ _ + 1 at hrange
        change _ % 2 ^ 11 ≠ 2 ^ 11 - 1
        omega
      · exact hsmall s _

end Bits

theorem isNaN_neg (x : Float) : (-x).isNaN = x.isNaN := by
  change (UnpackedFloat.unpack Format.binary64 (UnpackedFloat.pack Format.binary64
    x.toModel.unpack.neg)).isNaN = x.toModel.unpack.isNaN
  rw [isNaN_unpack_pack]
  cases x.toModel.unpack <;> rfl

def Fits (num den : ℕ) (e : ℤ) : Prop := (num : ℚ) < 2 ^ 53 * den * 2 ^ e

theorem fits_iff (num den : ℕ) (e : ℤ) : Fits num den e ↔
    if 0 ≤ e then num < 2 ^ 53 * (den * 2 ^ e.toNat) else num * 2 ^ (-e).toNat < 2 ^ 53 * den := by
  split
  · rename_i he
    obtain ⟨k, rfl⟩ := Int.eq_ofNat_of_zero_le he
    rw [Fits, zpow_natCast, Int.toNat_natCast, mul_assoc]
    exact_mod_cast Iff.rfl
  · rename_i he
    obtain ⟨k, hk⟩ : ∃ k : ℕ, e = -k := ⟨(-e).toNat, by omega⟩
    rw [Fits, hk, zpow_neg, zpow_natCast, neg_neg, Int.toNat_natCast, ← div_eq_mul_inv,
      lt_div_iff₀ (by positivity)]
    exact_mod_cast Iff.rfl

theorem Fits.mono {num den : ℕ} {e e' : ℤ} (h : Fits num den e) (he : e ≤ e') :
    Fits num den e' := by
  refine lt_of_lt_of_le h (mul_le_mul_of_nonneg_left ?_ (by positivity))
  exact zpow_le_zpow_right₀ (by norm_num) he

/-- The scale of a fraction leaves room for it. -/
theorem fits_scaleOf {num den : ℕ} (hden : den ≠ 0) : Fits num den (scaleOf num den) := by
  have hguess : Fits num den ((num.log2 : ℤ) - (den.log2 : ℤ) - 53 + 1) := by
    have hnum : (num : ℚ) < 2 ^ (num.log2 + 1) := by exact_mod_cast Nat.lt_log2_self
    have hlow : (2 : ℚ) ^ den.log2 ≤ den := by exact_mod_cast Nat.log2_self_le hden
    have hscale : (2 : ℚ) ^ (num.log2 + 1) =
        2 ^ 53 * 2 ^ den.log2 * 2 ^ ((num.log2 : ℤ) - (den.log2 : ℤ) - 53 + 1) := by
      rw [← zpow_natCast, ← zpow_natCast, ← zpow_natCast, ← zpow_add₀ (by norm_num),
        ← zpow_add₀ (by norm_num)]
      congr 1
      push_cast
      ring
    refine lt_of_lt_of_le hnum (hscale.trans_le ?_)
    gcongr
  unfold scaleOf
  dsimp only
  refine Fits.mono ?_ (le_max_right _ _)
  generalize (num.log2 : ℤ) - (den.log2 : ℤ) - 53 = guess at hguess
  have htest : (if 0 ≤ guess then decide (num < pow2 53 * (den * pow2 guess.toNat))
      else decide (num * pow2 (-guess).toNat < pow2 53 * den)) = true ↔ Fits num den guess := by
    rw [fits_iff]
    split <;> exact decide_eq_true_iff
  by_cases hfits : Fits num den guess
  · rwa [if_pos (htest.mpr hfits)]
  · rwa [if_neg fun h => hfits (htest.mp h)]

theorem roundAt_scaleOf (num : ℕ) {den : ℕ} (hden : den ≠ 0) :
    roundAt num den (scaleOf num den) ≤ 2 ^ 53 := by
  have hround {n d : ℕ} (h : n < 2 ^ 53 * d) : roundDiv n d ≤ 2 ^ 53 := by
    have hq : n / d < 2 ^ 53 := Nat.div_lt_of_lt_mul (by rwa [Nat.mul_comm])
    rcases roundDiv_cases n d with ⟨heq, -⟩ | ⟨heq, -⟩ <;> omega
  have hfits := (fits_iff num den (scaleOf num den)).mp (fits_scaleOf hden)
  unfold roundAt
  split at hfits
  · rename_i he
    rw [if_pos he]
    exact hround hfits
  · rename_i he
    rw [if_neg he]
    exact hround hfits

/-- The bits of a fraction are at most those of the infinity. -/
theorem packed_le {m : ℕ} (hm : m ≤ 2 ^ 53) (e : ℤ) : packed m e ≤ 2047 * 2 ^ 52 := by
  have hbelow {n : ℕ} (hn : n < 2 ^ 53) (e : ℤ) : packed n e ≤ 2047 * 2 ^ 52 := by
    by_cases hlow : 2 ^ 52 ≤ n
    · rw [packed_of_lt hlow hn]
      split <;> omega
    · have hsize : (n == pow2 53) = false := beq_false_of_ne (Nat.ne_of_lt hn)
      have hbits : n < pow2 52 := Nat.lt_of_not_le hlow
      unfold packed
      simp only [hsize, Bool.false_eq_true, if_false, if_pos hbits]
      omega
  rcases Nat.lt_or_eq_of_le hm with hlt | rfl
  · exact hbelow hlt e
  · rw [packed_carry]
    exact hbelow (by decide) _

theorem isNaN_nearest {den : ℕ} (hden : den ≠ 0) (num : ℕ) :
    (nearest false num den).isNaN = false := by
  have hbits := packed_le (roundAt_scaleOf num hden) (scaleOf num den)
  refine Bool.eq_false_iff.mpr fun hnan => ?_
  unfold nearest at hnan
  rw [isNaN_ofBits, UInt64.toNat_ofNat'] at hnan
  simp only [Bool.false_eq_true, if_false, Nat.add_zero] at hnan
  generalize packed (roundAt num den (scaleOf num den)) (scaleOf num den) = bits at hbits hnan
  omega

/-- What a numeral says is a number. -/
theorem isNaN_ofDecimal (negative : Bool) (digits : ℕ) (exponent : ℤ) :
    (ofDecimal negative digits exponent).isNaN = false := by
  have hmagnitude : (if (digits == 0 ||
        decide (((Nat.toDigits 10 digits).length : ℤ) + exponent < -330)) = true then (0.0 : Float)
      else if 320 < ((Nat.toDigits 10 digits).length : ℤ) + exponent then 1.0 / 0.0
      else nearest false (digits * pow10 exponent.toNat) (pow10 (-exponent).toNat)).isNaN =
        false := by
    split
    · decide
    · split
      · decide
      · exact isNaN_nearest (Nat.pos_iff_ne_zero.mp (Nat.pow_pos (by decide))) _
  unfold ofDecimal
  dsimp only
  split
  · rwa [isNaN_neg]
  · exact hmagnitude

end Scribe.Decimal
