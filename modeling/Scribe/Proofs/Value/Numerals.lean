import Scribe.Proofs.Decimal.Order
import Scribe.Proofs.Script.Numerals
import Scribe.Proofs.Text.OneLine
import Scribe.Value

/-!
# Texts that are numbers

A text with the shape of a numeral is always read as a number, and never as what is no number. Its
case does not matter for that shape: no other character than `E` becomes part of a numeral, or
ceases to be one, when it is lowered.
-/
namespace Scribe

namespace Text

def isNumeralChar (c : Char) : Bool := isDigit c || ['+', '-', '.', 'e', 'E'].contains c

def small (c : Char) : Char := if c = 'E' then 'e' else c

theorem isDigit_small (c : Char) : isDigit (small c) = isDigit c := by
  unfold small
  split
  · rename_i hc
    rw [hc]
    decide
  · rfl

def apartFromNumerals (lo hi : Nat) : Bool :=
  Nat.blt 101 lo && digitZeros.all fun z => Nat.blt hi z || Nat.ble (z + 10) lo

theorem isNumeralChar_of_apart {lo hi : Nat} {c : Char} (h : apartFromNumerals lo hi = true)
    (hlo : lo ≤ c.toNat) (hhi : c.toNat ≤ hi) : isNumeralChar c = false := by
  simp only [apartFromNumerals, Bool.and_eq_true, List.all_eq_true, Bool.or_eq_true,
    Nat.blt_eq, Nat.ble_eq] at h
  obtain ⟨hascii, hzeros⟩ := h
  refine Bool.eq_false_iff.mpr fun hc => ?_
  rw [isNumeralChar, Bool.or_eq_true] at hc
  rcases hc with hd | hsign
  · rcases isDigit_cases hd with hd | ⟨z, hz, hin⟩
    · omega
    · have := hzeros z hz
      omega
  · simp only [List.contains_iff_mem, List.mem_cons, List.not_mem_nil, or_false] at hsign
    have hsmall : c.toNat ≤ 101 := by
      rcases hsign with rfl | rfl | rfl | rfl | rfl <;> decide
    omega

/-- Neither the capitals beyond ASCII nor their lower-case forms are characters of numerals. -/
theorem lowercaseRuns_apart : lowercaseRuns.all (fun (lo, hi, _, shift) =>
    apartFromNumerals lo hi && apartFromNumerals (lo + shift).toNat (hi + shift).toNat) = true := by
  decide +kernel

/-- Lowering a character leaves it, or it moves a capital beyond ASCII past the numerals. -/
theorem lowerChar_cases {c : Char} (hc : ¬c.toNat < 128) :
    lowerChar c = c ∨ isNumeralChar c = false ∧ isNumeralChar (lowerChar c) = false := by
  unfold lowerChar
  rw [if_neg hc]
  split
  · rename_i lo hi step shift hfind
    right
    have happart := List.all_eq_true.mp lowercaseRuns_apart _ (List.mem_of_find?_eq_some hfind)
    have hrun := List.find?_some hfind
    simp only [Bool.and_eq_true, decide_eq_true_eq] at hrun happart
    refine ⟨isNumeralChar_of_apart happart.1 hrun.1.1 hrun.1.2, ?_⟩
    -- A code point that is no character gives the character zero.
    by_cases hvalid : (↑c.toNat + shift).toNat.isValidChar
    · have hcode := Char.toNat_ofNat (↑c.toNat + shift).toNat
      rw [if_pos hvalid] at hcode
      refine isNumeralChar_of_apart happart.2 ?_ ?_ <;> omega
    · have hzero : Char.ofNat (↑c.toNat + shift).toNat = '\x00' := dif_neg hvalid
      rw [hzero]
      decide
  · exact .inl rfl

theorem lowerChar_of_isNumeralChar {c : Char} (h : isNumeralChar c = true) :
    lowerChar c = small c := by
  by_cases hascii : c.toNat < 128
  · have hall : ∀ n : Fin 128, isNumeralChar (Char.ofNat n) = true →
        (Char.ofNat n).toLower = small (Char.ofNat n) := by decide
    have hc := hall ⟨c.toNat, hascii⟩
    rw [Char.ofNat_toNat] at hc
    rw [lowerChar, if_pos hascii]
    exact hc h
  · have hsmall : small c = c := if_neg fun hE => hascii (by rw [hE]; decide)
    rcases lowerChar_cases hascii with hsame | ⟨hnot, -⟩
    · rw [hsame, hsmall]
    · rw [h] at hnot
      cases hnot

theorem isNumeralChar_of_lowerChar {c : Char} (h : isNumeralChar (lowerChar c) = true) :
    isNumeralChar c = true := by
  by_cases hascii : c.toNat < 128
  · have hall : ∀ n : Fin 128, isNumeralChar (Char.ofNat n).toLower = true →
        isNumeralChar (Char.ofNat n) = true := by decide
    have hc := hall ⟨c.toNat, hascii⟩
    rw [Char.ofNat_toNat] at hc
    rw [lowerChar, if_pos hascii] at h
    exact hc h
  · rcases lowerChar_cases hascii with hsame | ⟨-, hnot⟩
    · rwa [hsame] at h
    · rw [h] at hnot
      cases hnot

section Lower
variable {cs : List Char}

theorem lowerAfter_of_numeral {before : List Char} (h : ∀ c ∈ cs, isNumeralChar c = true) :
    lowerAfter before cs = cs.map small := by
  induction cs generalizing before with
  | nil => rfl
  | cons c r ih =>
    obtain ⟨hc, hr⟩ := List.forall_mem_cons.mp h
    have hne (d : Char) (hd : isNumeralChar d = false) : (c == d) = false := by
      refine beq_false_of_ne ?_
      rintro rfl
      rw [hc] at hd
      cases hd
    rw [lowerAfter, ih hr, lowerBetween, hne 'İ' (by decide), hne 'Σ' (by decide),
      lowerChar_of_isNumeralChar hc]
    rfl

theorem numeral_of_lowerAfter {before : List Char}
    (h : ∀ c ∈ lowerAfter before cs, isNumeralChar c = true) :
    ∀ c ∈ cs, isNumeralChar c = true := by
  induction cs generalizing before with
  | nil => exact List.forall_mem_nil _
  | cons c r ih =>
    obtain ⟨hc, hr⟩ := List.forall_mem_append.mp h
    refine List.forall_mem_cons.mpr ⟨?_, ih hr⟩
    unfold lowerBetween at hc
    split at hc
    · exact absurd (hc 'i' (by simp)) (by decide)
    · split at hc
      · have hsigma := hc _ (List.mem_singleton_self _)
        split at hsigma <;> exact absurd hsigma (by decide)
      · exact isNumeralChar_of_lowerChar (hc _ (List.mem_singleton_self _))

end Lower

end Text

namespace Value
open Text Decimal

def behindPoint : List Char → List Char × List Char
  | '.' :: r => (r.takeWhile isDigit, r.dropWhile isDigit)
  | rest => ([], rest)

def isExponent : List Char → Bool
  | [] => true
  | c :: r =>
    (c == 'e' || c == 'E') && !(takeSign r).2.isEmpty && (takeSign r).2.all isDigit

/-- A numeral, part by part. -/
theorem isNumeral_eq (cs : List Char) : isNumeral cs =
    let r := (takeSign cs).2
    let behind := behindPoint (r.dropWhile isDigit)
    (!((r.takeWhile isDigit).isEmpty && behind.1.isEmpty) && isExponent behind.2) := by
  unfold isNumeral
  dsimp only
  generalize (takeSign cs).2.dropWhile isDigit = rest
  split
  · rfl
  · rename_i hother
    rw [behindPoint]
    · rfl
    · exact hother

theorem takeSign_cases (cs : List Char) :
    takeSign cs = (false, cs) ∨ ∃ c r, (c = '+' ∨ c = '-') ∧ cs = c :: r ∧ (takeSign cs).2 = r := by
  unfold takeSign
  split
  · exact .inr ⟨'-', _, .inr rfl, rfl, rfl⟩
  · exact .inr ⟨'+', _, .inl rfl, rfl, rfl⟩
  · exact .inl rfl

theorem behindPoint_cases (rest : List Char) :
    (∃ r, rest = '.' :: r ∧ behindPoint rest = (r.takeWhile isDigit, r.dropWhile isDigit)) ∨
      behindPoint rest = ([], rest) := by
  unfold behindPoint
  split
  · exact .inl ⟨_, rfl, rfl⟩
  · exact .inr rfl

section Small
variable {cs : List Char}

theorem small_eq_iff {c d : Char} (he : d ≠ 'e') (hE : d ≠ 'E') : small c = d ↔ c = d := by
  unfold small
  split
  · rename_i hc
    rw [hc]
    exact ⟨fun h => absurd h.symm he, fun h => absurd h.symm hE⟩
  · rfl

theorem takeSign_small : (takeSign (cs.map small)).2 = (takeSign cs).2.map small := by
  cases cs with
  | nil => rfl
  | cons c r =>
    rw [List.map_cons]
    by_cases hminus : c = '-'
    · subst hminus
      rfl
    by_cases hplus : c = '+'
    · subst hplus
      rfl
    have hother {d : Char} {t : List Char} (hm : d ≠ '-') (hp : d ≠ '+') :
        (takeSign (d :: t)).2 = d :: t := by
      rcases takeSign_cases (d :: t) with h | ⟨e, u, he, heq, -⟩
      · rw [h]
      · cases heq
        exact (he.elim hp hm).elim
    rw [hother hminus hplus, hother (by rwa [Ne, small_eq_iff (by decide) (by decide)])
      (by rwa [Ne, small_eq_iff (by decide) (by decide)]), List.map_cons]

theorem takeWhile_small : (cs.map small).takeWhile isDigit = (cs.takeWhile isDigit).map small := by
  have hdigit : isDigit ∘ small = isDigit := funext isDigit_small
  rw [List.takeWhile_map, hdigit]

theorem dropWhile_small : (cs.map small).dropWhile isDigit = (cs.dropWhile isDigit).map small := by
  have hdigit : isDigit ∘ small = isDigit := funext isDigit_small
  rw [List.dropWhile_map, hdigit]

theorem behindPoint_small :
    behindPoint (cs.map small) = ((behindPoint cs).1.map small, (behindPoint cs).2.map small) := by
  cases cs with
  | nil => rfl
  | cons c r =>
    by_cases hc : c = '.'
    · subst hc
      change ((r.map small).takeWhile isDigit, (r.map small).dropWhile isDigit) = _
      rw [takeWhile_small, dropWhile_small]
      rfl
    · have hother {d : Char} {t : List Char} (hd : d ≠ '.') :
          behindPoint (d :: t) = ([], d :: t) := by
        rcases behindPoint_cases (d :: t) with ⟨u, heq, -⟩ | h
        · cases heq
          exact absurd rfl hd
        · exact h
      rw [List.map_cons, hother hc, hother (by rwa [Ne, small_eq_iff (by decide) (by decide)])]
      rfl

theorem isExponent_small : isExponent (cs.map small) = isExponent cs := by
  cases cs with
  | nil => rfl
  | cons c r =>
    have hletter : (small c == 'e' || small c == 'E') = (c == 'e' || c == 'E') := by
      unfold small
      split
      · rename_i hc
        rw [hc]
        decide
      · rfl
    have hdigit : isDigit ∘ small = isDigit := funext isDigit_small
    rw [List.map_cons, isExponent, isExponent, takeSign_small, hletter, List.isEmpty_map,
      List.all_map, hdigit]

theorem isNumeral_small : isNumeral (cs.map small) = isNumeral cs := by
  rw [isNumeral_eq, isNumeral_eq]
  dsimp only
  rw [takeSign_small, takeWhile_small, dropWhile_small, behindPoint_small, List.isEmpty_map,
    List.isEmpty_map, isExponent_small]

end Small

/-- A numeral has no other characters than those of numerals. -/
theorem numeralChar_of_isNumeral {cs : List Char} (h : isNumeral cs = true) :
    ∀ c ∈ cs, isNumeralChar c = true := by
  have hdigit {c : Char} (hc : isDigit c = true) : isNumeralChar c = true := by
    rw [isNumeralChar, hc, Bool.true_or]
  have hdigits (t : List Char) : ∀ c ∈ t.takeWhile isDigit, isNumeralChar c = true :=
    fun c hc => hdigit (List.all_eq_true.mp List.all_takeWhile c hc)
  have hsign {t : List Char} (ht : ∀ c ∈ (takeSign t).2, isNumeralChar c = true) :
      ∀ c ∈ t, isNumeralChar c = true := by
    rcases takeSign_cases t with hsame | ⟨c, r, hc, rfl, hr⟩
    · rwa [hsame] at ht
    · rw [hr] at ht
      refine List.forall_mem_cons.mpr ⟨?_, ht⟩
      rcases hc with rfl | rfl <;> decide
  have hexponent {t : List Char} (ht : isExponent t = true) : ∀ c ∈ t, isNumeralChar c = true := by
    cases t with
    | nil => exact List.forall_mem_nil _
    | cons c r =>
      simp only [isExponent, Bool.and_eq_true, Bool.or_eq_true, beq_iff_eq] at ht
      obtain ⟨⟨hc, -⟩, hr⟩ := ht
      refine List.forall_mem_cons.mpr ⟨?_, hsign fun d hd => hdigit (List.all_eq_true.mp hr d hd)⟩
      rcases hc with rfl | rfl <;> decide
  rw [isNumeral_eq] at h
  dsimp only at h
  rw [Bool.and_eq_true] at h
  refine hsign ?_
  rw [← List.takeWhile_append_dropWhile (p := isDigit) (l := (takeSign cs).2)]
  refine List.forall_mem_append.mpr ⟨hdigits _, ?_⟩
  rcases behindPoint_cases ((takeSign cs).2.dropWhile isDigit) with ⟨r, hrest, hbehind⟩ | hbehind
  · rw [hrest, ← List.takeWhile_append_dropWhile (p := isDigit) (l := r)]
    rw [hbehind] at h
    exact List.forall_mem_cons.mpr ⟨by decide,
      List.forall_mem_append.mpr ⟨hdigits r, hexponent h.2⟩⟩
  · rw [hbehind] at h
    exact hexponent h.2

/-- Case does not count for whether a text is a number. -/
theorem isNumeral_lower (cs : List Char) : isNumeral (lower cs) = isNumeral cs := by
  by_cases hcs : ∀ c ∈ cs, isNumeralChar c = true
  · rw [lower, lowerAfter_of_numeral hcs, isNumeral_small]
  · have hnot : isNumeral cs = false :=
      Bool.eq_false_iff.mpr fun h => hcs (numeralChar_of_isNumeral h)
    have hlower : isNumeral (lower cs) = false :=
      Bool.eq_false_iff.mpr fun h => hcs (numeral_of_lowerAfter (numeralChar_of_isNumeral h))
    rw [hnot, hlower]

theorem isBlank_of_isNumeralChar {c : Char} (h : isNumeralChar c = true) : isBlank c = false := by
  rw [isNumeralChar, Bool.or_eq_true] at h
  rcases h with hd | hsign
  · exact isBlank_of_isDigit hd
  · simp only [List.contains_iff_mem, List.mem_cons, List.not_mem_nil, or_false] at hsign
    rcases hsign with rfl | rfl | rfl | rfl | rfl <;> decide

theorem toLower_ne_of_isNumeralChar {c : Char} (h : isNumeralChar c = true) : c.toLower ≠ 'n' := by
  by_cases hascii : c.toNat < 128
  · have hall : ∀ n : Fin 128, isNumeralChar (Char.ofNat n) = true →
        (Char.ofNat n).toLower ≠ 'n' := by decide
    have hc := hall ⟨c.toNat, hascii⟩
    rw [Char.ofNat_toNat] at hc
    exact hc h
  · have hsame : c.toLower = c := by
      unfold Char.toLower
      split
      · rename_i hcapital
        have hlast : c.toNat ≤ 90 := UInt32.le_iff_toNat_le.mp hcapital.2
        omega
      · rfl
    rw [hsame]
    rintro rfl
    exact hascii (by decide)

theorem takeDigits_plain {cs : List Char} (h : '_' ∉ cs) (after : Bool) :
    takeDigits after cs = (cs.takeWhile isDigit, cs.dropWhile isDigit) := by
  induction cs generalizing after with
  | nil => rfl
  | cons c r ih =>
    rw [List.mem_cons, not_or] at h
    have hc : (c == '_') = false := beq_false_of_ne (Ne.symm h.1)
    rw [List.takeWhile_cons, List.dropWhile_cons, takeDigits, ih h.2, hc]
    cases isDigit c <;> rfl

theorem exponent?_of_isExponent {cs : List Char} (h : isExponent cs = true) :
    ∃ n, exponent? cs = some n := by
  cases cs with
  | nil => exact ⟨0, rfl⟩
  | cons c r =>
    simp only [isExponent, Bool.and_eq_true, Bool.not_eq_true'] at h
    obtain ⟨⟨hc, hne⟩, hdigits⟩ := h
    have htake : takeDigits false (takeSign r).2 = ((takeSign r).2, []) := by
      have h := takeDigits_append (List.all_eq_true.mp hdigits) (.inl rfl) false
      rwa [List.append_nil] at h
    refine Option.isSome_iff_exists.mp ?_
    simp only [exponent?, hc, if_true, htake, hne, List.isEmpty_nil, Bool.not_true, Bool.or_self,
      Bool.false_eq_true, if_false, Option.isSome_some]

theorem magnitude?_of_parts {cs : List Char} (hplain : '_' ∉ cs)
    (hdigits : ¬((cs.takeWhile isDigit).isEmpty &&
      (behindPoint (cs.dropWhile isDigit)).1.isEmpty) = true)
    (hexponent : isExponent (behindPoint (cs.dropWhile isDigit)).2 = true) (negative : Bool) :
    ∃ digits exponent, magnitude? negative cs = some (ofDecimal negative digits exponent) := by
  obtain ⟨n, hn⟩ := exponent?_of_isExponent hexponent
  unfold magnitude?
  rw [takeDigits_plain hplain]
  dsimp only
  have hrest : '_' ∉ cs.dropWhile isDigit := fun h => hplain ((List.dropWhile_suffix _).subset h)
  generalize cs.dropWhile isDigit = rest at *
  split
  · rename_i r
    have hr : '_' ∉ r := fun h => hrest (List.mem_cons_of_mem _ h)
    rw [takeDigits_plain hr]
    change ¬(_ && (r.takeWhile isDigit).isEmpty) = true at hdigits
    change exponent? (r.dropWhile isDigit) = some n at hn
    dsimp only
    rw [if_neg hdigits, hn]
    exact ⟨_, _, rfl⟩
  · rename_i hother
    rw [behindPoint] at hdigits hn
    · dsimp only
      rw [if_neg hdigits, hn]
      exact ⟨_, _, rfl⟩
    · exact hother
    · exact hother

/-- A numeral is read as a number. -/
theorem read?_of_isNumeral {cs : List Char} (h : isNumeral cs = true) :
    ∃ x, read? cs = some x ∧ x.isNaN = false := by
  have hchars := numeralChar_of_isNumeral h
  have hr : ∀ c ∈ (takeSign cs).2, isNumeralChar c = true := by
    rcases takeSign_cases cs with hsame | ⟨d, r, -, rfl, htail⟩
    · rwa [hsame]
    · rw [htail]
      exact (List.forall_mem_cons.mp hchars).2
  have hunpadded : unpadded cs = cs := by
    have hpadding : ∀ c ∈ cs, isPadding c = false := fun c hc => by
      rw [isPadding, isBlank_of_isNumeralChar (hchars c hc), Bool.false_and]
    have hany (o : Option Char) (ho : ∀ c ∈ o, c ∈ cs) : o.any isPadding = false := by
      cases o with
      | none => rfl
      | some c => exact hpadding c (ho c rfl)
    exact trimWhile_eq_self (hany _ fun c hc => List.mem_of_head? hc)
      (hany _ fun c hc => List.mem_of_getLast? hc)
  have hword {w : List Char} (hw : 'n' ∈ w) :
      (String.ofList ((takeSign cs).2.map Char.toLower) == String.ofList w) = false := by
    refine beq_false_of_ne fun heq => ?_
    rw [String.ofList_inj] at heq
    rw [← heq] at hw
    obtain ⟨c, hc, hlower⟩ := List.mem_map.mp hw
    exact toLower_ne_of_isNumeralChar (hr c hc) hlower
  have hplain : '_' ∉ (takeSign cs).2 := fun h => absurd (hr _ h) (by decide)
  rw [isNumeral_eq] at h
  dsimp only at h
  rw [Bool.and_eq_true, Bool.not_eq_true', Bool.eq_false_iff] at h
  obtain ⟨digits, exponent, hread⟩ := magnitude?_of_parts hplain h.1 h.2 (takeSign cs).1
  refine ⟨_, ?_, isNaN_ofDecimal (takeSign cs).1 digits exponent⟩
  have hinf := hword (w := "inf".toList) (by decide)
  have hinfinity := hword (w := "infinity".toList) (by decide)
  have hnan := hword (w := "nan".toList) (by decide)
  rw [String.ofList_toList] at hinf hinfinity hnan
  simp only [read?, hunpadded, hinf, hinfinity, hnan, Bool.or_self, Bool.false_eq_true, if_false]
  exact hread

/-- A text reads as a number exactly if it has the shape of a numeral, and then it does. -/
theorem toNumber?_text (s : String) :
    (isNumeral (trim s.toList) = true ∧
        ∃ x, (Value.text s).toNumber? = some x ∧ x.isNaN = false) ∨
      isNumeral (trim s.toList) = false ∧ (Value.text s).toNumber? = none := by
  cases h : isNumeral (trim s.toList) with
  | true =>
    obtain ⟨x, hx, hnumber⟩ := read?_of_isNumeral h
    exact .inl ⟨rfl, x, by simp only [toNumber?, h, if_true, hx], hnumber⟩
  | false => exact .inr ⟨rfl, by simp only [toNumber?, h, Bool.false_eq_true, if_false]⟩

end Value

end Scribe
