import Scribe.Proofs.Script.ExpressionCoverage
import Scribe.Proofs.Script.Tokens

/-!
# Numbers in scripts

Digits of any script are no blanks, and what is lexed as a number reads as a number: no token of a
script falls back on a default.
-/
namespace Scribe

namespace Text

theorem digitZeros_apart_blankRanges :
    ∀ z ∈ digitZeros, ∀ r ∈ blankRanges, r.2 < z ∨ z + 10 ≤ r.1 := by decide

theorem isDigit_cases {c : Char} (h : isDigit c = true) :
    48 ≤ c.toNat ∧ c.toNat ≤ 57 ∨ ∃ z ∈ digitZeros, z ≤ c.toNat ∧ c.toNat < z + 10 := by
  unfold isDigit digitValue? at h
  split at h
  · split at h
    · rename_i hd
      left
      simpa [Char.isDigit, UInt32.le_iff_toNat_le] using hd
    · simp at h
  · rw [Option.isSome_map, List.find?_isSome] at h
    obtain ⟨z, hz, hc⟩ := h
    right
    exact ⟨z, hz, by simpa using hc⟩

theorem isBlank_of_isDigit {c : Char} (h : isDigit c = true) : isBlank c = false := by
  unfold isBlank Ranges.has
  rw [List.any_eq_false]
  rintro ⟨lo, hi⟩ hr
  have hbounds : hi < c.toNat ∨ c.toNat < lo := by
    rcases isDigit_cases h with hd | ⟨z, hz, hc⟩
    · have hascii : ∀ r ∈ blankRanges, r.2 < 48 ∨ 57 < r.1 := by decide
      have := hascii _ hr
      omega
    · have := digitZeros_apart_blankRanges z hz _ hr
      omega
  simp only [Bool.and_eq_true, decide_eq_true_eq]
  omega

end Text

namespace Decimal
open Text

theorem takeDigits_append {ds rest : List Char} (hds : ∀ d ∈ ds, isDigit d = true)
    (hrest : rest = [] ∨ ∃ r, rest = '.' :: r) (after : Bool) :
    takeDigits after (ds ++ rest) = (ds, rest) := by
  induction ds generalizing after with
  | nil =>
    rcases hrest with rfl | ⟨r, rfl⟩
    · rfl
    · have hpoint : isDigit '.' = false := by decide
      simp [takeDigits, hpoint]
  | cons d ds ih =>
    have hd : isDigit d = true := hds d (by simp)
    have htail := ih (fun x hx => hds x (by simp [hx])) true
    simp only [List.cons_append, takeDigits, hd, if_true, htail]

/-- Digits with a point among them have a magnitude. -/
theorem magnitude?_isSome {ds rest part : List Char} (hds : ∀ d ∈ ds, isDigit d = true)
    (hne : ds ≠ []) (hpart : ∀ d ∈ part, isDigit d = true)
    (hrest : rest = [] ∨ rest = '.' :: part) (negative : Bool) :
    (magnitude? negative (ds ++ rest)).isSome = true := by
  have hwhole := takeDigits_append hds (hrest.imp_right fun h => ⟨part, h⟩) false
  rcases hrest with rfl | rfl
  · rw [List.append_nil] at hwhole ⊢
    simp [magnitude?, hwhole, hne, exponent?]
  · have hfrac := takeDigits_append hpart (Or.inl rfl) false
    rw [List.append_nil] at hfrac
    simp [magnitude?, hwhole, hfrac, hne, exponent?]

theorem isPadding_of_isDigit {c : Char} (h : isDigit c = true) : isPadding c = false := by
  simp [isPadding, isBlank_of_isDigit h]

theorem unpadded_of_digits {c d : Char} {cs : List Char} (hc : isDigit c = true)
    (hlast : (c :: cs).getLast? = some d) (hd : isDigit d = true) :
    unpadded (c :: cs) = c :: cs := by
  apply trimWhile_eq_self
  · simp [isPadding_of_isDigit hc]
  · simp [hlast, isPadding_of_isDigit hd]

theorem takeSign_of_isDigit {c : Char} (h : isDigit c = true) (cs : List Char) :
    takeSign (c :: cs) = (false, c :: cs) := by
  have hminus : c ≠ '-' := by rintro rfl; revert h; decide
  have hplus : c ≠ '+' := by rintro rfl; revert h; decide
  unfold takeSign
  split
  · rename_i heq
    exact absurd (List.cons.inj heq).1 hminus
  · rename_i heq
    exact absurd (List.cons.inj heq).1 hplus
  · rfl

theorem read?_isSome {c d : Char} {cs : List Char} (hc : isDigit c = true)
    (hlast : (c :: cs).getLast? = some d) (hd : isDigit d = true)
    (hmag : (magnitude? false (c :: cs)).isSome = true) : (read? (c :: cs)).isSome = true := by
  simp only [read?, unpadded_of_digits hc hlast hd, takeSign_of_isDigit hc]
  split
  · rfl
  · split
    · rfl
    · exact hmag

end Decimal

namespace Script
open Text

/-- The shape of a number: digits, or digits around a point. -/
theorem takeNumber_cases {c : Char} (r : List Char) (hc : isDigit c = true) :
    ∃ ds part, (∀ d ∈ c :: ds, isDigit d = true) ∧ (∀ d ∈ part, isDigit d = true) ∧
      (takeNumber (c :: r) = c :: ds ∨
        part ≠ [] ∧ takeNumber (c :: r) = c :: ds ++ '.' :: part) := by
  have hall (cs : List Char) : ∀ d ∈ cs.takeWhile isDigit, isDigit d = true :=
    List.all_eq_true.mp List.all_takeWhile
  have hwhole : (c :: r).takeWhile isDigit = c :: r.takeWhile isDigit := by simp [hc]
  have hds := hall (c :: r)
  rw [hwhole] at hds
  refine ⟨r.takeWhile isDigit, ?_⟩
  simp only [takeNumber, hwhole]
  split
  · rename_i rest hrest
    refine ⟨rest.takeWhile isDigit, hds, hall rest, ?_⟩
    split
    · exact .inl rfl
    · rename_i hne
      exact .inr ⟨by simpa using hne, rfl⟩
  · exact ⟨[], hds, by simp, .inl rfl⟩

theorem read?_takeNumber {c : Char} (r : List Char) (hc : isDigit c = true) :
    (Decimal.read? (takeNumber (c :: r))).isSome = true := by
  obtain ⟨ds, part, hds, hpart, heq | ⟨hne, heq⟩⟩ := takeNumber_cases r hc
  · rw [heq]
    have hlast := List.getLast?_eq_some_getLast (List.cons_ne_nil c ds)
    apply Decimal.read?_isSome hc hlast (hds _ (List.getLast_mem _))
    have hmag := Decimal.magnitude?_isSome hds (by simp) hpart (Or.inl rfl) false
    rwa [List.append_nil] at hmag
  · rw [heq]
    have hlast : (c :: ds ++ '.' :: part).getLast? = some (part.getLast hne) := by
      simp [List.getLast?_append, List.getLast?_cons, List.getLast?_eq_some_getLast hne]
    exact Decimal.read?_isSome hc hlast (hpart _ (List.getLast_mem hne))
      (Decimal.magnitude?_isSome hds (by simp) hpart (Or.inr rfl) false)

theorem lexemeAt_number {c : Char} {r : List Char} {x : Lexeme} (h : lexemeAt c r = .ok x)
    (hk : x.kind = .number) : isDigit c = true ∧ x.text = takeNumber (c :: r) := by
  rcases lexemeAt_cases h with hkind | ⟨hd, -, htext⟩ | hkind | hkind
  · simp [hk] at hkind
  · exact ⟨hd, htext⟩
  · rw [hk] at hkind; cases hkind
  · rw [hk] at hkind; cases hkind

theorem Token.InCode.readable {code : List Char} {t : Token} (h : t.InCode code) :
    t.Readable := by
  intro hk
  cases h with
  | lexeme _ hx hkind ht =>
    obtain ⟨hc, htext⟩ := lexemeAt_number hx (hkind.symm.trans hk)
    rw [ht, htext, String.toList_ofList]
    exact Option.isSome_iff_exists.mp (read?_takeNumber _ hc)
  | raw _ hkind _ => rw [hkind] at hk; cases hk

theorem Token.IsLayout.readable {t : Token} (h : t.IsLayout) : t.Readable := by
  intro hk
  rcases h with h | h | h <;> rw [h] at hk <;> cases hk

/-- Every number of a script that is cut into tokens reads as a number. -/
theorem readable_of_tokenize {source : List Char} {ts : List Token}
    (h : tokenize source = .ok ts) : ∀ t ∈ ts, t.Readable := by
  intro t ht
  rcases tokens_of_tokenize h t ht with hl | ⟨_, _, hc⟩
  · exact hl.readable
  · exact hc.readable

end Script
end Scribe
