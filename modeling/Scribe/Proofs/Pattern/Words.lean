import Scribe.Proofs.Pattern.Spans

/-!
# Words that a pattern spells

A letter that counts as an ASCII letter is a word character and no digit, and blanks are none. So
the word that a pattern spells is a word of the text, and where an edge must follow it, the word
ends there.
-/
namespace Scribe

namespace Text

/-- What is true of all ASCII characters is decided by going through them. -/
theorem forall_ascii {P : Char → Prop} (h : ∀ n : Fin 128, P (Char.ofNat n)) {c : Char}
    (hc : c.toNat < 128) : P c := by
  have hall := h ⟨c.toNat, hc⟩
  rwa [Char.ofNat_toNat] at hall

theorem alphanumericRanges_apart_blankRanges :
    ∀ r ∈ alphanumericRanges, ∀ b ∈ blankRanges, b.2 < r.1 ∨ r.2 < b.1 := by decide +kernel

theorem isWordChar_of_isBlank {c : Char} (h : isBlank c = true) : isWordChar c = false := by
  have hword : c ≠ '_' := by
    rintro rfl
    revert h
    decide
  by_cases hascii : c.toNat < 128
  · exact forall_ascii (P := fun c => isBlank c = true → isWordChar c = false) (by decide) hascii h
  · unfold isBlank Ranges.has at h
    obtain ⟨⟨lo, hi⟩, hblank, hin⟩ := List.any_eq_true.mp h
    simp only [Bool.and_eq_true, decide_eq_true_eq] at hin
    have hranges : alphanumericRanges.has c = false := by
      unfold Ranges.has
      rw [List.any_eq_false]
      rintro ⟨lo', hi'⟩ hr
      have happart := alphanumericRanges_apart_blankRanges _ hr _ hblank
      simp only [Bool.and_eq_true, decide_eq_true_eq]
      dsimp only at happart
      omega
    simp [isWordChar, isAlphanumeric, hword, hascii, hranges]

theorem isBlank_of_isWordChar {c : Char} (h : isWordChar c = true) : isBlank c = false := by
  rw [Bool.eq_false_iff]
  intro hblank
  rw [isWordChar_of_isBlank hblank] at h
  cases h

end Text

namespace Pattern
open Text

theorem toNat_lt_of_isNameStart {c : Char} (h : isNameStart c = true) : c.toNat < 128 := by
  change ((decide (65 ≤ c.val ∧ c.val ≤ 90) || (decide (97 ≤ c.val) && decide (c.val ≤ 122))) ||
    c == '_') = true at h
  simp only [Bool.or_eq_true, Bool.and_eq_true, decide_eq_true_eq, beq_iff_eq,
    UInt32.le_iff_toNat_le] at h
  rcases h with (⟨_, h⟩ | ⟨_, h⟩) | rfl
  · exact Nat.lt_of_le_of_lt h (by decide)
  · exact Nat.lt_of_le_of_lt h (by decide)
  · decide

/-- What is true of the ASCII characters that start a name and of the four letters beyond ASCII
that count as such is true of every character that can start a name in any case. -/
theorem of_isNameStart_foldCase {P : Char → Prop}
    (hascii : ∀ n : Fin 128, isNameStart (foldCase (Char.ofNat n)) = true → P (Char.ofNat n))
    (hothers : P 'İ' ∧ P 'ı' ∧ P 'ſ' ∧ P '\u212A') {c : Char}
    (h : isNameStart (foldCase c) = true) : P c := by
  obtain ⟨hdotted, hdotless, hlong, hkelvin⟩ := hothers
  by_cases hc : c.toNat < 128
  · exact forall_ascii (P := fun c => isNameStart (foldCase c) = true → P c) hascii hc h
  · unfold foldCase at h
    rw [if_neg hc] at h
    split at h
    · rename_i hi
      rw [Bool.or_eq_true, beq_iff_eq, beq_iff_eq] at hi
      rcases hi with rfl | rfl
      · exact hdotted
      · exact hdotless
    · split at h
      · rename_i hs
        rw [beq_iff_eq.mp hs]
        exact hlong
      · split at h
        · rename_i hk
          rw [beq_iff_eq.mp hk]
          exact hkelvin
        · exact absurd (toNat_lt_of_isNameStart h) hc

theorem isWordChar_of_isNameStart {c : Char} (h : isNameStart (foldCase c) = true) :
    isWordChar c = true :=
  of_isNameStart_foldCase (P := fun c => isWordChar c = true) (by decide)
    ⟨by decide, by decide, by decide, by decide +kernel⟩ h

theorem isDigit_of_isNameStart {c : Char} (h : isNameStart (foldCase c) = true) :
    isDigit c = false :=
  of_isNameStart_foldCase (P := fun c => isDigit c = false) (by decide)
    ⟨by decide, by decide, by decide, by decide⟩ h

def OfLetters (ss : List String) : Prop :=
  ∀ s ∈ ss, s.toList ≠ [] ∧ ∀ c ∈ s.toList, isNameStart c = true

instance (ss : List String) : Decidable (OfLetters ss) :=
  inferInstanceAs (Decidable (∀ s ∈ ss, s.toList ≠ [] ∧ ∀ c ∈ s.toList, isNameStart c = true))

theorem isWord_of_fold {w : List Char} {s : String} (hs : ∀ c ∈ s.toList, isNameStart c = true)
    (h : w.map foldCase = s.toList) : ∀ c ∈ w, isWordChar c = true ∧ isDigit c = false := by
  intro c hc
  have hstart : isNameStart (foldCase c) = true := by
    apply hs
    rw [← h]
    exact List.mem_map_of_mem hc
  exact ⟨isWordChar_of_isNameStart hstart, isDigit_of_isNameStart hstart⟩

theorem head_blanks {bs y : List Char} (hbs : ∀ b ∈ bs, isBlank b = true)
    (hy : y.head?.any isWordChar = false) : (bs ++ y).head?.any isWordChar = false := by
  cases bs with
  | nil => exact hy
  | cons b bs => simpa using isWordChar_of_isBlank (hbs b (by simp))

theorem covers_startedName : anyName.Covers fun cs => cs ≠ [] ∧ ∀ c ∈ cs, isWordChar c = true := by
  have hmany : (many wordChar).Covers fun cs => ∀ c ∈ cs, isWordChar c = true :=
    covers_of_only fun _ hx => hx
  intro c d cs h hcs
  obtain ⟨a, r, rfl, ⟨x, rfl, hx⟩, hr⟩ := covers_append (covers_one _) hmany h hcs
  exact ⟨List.cons_ne_nil _ _, List.forall_mem_cons.mpr ⟨isWordChar_of_isNameStart hx, hr⟩⟩

variable {p : Pattern} {c d : Cursor}

/-- The character before the end of a match is the last one that it covers. -/
theorem Spans.behind (h : Spans p c d) :
    ∃ cs, c.rest = cs ++ d.rest ∧ d.behind = cs.getLast?.or c.behind := by
  have join {c d e : Cursor}
      (hcd : ∃ cs, c.rest = cs ++ d.rest ∧ d.behind = cs.getLast?.or c.behind)
      (hde : ∃ cs, d.rest = cs ++ e.rest ∧ e.behind = cs.getLast?.or d.behind) :
      ∃ cs, c.rest = cs ++ e.rest ∧ e.behind = cs.getLast?.or c.behind := by
    obtain ⟨as, has, hbehind⟩ := hcd
    obtain ⟨bs, hbs, hbehind'⟩ := hde
    refine ⟨as ++ bs, by rw [has, hbs, List.append_assoc], ?_⟩
    rw [hbehind', hbehind, List.getLast?_append, Option.or_assoc]
  have nothing (c : Cursor) : ∃ cs, c.rest = cs ++ c.rest ∧ c.behind = cs.getLast?.or c.behind :=
    ⟨[], rfl, rfl⟩
  induction h with
  | @one _ x _ _ _ _ => exact ⟨[x], rfl, rfl⟩
  | seq _ _ ihp ihq => exact join ihp ihq
  | altLeft _ ih => exact ih
  | altRight _ ih => exact ih
  | manyCons _ _ ih ihrest => exact join ih ihrest
  | lazyCons _ _ ih ihrest => exact join ih ihrest
  | group _ ih => exact ih
  | _ => exact nothing _

/-- The word that a pattern spells, and the character before its end. -/
theorem spans_words {ss : List String} (h : Spans (words ss) c d) :
    ∃ w, ∃ s ∈ ss, w.map foldCase = s.toList ∧ c.rest = w ++ d.rest ∧
      d.behind = w.getLast?.or c.behind := by
  obtain ⟨w, hrest, hbehind⟩ := h.behind
  obtain ⟨s, hs, hfold⟩ := covers_words ss h hrest
  exact ⟨w, s, hs, hfold, hrest, hbehind⟩

/-- Where a word character stands before an edge, none follows. -/
theorem Cursor.atEdge_of_word (h : c.atEdge = true) (hbehind : c.behind.any isWordChar = true) :
    c.rest.head?.any isWordChar = false := by
  unfold Cursor.atEdge at h
  rw [hbehind] at h
  simpa using h

end Pattern
end Scribe
