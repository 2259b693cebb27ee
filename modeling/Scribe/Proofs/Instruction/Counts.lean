import Scribe.Instruction.Expansion
import Scribe.Proofs.Instruction.Unwrap
import Scribe.Proofs.Outcome

/-!
# When an instruction cannot be expanded

A number word is recognised in any case, where a dotted or dotless i and a long s count as letters,
but it is looked up in lower case, where they do not. An instruction whose count is such a word is
the only one that cannot be expanded: every other one has an intent and a script, whatever the
classifier answers.
-/
namespace Scribe.Instruction
open Text Pattern

/-- A letter that counts as an ASCII letter where case does not matter, and is none in lower
case. -/
def isStray (c : Char) : Bool := c == 'ſ' || c == 'ı' || c == 'İ'

def countedWord? (t : List Char) : Option (List Char) :=
  match countMultiplier.search t with
  | some m => some (m.group 1)
  | none => (countWord.search t).map (·.group 1)

/-- A text whose count is a word that is recognised and cannot be looked up. -/
def StrayCount (t : List Char) : Prop :=
  countDigits.search t = none ∧ countCross.search t = none ∧
    ∃ word, countedWord? t = some word ∧ word.any isStray = true

/-- A character that counts as an ASCII letter has that letter as its lower-case form, unless it
is stray. -/
theorem lowerChar_of_fold {c : Char} (hfold : (foldCase c).toNat < 128)
    (hstray : isStray c = false) : lowerChar c = foldCase c := by
  simp only [isStray, Bool.or_eq_false_iff, beq_eq_false_iff_ne] at hstray
  obtain ⟨⟨hlong, hdotless⟩, hdotted⟩ := hstray
  by_cases hascii : c.toNat < 128
  · simp [lowerChar, foldCase, hascii]
  · by_cases hkelvin : c = '\u212A'
    · rw [hkelvin]
      decide +kernel
    · have hself : foldCase c = c := by
        simp [foldCase, hascii, hlong, hdotless, hdotted, hkelvin]
      rw [hself] at hfold
      exact absurd hfold hascii

theorem lowerBetween_of_fold {c : Char} (hfold : (foldCase c).toNat < 128)
    (hstray : isStray c = false) (before after : List Char) :
    lowerBetween before c after = [foldCase c] := by
  have hsigma : c ≠ 'Σ' := by rintro rfl; revert hfold; decide
  have hdotted : c ≠ 'İ' := by rintro rfl; cases hstray
  simp [lowerBetween, hdotted, hsigma, lowerChar_of_fold hfold hstray]

theorem lowerBetween_stray {c : Char} (h : isStray c = true) (before after : List Char) :
    ∃ x ∈ lowerBetween before c after, 128 ≤ x.toNat := by
  simp only [isStray, Bool.or_eq_true, beq_iff_eq] at h
  rcases h with (rfl | rfl) | rfl
  · have hlower : lowerBetween before 'ſ' after = ['ſ'] := rfl
    exact ⟨'ſ', by simp [hlower], by decide⟩
  · have hlower : lowerBetween before 'ı' after = ['ı'] := rfl
    exact ⟨'ı', by simp [hlower], by decide⟩
  · have hlower : lowerBetween before 'İ' after = ['i', '\u0307'] := rfl
    exact ⟨'\u0307', by simp [hlower], by decide⟩

theorem lowerAfter_of_fold {word : List Char} (hfold : ∀ c ∈ word, (foldCase c).toNat < 128)
    (hstray : word.any isStray = false) (before : List Char) :
    lowerAfter before word = word.map foldCase := by
  induction word generalizing before with
  | nil => rfl
  | cons c r ih =>
    simp only [List.any_cons, Bool.or_eq_false_iff] at hstray
    rw [lowerAfter, lowerBetween_of_fold (hfold c (by simp)) hstray.1,
      ih (fun x hx => hfold x (by simp [hx])) hstray.2]
    rfl

theorem lowerAfter_stray {word : List Char} (h : word.any isStray = true) (before : List Char) :
    ∃ x ∈ lowerAfter before word, 128 ≤ x.toNat := by
  induction word generalizing before with
  | nil => cases h
  | cons c r ih =>
    rw [List.any_cons, Bool.or_eq_true] at h
    rw [lowerAfter]
    rcases h with h | h
    · obtain ⟨x, hx, hlarge⟩ := lowerBetween_stray h before r
      exact ⟨x, List.mem_append_left _ hx, hlarge⟩
    · obtain ⟨x, hx, hlarge⟩ := ih h (c :: before)
      exact ⟨x, List.mem_append_right _ hx, hlarge⟩

/-- A word of a table that is recognised is found unless it has a stray letter. -/
theorem lookupCount_eq_error {table : List (String × Nat)} {word : List Char}
    (hascii : ∀ entry ∈ table, ∀ c ∈ entry.1.toList, c.toNat < 128)
    (hword : ∃ s ∈ table.map Prod.fst, word.map foldCase = s.toList) :
    (∃ e, lookupCount table word = .error e) ↔ word.any isStray = true := by
  obtain ⟨s, hs, hfold⟩ := hword
  obtain ⟨entry, hentry, rfl⟩ := List.mem_map.mp hs
  unfold lookupCount
  cases hstray : word.any isStray with
  | true =>
    obtain ⟨x, hx, hlarge⟩ := lowerAfter_stray hstray []
    have hnone : table.lookup (String.ofList (lower word)) = none := by
      rw [List.lookup_eq_none_iff]
      intro e he
      rw [bne_iff_ne]
      intro heq
      have hmem : x ∈ e.1.toList := by
        rw [← heq, String.toList_ofList]
        exact hx
      have := hascii e he x hmem
      omega
    simp [hnone]
  | false =>
    have hletters : ∀ c ∈ word, (foldCase c).toNat < 128 := by
      intro c hc
      have hmem : foldCase c ∈ entry.1.toList := by
        rw [← hfold]
        exact List.mem_map_of_mem hc
      exact hascii entry hentry _ hmem
    have hlower : lower word = entry.1.toList := by
      rw [lower, lowerAfter_of_fold hletters hstray, hfold]
    have hsome : (table.lookup entry.1).isSome = true := by
      rw [List.lookup_isSome_iff]
      exact ⟨entry, hentry, by simp⟩
    rw [hlower, String.ofList_toList]
    obtain ⟨n, hn⟩ := Option.isSome_iff_exists.mp hsome
    simp [hn]

theorem countMultiplier_word {t : List Char} {m : Match} (h : countMultiplier.search t = some m) :
    ∃ s ∈ multipliers.map Prod.fst, (m.group 1).map foldCase = s.toList := by
  have hgroup : countMultiplier.GroupIn 1
      fun cs => ∃ s ∈ multipliers.map Prod.fst, cs.map foldCase = s.toList := by
    have hwords := covers_words (multipliers.map Prod.fst)
    simp only [countMultiplier, groupIn_append, groupIn_group, groupIn_edge, groupIn_words]
    exact ⟨⟨trivial, fun _ => hwords, trivial⟩, trivial⟩
  exact search_group hgroup (by simp [countMultiplier]) h

theorem countWord_word {t : List Char} {m : Match} (h : countWord.search t = some m) :
    ∃ s ∈ numberWords.map Prod.fst, (m.group 1).map foldCase = s.toList := by
  have hgroup : countWord.GroupIn 1
      fun cs => ∃ s ∈ numberWords.map Prod.fst, cs.map foldCase = s.toList := by
    have hwords := covers_words (numberWords.map Prod.fst)
    simp only [countWord, timesWord, groupIn_append, groupIn_group, groupIn_edge, groupIn_words,
      groupIn_blanks1, groupIn_word, groupIn_opt]
    exact ⟨⟨⟨trivial, fun _ => hwords, trivial⟩, trivial⟩, ⟨trivial, trivial⟩, trivial⟩
  exact search_group hgroup (by simp [countWord]) h

/-- A count fails exactly if it is a word that cannot be looked up. -/
theorem loopCount_error_iff (cs : List Char) :
    (∃ e, loopCount cs = .error e) ↔ StrayCount (unwrap cs) := by
  have hmultipliers : ∀ entry ∈ multipliers, ∀ c ∈ entry.1.toList, c.toNat < 128 := by decide
  have hnumbers : ∀ entry ∈ numberWords, ∀ c ∈ entry.1.toList, c.toNat < 128 := by decide
  simp only [loopCount, StrayCount, countedWord?]
  cases hdigits : countDigits.search (unwrap cs) with
  | some m => simp
  | none =>
    cases hcross : countCross.search (unwrap cs) with
    | some m => simp
    | none =>
      cases hmult : countMultiplier.search (unwrap cs) with
      | some m =>
        simpa using lookupCount_eq_error hmultipliers (countMultiplier_word hmult)
      | none =>
        cases hword : countWord.search (unwrap cs) with
        | some m => simpa using lookupCount_eq_error hnumbers (countWord_word hword)
        | none => simp

end Scribe.Instruction
