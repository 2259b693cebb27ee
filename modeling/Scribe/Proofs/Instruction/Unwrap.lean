import Scribe.Proofs.Instruction.OneLine

/-!
# Unwrapping is final

What is left when the quotes around a text are taken off has no blanks at its ends and no quotes
around it, so unwrapping it again changes nothing. More quotes around the text do not change what
is left either.
-/
namespace Scribe.Instruction
open Text

theorem peel_of_not_wrapped {n : Nat} {cs : List Char} (h : isWrapped cs = false) :
    peel n cs = cs := by
  cases n with
  | zero => rfl
  | succ n => simp [peel, h]

theorem trim_peel (n : Nat) {cs : List Char} (h : trim cs = cs) :
    trim (peel n cs) = peel n cs := by
  induction n generalizing cs with
  | zero => exact h
  | succ n ih =>
    unfold peel
    split
    · exact ih (trim_trim _)
    · exact h

theorem two_le_of_isWrapped {cs : List Char} (h : isWrapped cs = true) : 2 ≤ cs.length := by
  simp only [isWrapped, Bool.and_eq_true, decide_eq_true_eq] at h
  exact h.1.1

theorem length_trim_inner (cs : List Char) : (trim (inner cs)).length ≤ cs.length - 2 := by
  have hinner : (inner cs).length = cs.length - 1 - 1 := by simp [inner]
  have htrim := trim_length_le (inner cs)
  omega

/-- Enough steps take off all quotes: each of them makes the text shorter. -/
theorem not_isWrapped_peel (n : Nat) {cs : List Char} (h : cs.length ≤ n) :
    isWrapped (peel n cs) = false := by
  induction n generalizing cs with
  | zero =>
    have hnil : cs = [] := List.length_eq_zero_iff.mp (Nat.le_zero.mp h)
    rw [hnil]
    rfl
  | succ n ih =>
    unfold peel
    split
    · rename_i hw
      have hlen := two_le_of_isWrapped hw
      have hshorter := length_trim_inner cs
      exact ih (by omega)
    · rename_i hw
      simpa using hw

/-- More than enough steps take off no more. -/
theorem peel_eq_peel {n m : Nat} {cs : List Char} (hn : cs.length ≤ n) (hm : cs.length ≤ m) :
    peel n cs = peel m cs := by
  induction n generalizing m cs with
  | zero =>
    have hnil : cs = [] := List.length_eq_zero_iff.mp (Nat.le_zero.mp hn)
    rw [peel, hnil, peel_of_not_wrapped rfl]
  | succ n ih =>
    cases hw : isWrapped cs with
    | false => rw [peel_of_not_wrapped hw, peel_of_not_wrapped hw]
    | true =>
      have hlen := two_le_of_isWrapped hw
      have hshorter := length_trim_inner cs
      obtain ⟨m, rfl⟩ : ∃ k, m = k + 1 := ⟨m - 1, by omega⟩
      simp only [peel, hw, if_true]
      exact ih (by omega) (by omega)

theorem isWrapped_unwrap (cs : List Char) : isWrapped (unwrap cs) = false :=
  not_isWrapped_peel _ (trim_length_le cs)

theorem trim_unwrap (cs : List Char) : trim (unwrap cs) = unwrap cs := trim_peel _ (trim_trim cs)

theorem unwrap_unwrap (cs : List Char) : unwrap (unwrap cs) = unwrap cs := by
  rw [unwrap, trim_unwrap]
  exact peel_of_not_wrapped (isWrapped_unwrap cs)

/-- A text in pairs of quotes, the first one outermost. -/
def wrapIn (quotes : List Char) (cs : List Char) : List Char :=
  quotes.foldr (fun q cs => q :: cs ++ [q]) cs

theorem isBlank_of_isQuote {q : Char} (h : isQuote q = true) : isBlank q = false := by
  rw [isQuote, Bool.or_eq_true, beq_iff_eq, beq_iff_eq] at h
  rcases h with rfl | rfl <;> decide

theorem isWrapped_pair {q : Char} (h : isQuote q = true) (cs : List Char) :
    isWrapped (q :: cs ++ [q]) = true := by
  rw [isWrapped, List.getLast?_concat]
  simp [h]

theorem unwrap_pair {q : Char} (h : isQuote q = true) (cs : List Char) :
    unwrap (q :: cs ++ [q]) = unwrap cs := by
  have hblank := isBlank_of_isQuote h
  have htrim : trim (q :: cs ++ [q]) = q :: cs ++ [q] :=
    trimWhile_eq_self (by simp [hblank]) (by rw [List.getLast?_concat]; simpa using hblank)
  have hinner : inner (q :: cs ++ [q]) = cs := List.dropLast_concat
  have hlength : (q :: cs ++ [q]).length = cs.length + 2 := by simp
  rw [unwrap, htrim, hlength, peel, if_pos (isWrapped_pair h cs), hinner]
  exact peel_eq_peel (Nat.le_succ_of_le (trim_length_le cs)) (trim_length_le cs)

theorem unwrap_wrapIn {quotes : List Char} (h : ∀ q ∈ quotes, isQuote q = true) (cs : List Char) :
    unwrap (wrapIn quotes cs) = unwrap cs := by
  induction quotes with
  | nil => rfl
  | cons q quotes ih =>
    obtain ⟨hq, hquotes⟩ := List.forall_mem_cons.mp h
    exact (unwrap_pair hq _).trans (ih hquotes)

/-- No pair of quotes stands around what is left. -/
theorem unwrap_ne_pair {q : Char} (h : isQuote q = true) (cs w : List Char) :
    unwrap cs ≠ q :: w ++ [q] := by
  intro hpair
  have hwrapped := isWrapped_unwrap cs
  rw [hpair, isWrapped_pair h w] at hwrapped
  cases hwrapped

end Scribe.Instruction
