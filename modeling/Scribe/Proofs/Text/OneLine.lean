import Scribe.Proofs.Text.Trim
import Scribe.Text.Lowercase
import Scribe.Text.Slice

/-!
# Texts of one line

Cutting, trimming, joining and lowering a text never bring in a line end. Texts of one line that
are joined by line ends come back when the result is cut into lines.
-/
namespace Scribe.Text

variable {cs ds : List Char} {c : Char}

/-- What is true of all characters of a text is decided by going through the text, not through
all characters that there are. -/
instance (priority := high) decidableForallMem (p : Char → Prop) [DecidablePred p]
    (cs : List Char) : Decidable (∀ c ∈ cs, p c) :=
  List.decidableBAll p cs

def OneLine (cs : List Char) : Prop := ∀ c ∈ cs, c ≠ '\n'

instance (cs : List Char) : Decidable (OneLine cs) :=
  inferInstanceAs (Decidable (∀ c ∈ cs, c ≠ '\n'))

theorem OneLine.of_isInfix (h : OneLine cs) (hs : ds <:+: cs) : OneLine ds :=
  fun x hx => h x (hs.subset hx)

@[simp] theorem oneLine_nil : OneLine [] := by simp [OneLine]

@[simp] theorem oneLine_cons : OneLine (c :: cs) ↔ c ≠ '\n' ∧ OneLine cs := by simp [OneLine]

@[simp] theorem oneLine_append : OneLine (cs ++ ds) ↔ OneLine cs ∧ OneLine ds := by
  simp [OneLine, or_imp, forall_and]

theorem OneLine.ite {q : Prop} [Decidable q] (hcs : OneLine cs) (hds : OneLine ds) :
    OneLine (if q then cs else ds) := by
  split
  · exact hcs
  · exact hds

theorem OneLine.trim (h : OneLine cs) : OneLine (trim cs) := h.of_isInfix (trim_isInfix cs)

theorem OneLine.dropEndWhile (h : OneLine cs) (p : Char → Bool) : OneLine (dropEndWhile p cs) :=
  h.of_isInfix (dropEndWhile_isPrefix p cs).isInfix

theorem OneLine.drop (h : OneLine cs) (n : Nat) : OneLine (cs.drop n) :=
  h.of_isInfix (List.drop_suffix n cs).isInfix

theorem OneLine.join {pieces : List (List Char)} (hs : OneLine ds)
    (h : ∀ piece ∈ pieces, OneLine piece) : OneLine (join ds pieces) := by
  unfold Text.join
  induction pieces with
  | nil => simp
  | cons piece rest ih =>
    have hpiece := h piece (by simp)
    have hrest := ih fun x hx => h x (by simp [hx])
    cases rest with
    | nil => simpa using hpiece
    | cons next rest =>
      rw [List.intercalate_cons_cons]
      simp only [oneLine_append]
      exact ⟨⟨hpiece, hs⟩, hrest⟩

/-- Of the capitals beyond ASCII only the Kelvin sign has an ASCII letter as its lower-case form. -/
theorem lowercaseRuns_ascii : ∀ r ∈ lowercaseRuns,
    r.1 = '\u212A'.toNat ∧ r.2.1 = '\u212A'.toNat ∨ 128 ≤ (r.1 : Int) + r.2.2.2 := by
  decide +kernel

theorem ofNat_ne {n : Nat} {d : Char} (hd : 0 < d.toNat) (h : d.toNat < n) : Char.ofNat n ≠ d := by
  rintro rfl
  by_cases hvalid : n.isValidChar
  · have hof : Char.ofNat n = Char.ofNatAux n hvalid := dif_pos hvalid
    rw [hof] at h
    exact absurd h (Nat.lt_irrefl n)
  · have hof : Char.ofNat n = '\x00' := dif_neg hvalid
    rw [hof] at hd
    exact absurd hd (by decide)

/-- What has an ASCII character as its lower-case form. -/
theorem lowerChar_eq_ascii {d : Char} (hd : 0 < d.toNat ∧ d.toNat < 128) (h : lowerChar c = d) :
    c.toNat < 128 ∧ c.toLower = d ∨ c = '\u212A' := by
  unfold lowerChar at h
  split at h
  · rename_i hascii
    exact .inl ⟨hascii, h⟩
  · rename_i hbeyond
    split at h
    · rename_i lo hi step shift hfind
      have hrun := List.find?_some hfind
      simp only [Bool.and_eq_true, decide_eq_true_eq] at hrun
      rcases lowercaseRuns_ascii _ (List.mem_of_find?_eq_some hfind) with ⟨hlo, hhi⟩ | habove
      · exact .inr (Char.toNat_inj.mp (by dsimp only at hlo hhi; omega))
      · exact absurd h (ofNat_ne hd.1 (by dsimp only at habove; omega))
    · rw [h] at hbeyond
      exact absurd hd.2 hbeyond

/-- A character below the letters is the lower-case form of itself only. -/
theorem lowerChar_ne {d : Char} (hd : 0 < d.toNat ∧ d.toNat < 65) (h : c ≠ d) :
    lowerChar c ≠ d := by
  intro hlower
  rcases lowerChar_eq_ascii ⟨hd.1, by omega⟩ hlower with ⟨hascii, hc⟩ | rfl
  · have hall : ∀ n : Fin 128, (Char.ofNat n).toLower = Char.ofNat n ∨
        65 ≤ (Char.ofNat n).toLower.toNat := by decide
    have hsmall := hall ⟨c.toNat, hascii⟩
    rw [Char.ofNat_toNat, hc] at hsmall
    rcases hsmall with hsmall | hsmall
    · exact h hsmall.symm
    · omega
  · have hk : lowerChar '\u212A' = 'k' := by decide +kernel
    rw [← hlower, hk] at hd
    exact absurd hd.2 (by decide)

theorem forall_lowerAfter_ne {d : Char} (hd : 0 < d.toNat ∧ d.toNat < 65) {before : List Char}
    (h : ∀ c ∈ cs, c ≠ d) : ∀ c ∈ lowerAfter before cs, c ≠ d := by
  induction cs generalizing before with
  | nil => simp [Text.lowerAfter]
  | cons c r ih =>
    obtain ⟨hhead, htail⟩ := List.forall_mem_cons.mp h
    refine List.forall_mem_append.mpr ⟨?_, ih htail⟩
    have hne {x : Char} (hx : 65 ≤ x.toNat) : x ≠ d := by
      rintro rfl
      omega
    unfold lowerBetween
    split
    · simp [hne (x := 'i') (by decide), hne (x := '\u0307') (by decide)]
    · split
      · split
        · simp [hne (x := 'ς') (by decide)]
        · simp [hne (x := 'σ') (by decide)]
      · simpa using lowerChar_ne hd hhead

theorem forall_lower_ne {d : Char} (hd : 0 < d.toNat ∧ d.toNat < 65) (h : ∀ c ∈ cs, c ≠ d) :
    ∀ c ∈ lower cs, c ≠ d := forall_lowerAfter_ne hd h

theorem OneLine.lower (h : OneLine cs) : OneLine (lower cs) := forall_lower_ne (by decide) h

theorem splitAt_of_absent {sep : Char} (h : ∀ x ∈ cs, x ≠ sep) : splitAt sep cs = [cs] := by
  induction cs with
  | nil => rfl
  | cons c r ih =>
    have hc : (c == sep) = false := by simpa using h c (by simp)
    simp only [splitAt, hc, Bool.false_eq_true, if_false, ih fun x hx => h x (by simp [hx])]

theorem splitAt_append {sep : Char} (h : ∀ x ∈ cs, x ≠ sep) (rest : List Char) :
    splitAt sep (cs ++ sep :: rest) = cs :: splitAt sep rest := by
  induction cs with
  | nil => simp [splitAt]
  | cons c r ih =>
    have hc : (c == sep) = false := by simpa using h c (by simp)
    simp only [List.cons_append, splitAt, hc, Bool.false_eq_true, if_false,
      ih fun x hx => h x (by simp [hx])]

theorem lines_ne_nil (cs : List Char) : lines cs ≠ [] := by
  unfold lines
  cases cs with
  | nil => simp [splitAt]
  | cons c r =>
    rw [splitAt]
    split
    · simp
    · split <;> simp

theorem oneLine_of_mem_lines {l : List Char} (h : l ∈ lines cs) : OneLine l := by
  unfold lines at h
  induction cs generalizing l with
  | nil => simp [splitAt] at h; simp [h]
  | cons c r ih =>
    simp only [splitAt] at h
    split at h
    · rcases List.mem_cons.mp h with rfl | h
      · simp
      · exact ih h
    · rename_i hc
      have hc : c ≠ '\n' := by simpa using hc
      split at h
      · rw [List.mem_singleton.mp h]
        simpa using hc
      · rename_i piece pieces hsplit
        rcases List.mem_cons.mp h with rfl | h
        · exact oneLine_cons.mpr ⟨hc, ih (by simp [hsplit])⟩
        · exact ih (by simp [hsplit, h])

/-- Lines that are joined come back. -/
theorem lines_joinLines {ls : List (List Char)} (h : ∀ l ∈ ls, OneLine l) (hne : ls ≠ []) :
    lines (joinLines ls) = ls := by
  unfold lines joinLines Text.join
  induction ls with
  | nil => exact absurd rfl hne
  | cons l rest ih =>
    have hl := h l (by simp)
    cases rest with
    | nil => simpa using splitAt_of_absent hl
    | cons next rest =>
      rw [List.intercalate_cons_cons, List.append_assoc, List.singleton_append,
        splitAt_append hl, ih (fun x hx => h x (by simp [hx])) (by simp)]

/-- The lines of a text, joined, are the text. -/
theorem joinLines_lines (cs : List Char) : joinLines (lines cs) = cs := by
  unfold joinLines Text.join lines
  induction cs with
  | nil => rfl
  | cons c r ih =>
    have hne : splitAt '\n' r ≠ [] := lines_ne_nil r
    rw [splitAt]
    cases hsplit : splitAt '\n' r with
    | nil => exact absurd hsplit hne
    | cons piece pieces =>
      rw [hsplit] at ih
      by_cases hc : c = '\n'
      · rw [if_pos (beq_iff_eq.mpr hc), List.intercalate_cons_cons, ih, hc]
        rfl
      · rw [if_neg (by simpa using hc)]
        rw [← ih]
        cases pieces with
        | nil => rfl
        | cons next rest => simp only [List.intercalate_cons_cons, List.cons_append]

/-- The lines of two texts that a line end joins. -/
theorem lines_append (a b : List Char) : lines (a ++ '\n' :: b) = lines a ++ lines b := by
  unfold lines
  induction a with
  | nil => rfl
  | cons c r ih =>
    rw [List.cons_append, splitAt, splitAt, ih]
    split
    · rfl
    · cases hsplit : splitAt '\n' r with
      | nil => exact absurd hsplit (lines_ne_nil r)
      | cons piece pieces => rfl

theorem joinLines_append {ls ms : List (List Char)} (hls : ls ≠ []) (hms : ms ≠ []) :
    joinLines (ls ++ ms) = joinLines ls ++ '\n' :: joinLines ms := by
  unfold joinLines Text.join
  induction ls with
  | nil => exact absurd rfl hls
  | cons l rest ih =>
    cases rest with
    | nil =>
      cases ms with
      | nil => exact absurd rfl hms
      | cons m ms => simp [List.intercalate_cons_cons]
    | cons next rest =>
      have hrest := ih (List.cons_ne_nil next rest)
      rw [List.cons_append] at hrest
      rw [List.cons_append, List.cons_append, List.intercalate_cons_cons,
        List.intercalate_cons_cons, hrest]
      simp

end Scribe.Text
