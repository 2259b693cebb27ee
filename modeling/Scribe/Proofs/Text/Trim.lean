import Scribe.Text.Blank

/-!
# What trimming leaves

Trimming takes characters off the ends of a text and nothing else, so what is left stands in the
text as one piece; a text whose ends are kept stays as it is.
-/
namespace Scribe.Text

/-- What is dropped at the end of a text is what was to be dropped. -/
theorem dropEndWhile_rest (p : Char → Bool) (cs : List Char) :
    ∃ e, cs = dropEndWhile p cs ++ e ∧ ∀ c ∈ e, p c = true := by
  refine ⟨(cs.reverse.takeWhile p).reverse, ?_, fun c hc => ?_⟩
  · rw [dropEndWhile, ← List.reverse_append, List.takeWhile_append_dropWhile, List.reverse_reverse]
  · exact List.all_eq_true.mp List.all_takeWhile c (List.mem_reverse.mp hc)

theorem dropEndWhile_isPrefix (p : Char → Bool) (cs : List Char) : dropEndWhile p cs <+: cs := by
  obtain ⟨e, he, -⟩ := dropEndWhile_rest p cs
  exact ⟨e, he.symm⟩

/-- What is dropped at the end of a text may as well not stand there. -/
theorem dropEndWhile_append_dropped {p : Char → Bool} {e : List Char} (he : ∀ c ∈ e, p c = true)
    (cs : List Char) : dropEndWhile p (cs ++ e) = dropEndWhile p cs := by
  rw [dropEndWhile, List.reverse_append,
    List.dropWhile_append_of_pos fun c hc => he c (List.mem_reverse.mp hc)]
  rfl

theorem dropEndWhile_behind {p : Char → Bool} (a : List Char) {b : List Char}
    (h : dropEndWhile p b ≠ []) : dropEndWhile p (a ++ b) = a ++ dropEndWhile p b := by
  unfold dropEndWhile at h ⊢
  rw [List.reverse_append, List.dropWhile_append, if_neg]
  · simp
  · intro hempty
    rw [List.isEmpty_iff.mp hempty] at h
    exact h rfl

/-- What stands behind a text does not count exactly if it is dropped. -/
theorem dropEndWhile_append_eq_iff {p : Char → Bool} {a b : List Char} :
    dropEndWhile p (a ++ b) = dropEndWhile p a ↔ ∀ c ∈ b, p c = true := by
  refine ⟨fun h c hc => ?_, fun h => dropEndWhile_append_dropped h a⟩
  obtain ⟨e, he, hdropped⟩ := dropEndWhile_rest p b
  by_cases hkept : dropEndWhile p b = []
  · rw [hkept, List.nil_append] at he
    exact hdropped c (he ▸ hc)
  · -- Something of `b` would be kept, and all of `a` before it.
    rw [dropEndWhile_behind a hkept] at h
    have hlength := (dropEndWhile_isPrefix p a).length_le
    rw [← h, List.length_append] at hlength
    have hpositive := List.length_pos_iff.mpr hkept
    omega

/-- What is dropped along with more does not have to be dropped first. -/
theorem dropEndWhile_dropEndWhile {p q : Char → Bool} (h : ∀ c, q c = true → p c = true)
    (cs : List Char) : dropEndWhile p (dropEndWhile q cs) = dropEndWhile p cs := by
  obtain ⟨e, he, hdropped⟩ := dropEndWhile_rest q cs
  have hmore := dropEndWhile_append_dropped (fun c hc => h c (hdropped c hc)) (dropEndWhile q cs)
  rwa [← he, eq_comm] at hmore

theorem trimWhile_isInfix (p : Char → Bool) (cs : List Char) : trimWhile p cs <:+: cs :=
  (dropEndWhile_isPrefix p _).isInfix.trans (List.dropWhile_suffix p).isInfix

theorem trim_isInfix (cs : List Char) : trim cs <:+: cs := trimWhile_isInfix isBlank cs

theorem dropWhile_eq_self {p : Char → Bool} {cs : List Char} (h : cs.head?.any p = false) :
    cs.dropWhile p = cs := by
  cases cs with
  | nil => rfl
  | cons c r => exact List.dropWhile_cons_of_neg (by simpa using h)

theorem dropEndWhile_eq_self {p : Char → Bool} {cs : List Char} (h : cs.getLast?.any p = false) :
    dropEndWhile p cs = cs := by
  unfold dropEndWhile
  rw [dropWhile_eq_self (by rwa [List.head?_reverse]), List.reverse_reverse]

theorem dropEndWhile_append {p : Char → Bool} {a : List Char} (ha : a.getLast?.any p = false)
    (b : List Char) : dropEndWhile p (a ++ b) = a ++ dropEndWhile p b := by
  unfold dropEndWhile
  rw [List.reverse_append, List.dropWhile_append]
  split
  · rename_i hb
    rw [List.isEmpty_iff.mp hb, dropWhile_eq_self (by rwa [List.head?_reverse])]
    simp
  · simp

theorem trimWhile_eq_self {p : Char → Bool} {cs : List Char} (hh : cs.head?.any p = false)
    (hl : cs.getLast?.any p = false) : trimWhile p cs = cs := by
  unfold trimWhile
  rw [dropWhile_eq_self hh, dropEndWhile_eq_self hl]

theorem head?_dropWhile_any (p : Char → Bool) (cs : List Char) :
    (cs.dropWhile p).head?.any p = false := by
  have h := List.head?_dropWhile_not p cs
  cases hd : (cs.dropWhile p).head? with
  | none => rfl
  | some c =>
    rw [hd] at h
    simpa using h

theorem head?_any_of_isPrefix {p : Char → Bool} {a b : List Char} (h : a <+: b)
    (hb : b.head?.any p = false) : a.head?.any p = false := by
  obtain ⟨e, rfl⟩ := h
  cases a with
  | nil => rfl
  | cons c r => exact hb

theorem head?_trimWhile (p : Char → Bool) (cs : List Char) :
    (trimWhile p cs).head?.any p = false :=
  head?_any_of_isPrefix (dropEndWhile_isPrefix p _) (head?_dropWhile_any p cs)

theorem head?_trim (cs : List Char) : (trim cs).head?.any isBlank = false :=
  head?_trimWhile isBlank cs

theorem getLast?_dropEndWhile (p : Char → Bool) (cs : List Char) :
    (dropEndWhile p cs).getLast?.any p = false := by
  unfold dropEndWhile
  rw [List.getLast?_reverse]
  exact head?_dropWhile_any p cs.reverse

/-- A text that has been trimmed has nothing more to trim. -/
theorem getLast?_trimWhile (p : Char → Bool) (cs : List Char) :
    (trimWhile p cs).getLast?.any p = false := getLast?_dropEndWhile p _

theorem trimWhile_eq_self_iff {p : Char → Bool} {cs : List Char} :
    trimWhile p cs = cs ↔ cs.head?.any p = false ∧ cs.getLast?.any p = false := by
  refine ⟨fun h => ?_, fun h => trimWhile_eq_self h.1 h.2⟩
  have hhead := head?_trimWhile p cs
  have hlast := getLast?_trimWhile p cs
  rw [h] at hhead hlast
  exact ⟨hhead, hlast⟩

theorem trim_trim (cs : List Char) : trim (trim cs) = trim cs :=
  trimWhile_eq_self (head?_trim cs) (getLast?_dropEndWhile isBlank _)

/-- Blanks behind a text do not count. -/
theorem trim_append_blanks {e : List Char} (he : ∀ c ∈ e, isBlank c = true) (cs : List Char) :
    trim (cs ++ e) = trim cs := by
  have hnone : (e ++ []).dropWhile isBlank = [] := List.dropWhile_append_of_pos he
  rw [List.append_nil] at hnone
  rw [trim, trimWhile, List.dropWhile_append]
  split
  · rename_i hempty
    rw [hnone, trim, trimWhile, List.isEmpty_iff.mp hempty]
  · exact dropEndWhile_append_dropped he _

theorem trim_trimEnd (cs : List Char) : trim (trimEnd cs) = trim cs := by
  obtain ⟨e, hcs, he⟩ := dropEndWhile_rest isBlank cs
  have hrest := trim_append_blanks he (trimEnd cs)
  rwa [show trimEnd cs ++ e = cs from hcs.symm, eq_comm] at hrest

/-- A text that starts with no blank is trimmed at its end only. -/
theorem trim_eq_trimEnd {cs : List Char} (h : cs.head?.any isBlank = false) :
    trim cs = trimEnd cs :=
  congrArg (dropEndWhile isBlank) (dropWhile_eq_self h)

theorem trim_cons {c : Char} (h : isBlank c = true) (r : List Char) : trim (c :: r) = trim r := by
  rw [trim, trimWhile, List.dropWhile_cons_of_pos h]
  rfl

/-- Nothing is dropped between blanks exactly if nothing is dropped and there are no blanks. -/
theorem trim_trimWhile_trim_eq_self_iff {p : Char → Bool} {cs : List Char} :
    trim (trimWhile p (trim cs)) = cs ↔ trim cs = cs ∧ trimWhile p cs = cs := by
  refine ⟨fun h => ?_, fun h => by rw [h.1, h.2, h.1]⟩
  have hinner := trim_isInfix (trimWhile p (trim cs))
  have hdropped := trimWhile_isInfix p (trim cs)
  have houter := trim_isInfix cs
  rw [h] at hinner
  have hlength := Nat.le_trans hinner.length_le hdropped.length_le
  have htrim := houter.eq_of_length (Nat.le_antisymm houter.length_le hlength)
  rw [htrim] at hinner hdropped
  exact ⟨htrim, hdropped.eq_of_length (Nat.le_antisymm hdropped.length_le hinner.length_le)⟩

theorem trim_length_le (cs : List Char) : (trim cs).length ≤ cs.length :=
  (trim_isInfix cs).length_le

/-- A text that starts with a character which is not blank does not vanish when it is trimmed. -/
theorem isEmpty_trim_cons {c : Char} (h : isBlank c = false) (r : List Char) :
    (trim (c :: r)).isEmpty = false := by
  obtain ⟨e, he, hblank⟩ := dropEndWhile_rest isBlank (c :: r)
  rw [trim_eq_trimEnd (by simpa using h), trimEnd]
  cases hkept : dropEndWhile isBlank (c :: r) with
  | cons d s => rfl
  | nil =>
    rw [hkept, List.nil_append] at he
    rw [hblank c (he ▸ List.mem_cons_self)] at h
    cases h

end Scribe.Text
