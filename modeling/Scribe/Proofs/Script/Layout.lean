import Scribe.Proofs.Script.TermReading

/-!
# Lines at a depth

A line at depth `d` stands `4 * d` spaces in, and the levels that are open there are those of the
blocks around it. A block is closed by the next line that is not as deep, or by the end of the
script; either way the tokens are the same as if it had been closed right behind its last line.
So lines can be put together from a line, lines that follow, and a block one level further in.
-/
namespace Scribe.Script
open Text

structure CodeLine (w : List Char) (P : Nat → List Token → Prop) : Prop where
  oneLine : OneLine w
  starts : ∃ c r, codeOf w = c :: r ∧ c ≠ ' ' ∧ c ≠ '\t'
  cut : ∀ line column, ∃ ts, P line ts ∧ lexFrom line [] column 0 (codeOf w) = .ok ts

/-- Where a line stands does not matter for its code. -/
theorem CodeLine.code {w : List Char} {P : Nat → List Token → Prop} (h : CodeLine w P) (k : Nat) :
    codeOf (List.replicate k ' ' ++ w) = List.replicate k ' ' ++ codeOf w := by
  obtain ⟨c, r, hcode, -, -⟩ := h.starts
  have hne : codeOf w ≠ [] := by simp [hcode]
  have hpad : ∀ c ∈ List.replicate k ' ', c ≠ '"' ∧ c ≠ '#' ∧ c ≠ '/' := by
    intro c hc
    rw [List.eq_of_mem_replicate hc]
    decide
  unfold codeOf trimEnd stripComment at hne ⊢
  rw [stripCommentFrom_append hpad, dropEndWhile_behind _ hne]

/-- The tokens of a line at an indentation: its block marks, its own tokens and its end. -/
theorem CodeLine.lexLine {w : List Char} {P : Nat → List Token → Prop} (h : CodeLine w P)
    (line k : Nat) : ∃ ts n, P line ts ∧ n.Is .newline ∧ ∀ levels levels' marks,
      blockMarks line levels k = .ok (marks, levels') →
        lexLine line levels (codeOf (List.replicate k ' ' ++ w)) =
          .ok (marks ++ (ts ++ [n]), levels') := by
  obtain ⟨c, r, hcode, hspace, htab⟩ := h.starts
  obtain ⟨ts, hP, hts⟩ := h.cut line (k + 1)
  have hleading : (List.replicate k ' ' ++ codeOf w).takeWhile (fun c => c == ' ' || c == '\t') =
      List.replicate k ' ' := by
    rw [List.takeWhile_append_of_pos (by simp), hcode, List.takeWhile_cons_of_neg]
    · simp
    · simp [hspace, htab]
  have hdrop : (List.replicate k ' ' ++ codeOf w).drop k = codeOf w := by
    rw [List.drop_append, List.drop_of_length_le (by simp)]
    simp
  have htabs : (List.replicate k ' ').contains '\t' = false := by
    simp [List.mem_replicate]
  refine ⟨ts, ⟨.newline, "", line, (List.replicate k ' ' ++ codeOf w).length + 1⟩, hP, rfl, ?_⟩
  intro levels levels' marks hmarks
  rw [h.code]
  simp only [Script.lexLine, hleading, htabs, List.length_replicate, hmarks, hdrop]
  rw [← List.append_assoc]
  simp only [bind, Except.bind, pure, Except.pure, hts, Bool.false_eq_true, if_false]

def levelsAt : Nat → List Nat
  | 0 => []
  | d + 1 => 4 * (d + 1) :: levelsAt d

theorem headD_levelsAt (d : Nat) : (levelsAt d).headD 0 = 4 * d := by
  cases d <;> rfl

theorem length_levelsAt (d : Nat) : (levelsAt d).length = d := by
  induction d with
  | zero => rfl
  | succ d ih => rw [levelsAt, List.length_cons, ih]

theorem keptLevels_levelsAt {k d : Nat} (h : k ≤ d) :
    keptLevels (levelsAt d) (4 * k) = levelsAt k := by
  unfold keptLevels
  induction d with
  | zero =>
    have hk : k = 0 := by omega
    rw [hk]
    rfl
  | succ d ih =>
    rw [levelsAt]
    by_cases hk : k = d + 1
    · rw [List.dropWhile_cons_of_neg (by simp [hk]), hk, levelsAt]
    · rw [List.dropWhile_cons_of_pos (by simp; omega), ih (by omega)]

/-- A line at most as deep as the open blocks closes those that are deeper. -/
theorem blockMarks_levelsAt {k d : Nat} (h : k ≤ d) (line : Nat) :
    blockMarks line (levelsAt d) (4 * k) =
      .ok (List.replicate (d - k) ⟨.dedent, "", line, 1⟩, levelsAt k) := by
  have hdeeper : ¬4 * d < 4 * k := by omega
  simp only [blockMarks, headD_levelsAt, if_neg hdeeper, keptLevels_levelsAt h, length_levelsAt,
    beq_self_eq_true, if_true]

theorem blockMarks_deeper (line d : Nat) :
    blockMarks line (levelsAt d) (4 * (d + 1)) =
      .ok ([⟨.indent, "", line, 1⟩], levelsAt (d + 1)) := by
  have hdeeper : (levelsAt d).headD 0 < 4 * (d + 1) := by
    rw [headD_levelsAt]
    omega
  simp only [blockMarks, if_pos hdeeper, levelsAt]

def Begins (d : Nat) (texts : List (List Char)) : Prop :=
  ∃ w rest P, texts = (List.replicate (4 * d) ' ' ++ w) :: rest ∧ CodeLine w P

def Leaves (d : Nat) (texts : List (List Char)) : Prop :=
  texts = [] ∨ ∃ k ≤ d, Begins k texts

theorem Leaves.mono {d d' : Nat} {texts : List (List Char)} (h : Leaves d texts) (hd : d ≤ d') :
    Leaves d' texts := by
  rcases h with h | ⟨k, hk, h⟩
  · exact .inl h
  · exact .inr ⟨k, by omega, h⟩

theorem CodeLine.ne_nil {w : List Char} {P : Nat → List Token → Prop} (h : CodeLine w P)
    (k : Nat) : codeOf (List.replicate k ' ' ++ w) ≠ [] := by
  obtain ⟨c, r, hcode, -, -⟩ := h.starts
  simp [h.code, hcode]

/-- One line among others. -/
theorem CodeLine.lexLines {w : List Char} {P : Nat → List Token → Prop} (h : CodeLine w P)
    (line d : Nat) (more : List (List Char)) : ∃ ts n, P line ts ∧ n.Is .newline ∧
      lexLines line (levelsAt d) ((List.replicate (4 * d) ' ' ++ w) :: more) =
        (lexLines (line + 1) (levelsAt d) more).map ((ts ++ [n]) ++ ·) := by
  obtain ⟨ts, n, hP, hn, hline⟩ := h.lexLine line (4 * d)
  have hmarks := blockMarks_levelsAt (Nat.le_refl d) line
  rw [Nat.sub_self, List.replicate_zero] at hmarks
  exact ⟨ts, n, hP, hn, lexLines_of_code (h.ne_nil _) (hline _ _ _ hmarks) more⟩

/-- A deeper line opens a block. -/
theorem lexLines_enter {d : Nat} {texts : List (List Char)} (h : Begins (d + 1) texts)
    (line : Nat) : ∃ i, i.Is .indent ∧ lexLines line (levelsAt d) texts =
      (lexLines line (levelsAt (d + 1)) texts).map (i :: ·) := by
  obtain ⟨w, rest, P, rfl, hw⟩ := h
  obtain ⟨ts, n, -, -, hline⟩ := hw.lexLine line (4 * (d + 1))
  have hsame := blockMarks_levelsAt (Nat.le_refl (d + 1)) line
  rw [Nat.sub_self, List.replicate_zero] at hsame
  refine ⟨⟨.indent, "", line, 1⟩, rfl, ?_⟩
  rw [lexLines_of_code (hw.ne_nil _) (hline _ _ _ (blockMarks_deeper line d)),
    lexLines_of_code (hw.ne_nil _) (hline _ _ _ hsame), map_map]
  rfl

/-- A block is closed by the next line, or by the end of the lines; either way it might have been
closed before. -/
theorem lexLines_leave {d : Nat} {texts : List (List Char)} (h : Leaves d texts) (line : Nat) :
    ∃ t, t.Is .dedent ∧ lexLines line (levelsAt (d + 1)) texts =
      (lexLines line (levelsAt d) texts).map (t :: ·) := by
  rcases h with rfl | ⟨k, hk, w, rest, P, rfl, hw⟩
  · refine ⟨⟨.dedent, "", line - 1, 1⟩, rfl, ?_⟩
    simp only [lexLines, length_levelsAt, List.replicate_succ]
    rfl
  · obtain ⟨ts, n, -, -, hline⟩ := hw.lexLine line (4 * k)
    have hdeep := blockMarks_levelsAt (by omega : k ≤ d + 1) line
    rw [show d + 1 - k = d - k + 1 by omega, List.replicate_succ] at hdeep
    refine ⟨⟨.dedent, "", line, 1⟩, rfl, ?_⟩
    rw [lexLines_of_code (hw.ne_nil _) (hline _ _ _ hdeep),
      lexLines_of_code (hw.ne_nil _) (hline _ _ _ (blockMarks_levelsAt hk line)), map_map]
    rfl

def padded (d : Nat) (ls : List (List Char)) : List (List Char) :=
  ls.map (List.replicate (4 * d) ' ' ++ ·)

/-- Lines that are cut into tokens with a property at a depth, whatever follows behind them. -/
structure Laid (d line : Nat) (ls : List (List Char)) (P : List Token → Prop) : Prop where
  oneLine : ∀ l ∈ ls, OneLine l
  cut : ∀ more, Leaves d more → ∃ ts, P ts ∧ lexLines line (levelsAt d) (padded d ls ++ more) =
    (lexLines (line + ls.length) (levelsAt d) more).map (ts ++ ·)

def Starts (ls : List (List Char)) : Prop :=
  ls = [] ∨ ∃ w rest P, ls = w :: rest ∧ CodeLine w P

section Layout
variable {d line : Nat} {ls ms : List (List Char)} {P Q : List Token → Prop}

theorem Laid.imp (h : Laid d line ls P) (f : ∀ ts, P ts → Q ts) : Laid d line ls Q where
  oneLine := h.oneLine
  cut more hmore := by
    obtain ⟨ts, hts, hlex⟩ := h.cut more hmore
    exact ⟨ts, f ts hts, hlex⟩

theorem Starts.leaves (h : Starts ms) {more : List (List Char)} (hmore : Leaves d more) :
    Leaves d (padded d ms ++ more) := by
  rcases h with rfl | ⟨w, rest, P, rfl, hw⟩
  · exact hmore
  · exact .inr ⟨d, Nat.le_refl d, w, padded d rest ++ more, P, rfl, hw⟩

theorem Laid.append (h : Laid d line ls P) (h' : Laid d (line + ls.length) ms Q)
    (hms : Starts ms) :
    Laid d line (ls ++ ms) fun ts => ∃ us vs, ts = us ++ vs ∧ P us ∧ Q vs where
  oneLine l hl := (List.mem_append.mp hl).elim (h.oneLine l) (h'.oneLine l)
  cut more hmore := by
    obtain ⟨us, hus, hfirst⟩ := h.cut (padded d ms ++ more) (hms.leaves hmore)
    obtain ⟨vs, hvs, hsecond⟩ := h'.cut more hmore
    refine ⟨us ++ vs, ⟨us, vs, rfl, hus, hvs⟩, ?_⟩
    have hsplit : padded d (ls ++ ms) = padded d ls ++ padded d ms := List.map_append
    rw [hsplit, List.append_assoc, hfirst, hsecond, map_map, List.length_append, Nat.add_assoc]
    simp only [List.append_assoc]

theorem CodeLine.laid {w : List Char} {R : Nat → List Token → Prop} (h : CodeLine w R)
    (d line : Nat) :
    Laid d line [w] fun ts => ∃ us n, ts = us ++ [n] ∧ R line us ∧ n.Is .newline where
  oneLine := List.forall_mem_singleton.mpr h.oneLine
  cut more _ := by
    obtain ⟨us, n, hus, hn, hlex⟩ := h.lexLines line d more
    exact ⟨us ++ [n], ⟨us, n, rfl, hus, hn⟩, hlex⟩

/-- A line, and lines behind it that may stand deeper. -/
theorem Laid.under {w : List Char} {R : Nat → List Token → Prop} (hw : CodeLine w R)
    (h : Laid d (line + 1) ls P) : Laid d line (w :: ls) fun ts => ∃ us n vs,
      ts = us ++ n :: vs ∧ R line us ∧ n.Is .newline ∧ P vs where
  oneLine := List.forall_mem_cons.mpr ⟨hw.oneLine, h.oneLine⟩
  cut more hmore := by
    obtain ⟨us, n, hus, hn, hline⟩ := hw.lexLines line d (padded d ls ++ more)
    obtain ⟨vs, hvs, hrest⟩ := h.cut more hmore
    refine ⟨us ++ n :: vs, ⟨us, n, vs, rfl, hus, hn, hvs⟩, ?_⟩
    have hfront : padded d (w :: ls) ++ more =
        (List.replicate (4 * d) ' ' ++ w) :: (padded d ls ++ more) := rfl
    rw [hfront, hline, hrest, map_map, List.length_cons, Nat.add_assoc, Nat.add_comm 1]
    simp only [List.append_assoc, List.cons_append, List.nil_append]

theorem padded_indented (d : Nat) (ls : List (List Char)) :
    padded d (Draft.indented ls) = padded (d + 1) ls := by
  unfold padded Draft.indented
  rw [List.map_map]
  refine List.map_congr_left fun l _ => ?_
  rw [Function.comp, ← List.append_assoc, List.replicate_append_replicate]
  rfl

/-- Lines of a block, one level further in. -/
theorem Laid.block {w : List Char} {rest : List (List Char)} {R : Nat → List Token → Prop}
    (h : Laid (d + 1) line ls P) (hls : ls = w :: rest) (hw : CodeLine w R) :
    Laid d line (Draft.indented ls) fun ts => ∃ i us t, ts = i :: us ++ [t] ∧ i.Is .indent ∧
      P us ∧ t.Is .dedent where
  oneLine l hl := by
    obtain ⟨l', hl', rfl⟩ := List.mem_map.mp hl
    exact oneLine_append.mpr ⟨by decide, h.oneLine l' hl'⟩
  cut more hmore := by
    have hbegins : Begins (d + 1) (padded (d + 1) ls ++ more) := by
      rw [hls]
      exact ⟨w, padded (d + 1) rest ++ more, R, rfl, hw⟩
    obtain ⟨i, hi, henter⟩ := lexLines_enter hbegins line
    obtain ⟨us, hus, hbody⟩ := h.cut more (hmore.mono (Nat.le_succ d))
    obtain ⟨t, ht, hleave⟩ := lexLines_leave hmore (line + ls.length)
    refine ⟨i :: us ++ [t], ⟨i, us, t, rfl, hi, hus, ht⟩, ?_⟩
    rw [padded_indented, henter, hbody, hleave, map_map, map_map, Draft.indented, List.length_map]
    simp only [List.cons_append, List.append_assoc, List.nil_append]

end Layout

end Scribe.Script
