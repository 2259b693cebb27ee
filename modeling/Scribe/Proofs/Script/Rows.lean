import Scribe.Proofs.Script.LineTokens

/-!
# The tokens of a script, line by line

A line that has code yields a row of tokens, any other line yields an empty row, and the end of the
script closes the blocks that are still open. Where the tokens of a script cannot be had, one line
is to blame, and the lines before it have their rows.
-/
namespace Scribe.Script
open Text

def Token.onLine (line : Nat) (t : Token) : Token := { t with line }

theorem lexFrom_onLine (line line' : Nat) {recent : List Kind} {column skip : Nat}
    {cs : List Char} : lexFrom line' recent column skip cs =
      (lexFrom line recent column skip cs).map (List.map (Token.onLine line')) := by
  fun_induction lexFrom line recent column skip cs with
  | case1 => rw [lexFrom]; rfl
  | case2 recent column skip c r ih => rw [lexFrom, ih]
  | case3 recent column c r hc ih => rw [lexFrom, if_pos hc, ih]
  | case4 recent column c r hc cause hx =>
    simp only [lexFrom, if_neg hc, hx]
    rfl
  | case5 recent column c r hc x hx token =>
    rename_i hraw
    simp only [lexFrom, if_neg hc, hx, if_pos hraw]
    rfl
  | case6 recent column c r hc x hx token =>
    rename_i hraw ih
    simp only [lexFrom, if_neg hc, hx, if_neg hraw, ih]
    cases lexFrom line (x.kind :: recent) (column + 1) (x.width - 1) r <;> rfl

theorem blockMarks_onLine (line line' : Nat) {indent : Nat} {levels : List Nat} :
    blockMarks line' levels indent =
      (blockMarks line levels indent).map (Prod.map (List.map (Token.onLine line')) id) := by
  simp only [blockMarks]
  split
  · rfl
  · split
    · simp only [Except.map, Prod.map, List.map_replicate]
      rfl
    · rfl

/-- Where a line stands matters for nothing but the lines of its tokens. -/
theorem lexLine_onLine (line line' : Nat) {levels : List Nat} {code : List Char} :
    lexLine line' levels code =
      (lexLine line levels code).map (Prod.map (List.map (Token.onLine line')) id) := by
  simp only [lexLine]
  split
  · rfl
  · rw [blockMarks_onLine line, lexFrom_onLine line]
    cases blockMarks line levels _ with
    | error cause => rfl
    | ok result =>
      cases lexFrom line [] _ 0 _ with
      | error cause => rfl
      | ok us =>
        simp only [Except.map, bind, Except.bind, pure, Except.pure, Prod.map, List.map_append]
        rfl

/-- The rows of some lines, from number `line` on, with the levels that are open before the first of
them and behind the last one. -/
inductive Rows : Nat → List Nat → List (List Char) → List (List Token) → List Nat → Prop
  | nil {line levels} : Rows line levels [] [] levels
  | blank {line levels text texts rows after} (hcode : codeOf text = [])
      (rest : Rows (line + 1) levels texts rows after) :
      Rows line levels (text :: texts) ([] :: rows) after
  | code {line levels levels' text texts row rows after} (hcode : codeOf text ≠ [])
      (hrow : lexLine line levels (codeOf text) = .ok (row, levels'))
      (rest : Rows (line + 1) levels' texts rows after) :
      Rows line levels (text :: texts) (row :: rows) after

section Rows
variable {line : Nat} {levels after : List Nat} {texts : List (List Char)}
  {rows : List (List Token)}

theorem Rows.length (h : Rows line levels texts rows after) : rows.length = texts.length := by
  induction h with
  | nil => rfl
  | blank _ _ ih | code _ _ _ ih => rw [List.length_cons, List.length_cons, ih]

/-- The tokens of some lines are their rows, and behind them the ends of the open blocks. -/
theorem rows_of_lexLines {ts : List Token} (h : lexLines line levels texts = .ok ts) :
    ∃ rows after, Rows line levels texts rows after ∧ ts = rows.flatten ++
      List.replicate after.length ⟨.dedent, "", line + texts.length - 1, 1⟩ := by
  induction texts generalizing line levels ts with
  | nil =>
    cases h
    exact ⟨[], levels, .nil, rfl⟩
  | cons text texts ih =>
    have hend : line + (text :: texts).length - 1 = line + 1 + texts.length - 1 := by
      rw [List.length_cons]
      omega
    by_cases hcode : codeOf text = []
    · rw [lexLines_blank hcode] at h
      obtain ⟨rows, after, hrows, rfl⟩ := ih h
      exact ⟨[] :: rows, after, .blank hcode hrows, by rw [hend]; rfl⟩
    · obtain ⟨row, levels', vs, hrow, hvs, rfl⟩ := lexLines_code hcode h
      obtain ⟨rows, after, hrows, rfl⟩ := ih hvs
      refine ⟨row :: rows, after, .code hcode hrow hrows, ?_⟩
      rw [hend, List.flatten_cons, List.append_assoc]

/-- Where the tokens cannot be had, one line cannot be cut, and the lines before it have rows. -/
theorem fault_of_lexLines {fault : Fault} (h : lexLines line levels texts = .error fault) :
    ∃ i text rows before cause, texts[i]? = some text ∧
      Rows line levels (texts.take i) rows before ∧ codeOf text ≠ [] ∧
      lexLine (line + i) before (codeOf text) = .error cause ∧
      fault = ⟨.lexical cause, some ↑(line + i)⟩ := by
  induction texts generalizing line levels with
  | nil => cases h
  | cons text texts ih =>
    by_cases hcode : codeOf text = []
    · rw [lexLines_blank hcode] at h
      obtain ⟨i, text', rows, before, cause, htext, hrows, hcode', hline, hfault⟩ := ih h
      rw [Nat.add_assoc, Nat.add_comm 1] at hline hfault
      exact ⟨i + 1, text', [] :: rows, before, cause, htext, .blank hcode hrows, hcode', hline,
        hfault⟩
    · cases hrow : lexLine line levels (codeOf text) with
      | error cause =>
        simp only [lexLines, List.isEmpty_iff, hcode, if_false, hrow] at h
        cases h
        exact ⟨0, text, [], levels, cause, rfl, .nil, hcode, hrow, rfl⟩
      | ok result =>
        obtain ⟨row, levels'⟩ := result
        rw [lexLines_of_code hcode hrow] at h
        obtain ⟨i, text', rows, before, cause, htext, hrows, hcode', hline, hfault⟩ :=
          ih (Outcome.map_eq_error.mp h)
        rw [Nat.add_assoc, Nat.add_comm 1] at hline hfault
        exact ⟨i + 1, text', row :: rows, before, cause, htext, .code hcode hrow hrows, hcode',
          hline, hfault⟩

/-- Lines behind lines that have rows. -/
theorem Rows.lexLines (h : Rows line levels texts rows after) (more : List (List Char)) :
    lexLines line levels (texts ++ more) =
      (lexLines (line + texts.length) after more).map (rows.flatten ++ ·) := by
  induction h with
  | nil =>
    rename_i line levels
    rw [List.length_nil, Nat.add_zero, List.nil_append, List.flatten_nil]
    cases Script.lexLines line levels more <;> rfl
  | @blank line levels text texts rows after hcode _ ih =>
    rw [List.cons_append, lexLines_blank hcode, ih, List.length_cons, Nat.add_assoc, Nat.add_comm 1]
    rfl
  | @code line levels levels' text texts row rows after hcode hrow _ ih =>
    rw [List.cons_append, lexLines_of_code hcode hrow, ih, List.length_cons, Nat.add_assoc,
      Nat.add_comm 1, List.flatten_cons]
    cases Script.lexLines (line + (texts.length + 1)) after more with
    | error fault => rfl
    | ok ts => exact congrArg Except.ok (List.append_assoc row rows.flatten ts).symm

/-- The row of one of the lines. -/
theorem Rows.get (h : Rows line levels texts rows after) {i : Nat} {text : List Char}
    {row : List Token} (htext : texts[i]? = some text) (hrow : rows[i]? = some row) :
    ∃ before, Rows line levels (texts.take i) (rows.take i) before ∧
      (codeOf text = [] ∧ row = [] ∨ codeOf text ≠ [] ∧
        ∃ behind, lexLine (line + i) before (codeOf text) = .ok (row, behind)) := by
  induction h generalizing i with
  | nil => cases htext
  | @blank line levels _ texts rows after hcode rest ih =>
    cases i with
    | zero =>
      cases htext
      cases hrow
      exact ⟨levels, .nil, .inl ⟨hcode, rfl⟩⟩
    | succ i =>
      obtain ⟨before, hbefore, hline⟩ := ih htext hrow
      rw [Nat.add_assoc, Nat.add_comm 1] at hline
      exact ⟨before, .blank hcode hbefore, hline⟩
  | @code line levels levels' _ texts _ rows after hcode hfirst rest ih =>
    cases i with
    | zero =>
      cases htext
      cases hrow
      exact ⟨levels, .nil, .inr ⟨hcode, levels', hfirst⟩⟩
    | succ i =>
      obtain ⟨before, hbefore, hline⟩ := ih htext hrow
      rw [Nat.add_assoc, Nat.add_comm 1] at hline
      exact ⟨before, .code hcode hfirst hbefore, hline⟩

end Rows

end Scribe.Script
