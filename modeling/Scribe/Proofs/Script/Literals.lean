import Scribe.Proofs.Script.LineTokens

/-!
# String literals come back

A literal is written with escapes and read by three scanners: the one that looks for comments, the
one that trims, and the one that reads the literal. On a line that ends with a literal they all
agree with how it was written.
-/
namespace Scribe.Script
open Text

/-- A character of a literal stands for itself, or behind a backslash for another one. -/
theorem escape_cases (c : Char) :
    (∃ e, escape c = ['\\', e] ∧ unescape? e = some c) ∨
      escape c = [c] ∧ c ≠ '\\' ∧ c ≠ '"' := by
  unfold escape
  split
  · rename_i h
    exact .inl ⟨'\\', rfl, by rw [beq_iff_eq.mp h]; rfl⟩
  · rename_i hbackslash
    split
    · rename_i h
      exact .inl ⟨'"', rfl, by rw [beq_iff_eq.mp h]; rfl⟩
    · rename_i hquote
      split
      · rename_i h
        exact .inl ⟨'n', rfl, by rw [beq_iff_eq.mp h]; rfl⟩
      · split
        · rename_i h
          exact .inl ⟨'t', rfl, by rw [beq_iff_eq.mp h]; rfl⟩
        · exact .inr ⟨rfl, by simpa using hbackslash, by simpa using hquote⟩

theorem readString_escaped (cs rest : List Char) :
    readString (cs.flatMap escape ++ '"' :: rest) =
      .ok (cs, (cs.flatMap escape).length + 1) := by
  induction cs with
  | nil => rfl
  | cons c r ih =>
    rw [List.flatMap_cons]
    rcases escape_cases c with ⟨e, he, hc⟩ | ⟨he, hbackslash, hquote⟩
    · simp only [he, List.cons_append, List.nil_append, readString, hc, ih]
      rfl
    · rw [he, List.singleton_append, List.cons_append, readString, ih]
      · rfl
      · exact hquote
      · exact fun h _ => hbackslash h
      · exact fun _ _ h _ => hbackslash h

theorem stripCommentFrom_escaped (cs rest : List Char) :
    stripCommentFrom true (cs.flatMap escape ++ '"' :: rest) =
      cs.flatMap escape ++ '"' :: stripCommentFrom false rest := by
  induction cs with
  | nil => rfl
  | cons c r ih =>
    rw [List.flatMap_cons]
    rcases escape_cases c with ⟨e, he, -⟩ | ⟨he, hbackslash, hquote⟩
    · simp only [he, List.cons_append, List.nil_append, stripCommentFrom, ih]
    · rw [he, List.singleton_append, List.cons_append, stripCommentFrom, ih, List.cons_append]
      · exact fun _ _ h _ => hbackslash h
      · exact hquote

theorem stripComment_quote {w : List Char} (hw : ∀ c ∈ w, c ≠ '"' ∧ c ≠ '#' ∧ c ≠ '/')
    (cs : List Char) : stripComment (w ++ quote cs) = w ++ quote cs := by
  have hquote := stripCommentFrom_escaped cs []
  rw [stripComment, stripCommentFrom_append hw, quote, List.cons_append, stripCommentFrom, hquote]
  rfl

theorem getLast?_quote (w cs : List Char) : (w ++ quote cs).getLast? = some '"' := by
  rw [quote, ← List.append_assoc, List.getLast?_concat]

theorem codeOf_quote {w : List Char} (hw : ∀ c ∈ w, c ≠ '"' ∧ c ≠ '#' ∧ c ≠ '/')
    (cs : List Char) : codeOf (w ++ quote cs) = w ++ quote cs := by
  unfold codeOf trimEnd
  rw [stripComment_quote hw]
  apply dropEndWhile_eq_self
  rw [getLast?_quote]
  decide

theorem lexFrom_quote {line column : Nat} {recent : List Kind} (cs : List Char) :
    lexFrom line recent column 0 (quote cs) = .ok [⟨.string, String.ofList cs, line, column⟩] := by
  have hx : lexemeAt '"' (cs.flatMap escape ++ ['"']) =
      .ok ⟨.string, cs, (cs.flatMap escape ++ ['"']).length + 1⟩ := by
    unfold lexemeAt
    rw [readString_escaped]
    simp [Except.map]
  rw [quote, List.cons_append, lexFrom_cons (by decide) (by decide) hx (by simp)]
  simp only [Nat.add_sub_cancel, lexFrom_end]
  rfl

end Scribe.Script
