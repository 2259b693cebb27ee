import Scribe.Proofs.Script.Rows
import Scribe.Proofs.Script.Trees

/-!
# Lines of tokens, statements and faults

Every token of a script stands on one of its lines, and so does every statement. A fault is found
on a line too: on the one that cannot be cut into tokens, on that of the token which does not fit,
or at the end of the script, on the line of its last token.
-/
namespace Scribe.Script
open Text

theorem line_of_lexFrom {line : Nat} {recent : List Kind} {column skip : Nat} {cs : List Char}
    {ts : List Token} (h : lexFrom line recent column skip cs = .ok ts) :
    ∀ t ∈ ts, t.line = line := by
  fun_induction lexFrom line recent column skip cs generalizing ts with
  | case1 =>
    cases h
    exact List.forall_mem_nil _
  | case2 recent column skip c r ih => exact ih h
  | case3 recent column c r hc ih => exact ih h
  | case4 => cases h
  | case5 recent column c r hc x hx token =>
    cases h
    intro t ht
    rcases List.mem_cons.mp ht with rfl | ht
    · rfl
    · rw [List.mem_singleton.mp ht]
  | case6 recent column c r hc x hx token hraw =>
    rename_i ih
    obtain ⟨us, hus, rfl⟩ := Outcome.map_eq_ok.mp h
    exact List.forall_mem_cons.mpr ⟨rfl, ih hus⟩

theorem line_of_blockMarks {line indent : Nat} {levels levels' : List Nat} {marks : List Token}
    (h : blockMarks line levels indent = .ok (marks, levels')) : ∀ t ∈ marks, t.line = line := by
  simp only [blockMarks] at h
  split at h
  · cases h
    exact List.forall_mem_singleton.mpr rfl
  · split at h
    · cases h
      intro t ht
      rw [List.eq_of_mem_replicate ht]
    · cases h

theorem line_of_lexLine {line : Nat} {levels levels' : List Nat} {code : List Char}
    {ts : List Token} (h : lexLine line levels code = .ok (ts, levels')) :
    ∀ t ∈ ts, t.line = line := by
  obtain ⟨marks, us, hmarks, hus, rfl⟩ := lexLine_eq_ok h
  intro t ht
  rcases List.mem_append.mp ht with ht | ht
  · rcases List.mem_append.mp ht with ht | ht
    · exact line_of_blockMarks hmarks t ht
    · exact line_of_lexFrom hus t ht
  · rw [List.mem_singleton.mp ht]

/-- The blocks that the end of the lines closes are closed on the last of them, or on the line
before if there is none. -/
theorem line_of_lexLines {line : Nat} {levels : List Nat} {texts : List (List Char)}
    {ts : List Token} (hline : 1 ≤ line) (h : lexLines line levels texts = .ok ts) :
    ∀ t ∈ ts, line ≤ t.line + 1 ∧ t.line < line + texts.length := by
  induction texts generalizing line levels ts with
  | nil =>
    cases h
    intro t ht
    rw [List.eq_of_mem_replicate ht]
    simp only [List.length_nil]
    omega
  | cons text rest ih =>
    have hrest {levels : List Nat} {vs : List Token}
        (hvs : lexLines (line + 1) levels rest = .ok vs) :
        ∀ t ∈ vs, line ≤ t.line + 1 ∧ t.line < line + (text :: rest).length := by
      intro t ht
      have := ih (by omega) hvs t ht
      rw [List.length_cons]
      omega
    by_cases hcode : codeOf text = []
    · rw [lexLines_blank hcode] at h
      exact hrest h
    · obtain ⟨us, levels', vs, hus, hvs, rfl⟩ := lexLines_code hcode h
      intro t ht
      rcases List.mem_append.mp ht with ht | ht
      · rw [line_of_lexLine hus t ht, List.length_cons]
        omega
      · exact hrest hvs t ht

/-- Every token stands on a line of its script. -/
theorem line_of_tokenize {source : List Char} {ts : List Token} (h : tokenize source = .ok ts) :
    ∀ t ∈ ts, 1 ≤ t.line ∧ t.line ≤ (lines source).length := by
  unfold tokenize at h
  cases hlines : lines source with
  | nil => exact absurd hlines (lines_ne_nil source)
  | cons text rest =>
    rw [hlines] at h
    intro t ht
    have hrange := line_of_lexLines (Nat.le_refl 1) h t ht
    refine ⟨?_, by omega⟩
    by_cases hcode : codeOf text = []
    · rw [lexLines_blank hcode] at h
      have := line_of_lexLines (by omega) h t ht
      omega
    · obtain ⟨us, levels', vs, hus, hvs, rfl⟩ := lexLines_code hcode h
      rcases List.mem_append.mp ht with ht | ht
      · exact Nat.le_of_eq (line_of_lexLine hus t ht).symm
      · have := line_of_lexLines (by omega) hvs t ht
        omega

/-- Every statement stands on a line of its script, at every depth. -/
theorem line_of_parse {source : List Char} {p : Program} (h : parse source = .ok p) {x : Stmt}
    (hx : Occurs x p) : 1 ≤ x.line ∧ x.line ≤ (lines source).length := by
  obtain ⟨tokens, htokens, hd⟩ := derives_of_parse h
  obtain ⟨us, hus, hstmt⟩ := hd.of_has hx
  obtain ⟨t, vs, rfl, hline⟩ := hstmt.head_of_stmt
  rw [hline]
  exact line_of_tokenize htokens t (hus.subset (by simp))

/-- A step that fails names the token it was given. -/
theorem stepOperand_found {s : State} {purpose : Purpose} {outer : List Pending}
    {current : Pending} {t : Token} {f : Failure}
    (h : stepOperand s purpose outer current t = .error f) : f.found = some t := by
  unfold stepOperand State.fail at h
  repeat' split at h
  all_goals cases h
  all_goals rfl

theorem stepOperator_found {s : State} {purpose : Purpose} {outer : List Pending}
    {current : Pending} {e : Expr} {t : Token} {f : Failure}
    (h : stepOperator s purpose outer current e t = .error f) : f.found = some t := by
  unfold stepOperator State.fail at h
  repeat' split at h
  all_goals cases h
  all_goals rfl

theorem stepStatement_found {s : State} {t : Token} {f : Failure}
    (h : stepStatement s t = .error f) : f.found = some t := by
  unfold stepStatement State.fail at h
  repeat' split at h
  all_goals cases h
  all_goals rfl

theorem State.step_found {s : State} {t : Token} {f : Failure} (h : s.step t = .error f) :
    f.found = some t := by
  unfold State.step State.fail at h
  split at h
  all_goals first
    | exact stepOperand_found h
    | exact stepOperator_found h
    | exact stepStatement_found h
    | cases h
  all_goals rfl

theorem parseTokens_found {ts : List Token} {f : Failure} (h : parseTokens ts = .error f) :
    f.found = none ∨ ∃ t ∈ ts, f.found = some t := by
  have hfold (s : State) (us : List Token) (h : us.foldlM State.step s = .error f) :
      ∃ t ∈ us, f.found = some t := by
    induction us generalizing s with
    | nil => cases h
    | cons t us ih =>
      rw [List.foldlM_cons] at h
      cases hstep : s.step t with
      | error f' =>
        rw [hstep] at h
        cases h
        exact ⟨t, by simp, State.step_found hstep⟩
      | ok s' =>
        rw [hstep] at h
        obtain ⟨u, hu, hfound⟩ := ih s' h
        exact ⟨u, by simp [hu], hfound⟩
  unfold parseTokens at h
  cases hread : ts.foldlM State.step State.initial with
  | error f' =>
    rw [hread] at h
    cases h
    exact .inr (hfold _ ts hread)
  | ok s =>
    rw [hread] at h
    change s.finish = .error f at h
    simp only [State.finish] at h
    split at h <;> cases h
    exact .inl rfl

/-- The line of the last token; a script without tokens ends on its first line. -/
def endLine (tokens : List Token) : Nat :=
  (tokens.getLast?.map Token.line).getD 1

/-- The line on which a fault of a script is found. -/
inductive FoundOn (source : List Char) : Fault → Nat → Prop
  | cutting {i text levels cause} (htext : (lines source)[i]? = some text)
      (h : lexLine (i + 1) levels (codeOf text) = .error cause) :
      FoundOn source ⟨.lexical cause, some ↑(i + 1)⟩ (i + 1)
  | token {tokens t expected} (h : tokenize source = .ok tokens) (ht : t ∈ tokens) :
      FoundOn source ⟨.unexpected expected t.describe, some t.line⟩ t.line
  | ending {tokens expected} (h : tokenize source = .ok tokens) :
      FoundOn source ⟨.unexpected expected Terminal.endOfInput.describe, some 1⟩ (endLine tokens)

theorem foundOn_of_parse {source : List Char} {fault : Fault} (h : parse source = .error fault) :
    ∃ line, FoundOn source fault line := by
  cases htokens : tokenize source with
  | error fault' =>
    simp only [parse, htokens] at h
    cases h
    obtain ⟨i, text, -, levels, cause, htext, -, -, hlex, rfl⟩ := fault_of_lexLines htokens
    rw [Nat.add_comm] at hlex ⊢
    exact ⟨i + 1, .cutting htext hlex⟩
  | ok tokens =>
    rw [parse_of_tokenize htokens] at h
    cases hparse : parseTokens tokens with
    | ok p =>
      rw [hparse] at h
      cases h
    | error f =>
      rw [hparse] at h
      cases h
      unfold Failure.fault
      rcases parseTokens_found hparse with hnone | ⟨t, ht, hfound⟩
      · rw [hnone]
        exact ⟨_, .ending htokens⟩
      · rw [hfound]
        exact ⟨_, .token htokens ht⟩

/-- A fault carries the line on which it is found, except that the end of a script is always
counted as its first line. -/
theorem FoundOn.line {source : List Char} {fault : Fault} {line : Nat}
    (h : FoundOn source fault line) : fault.line = some ↑line ∨
      fault.line = some 1 ∧ ∃ expected,
        fault.complaint = .unexpected expected Terminal.endOfInput.describe := by
  cases h with
  | cutting => exact .inl rfl
  | token => exact .inl rfl
  | ending => exact .inr ⟨rfl, _, rfl⟩

theorem FoundOn.range {source : List Char} {fault : Fault} {line : Nat}
    (h : FoundOn source fault line) : 1 ≤ line ∧ line ≤ (lines source).length := by
  cases h with
  | cutting htext h =>
    have := (List.getElem?_eq_some_iff.mp htext).1
    omega
  | token h ht => exact line_of_tokenize h _ ht
  | @ending tokens expected h =>
    unfold endLine
    cases hlast : tokens.getLast? with
    | none =>
      have := List.length_pos_iff.mpr (lines_ne_nil source)
      exact ⟨Nat.le_refl 1, this⟩
    | some t => exact line_of_tokenize h t (List.mem_of_getLast? hlast)

end Scribe.Script
