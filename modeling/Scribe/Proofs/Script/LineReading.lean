import Scribe.Proofs.Script.StatementReading
import Scribe.Proofs.Script.Tokens

/-!
# What a line of tokens can leave behind

The first token of a line fixes the statement that the line can become: whatever else stands on
the line, the reader fails or files a statement of that kind, or opens an arm.
-/
namespace Scribe.Script

namespace State.Reads

theorem of_cons {s s'' : State} {t : Token} {ts : List Token} (h : s.Reads (t :: ts) s'') :
    ∃ s', s.step t = .ok s' ∧ s'.Reads ts s'' := by
  unfold State.Reads at h
  rw [List.foldlM_cons] at h
  exact Outcome.bind_eq_ok.mp h

theorem of_append {s s'' : State} {ts us : List Token} (h : s.Reads (ts ++ us) s'') :
    ∃ s', s.Reads ts s' ∧ s'.Reads us s'' := by
  unfold State.Reads at h
  rw [List.foldlM_append] at h
  exact Outcome.bind_eq_ok.mp h

theorem of_one {s s' : State} {t : Token} (h : s.Reads [t] s') : s.step t = .ok s' := by
  obtain ⟨u, hstep, hnil⟩ := of_cons h
  cases hnil
  exact hstep

end State.Reads

inductive Mode.Within (purpose : Purpose) : Mode → Prop
  | operand {outer current} : Within purpose (.operand purpose outer current)
  | operator {outer current e} : Within purpose (.operator purpose outer current e)

/-- A token that is no mark of the layout keeps the expression under way, or ends a condition. -/
theorem Mode.Within.step {frames : List Frame} {done : List Stmt} {mode : Mode} {s' : State}
    {purpose : Purpose} {t : Token} (hm : mode.Within purpose) (ht : ¬t.IsLayout)
    (h : State.step ⟨frames, done, mode⟩ t = .ok s') :
    ∃ mode', s' = ⟨frames, done, mode'⟩ ∧ (mode'.Within purpose ∨
      ∃ chain e, purpose = .condition chain ∧ mode' = .headerEnd chain (some e)) := by
  cases hm with
  | operand =>
    simp only [State.step, stepOperand] at h
    split at h
    · cases h
      exact ⟨_, rfl, .inl .operand⟩
    · cases h
      exact ⟨_, rfl, .inl .operand⟩
    · split at h
      · cases h
        exact ⟨_, rfl, .inl .operator⟩
      · cases h
  | operator =>
    simp only [State.step, stepOperator] at h
    split at h <;> rename_i hk
    · cases h
      exact ⟨_, rfl, .inl .operand⟩
    · cases h
      exact ⟨_, rfl, .inl .operand⟩
    · cases h
      exact ⟨_, rfl, .inl .operand⟩
    · cases h
      exact ⟨_, rfl, .inl .operand⟩
    · cases h
      exact ⟨_, rfl, .inl .operand⟩
    · cases h
      exact ⟨_, rfl, .inl .operand⟩
    · split at h
      · cases h
      · cases h
        exact ⟨_, rfl, .inl .operator⟩
    · exact absurd (.inl hk) ht
    · split at h
      · rename_i chain
        cases h
        exact ⟨_, rfl, .inr ⟨chain, _, rfl, rfl⟩⟩
      · cases h
    · cases h

/-- So do all tokens up to the end of the line. -/
theorem Mode.Within.reads {frames : List Frame} {done : List Stmt} {mode : Mode} {s' : State}
    {purpose : Purpose} {us : List Token} (hm : mode.Within purpose)
    (hus : ∀ t ∈ us, ¬t.IsLayout) (h : State.Reads ⟨frames, done, mode⟩ us s') :
    ∃ mode', s' = ⟨frames, done, mode'⟩ ∧ (mode'.Within purpose ∨
      ∃ chain e, purpose = .condition chain ∧ mode' = .headerEnd chain (some e)) := by
  induction us generalizing mode with
  | nil =>
    cases h
    exact ⟨mode, rfl, .inl hm⟩
  | cons t us ih =>
    obtain ⟨s₁, hstep, hrest⟩ := h.of_cons
    obtain ⟨mode', rfl, hmode | ⟨chain, e, rfl, rfl⟩⟩ := hm.step (hus t (by simp)) hstep
    · exact ih hmode (fun u hu => hus u (by simp [hu])) hrest
    · cases us with
      | nil =>
        cases hrest
        exact ⟨_, rfl, .inr ⟨chain, e, rfl, rfl⟩⟩
      | cons u us =>
        -- Behind the colon of a header only the line end fits.
        obtain ⟨s₂, hstep, -⟩ := hrest.of_cons
        simp only [State.step] at hstep
        split at hstep <;> first | contradiction | rename_i hmode hk; cases hmode
        exact absurd (.inl hk) (hus u (by simp))

/-- The end of a line files the statement under way. -/
theorem Mode.Within.lineEnd {frames : List Frame} {done : List Stmt} {mode : Mode} {s' : State}
    {purpose : Purpose} {n : Token} (hm : mode.Within purpose) (hn : n.kind = .newline)
    (h : State.step ⟨frames, done, mode⟩ n = .ok s') :
    ∃ e stmt, purpose.statement? e = some stmt ∧ s' = ⟨frames, done ++ [stmt], .next⟩ := by
  cases hm with
  | operand =>
    simp only [State.step, stepOperand, hn, operand?] at h
    cases h
  | operator =>
    simp only [State.step, stepOperator, hn] at h
    split at h
    · rename_i stmt hstmt
      cases h
      exact ⟨_, stmt, hstmt, rfl⟩
    · cases h

/-- A line whose expression is read for a statement files that statement. -/
theorem reads_statementLine {frames : List Frame} {done : List Stmt} {mode : Mode} {s' : State}
    {purpose : Purpose} {us : List Token} {n : Token} (hm : mode.Within purpose)
    (hp : ∀ chain, purpose ≠ .condition chain) (hus : ∀ t ∈ us, ¬t.IsLayout)
    (hn : n.kind = .newline) (h : State.Reads ⟨frames, done, mode⟩ (us ++ [n]) s') :
    ∃ e stmt, purpose.statement? e = some stmt ∧ s' = ⟨frames, done ++ [stmt], .next⟩ := by
  obtain ⟨s₁, hexpr, hend⟩ := h.of_append
  obtain ⟨mode', rfl, hmode | ⟨chain, e, hchain, -⟩⟩ := hm.reads hus hexpr
  · exact hmode.lineEnd hn hend.of_one
  · exact absurd hchain (hp chain)

/-- A line whose expression is a condition opens an arm. -/
theorem reads_conditionLine {frames : List Frame} {done : List Stmt} {mode : Mode} {s' : State}
    {chain : Chain} {us : List Token} {n : Token} (hm : mode.Within (.condition chain))
    (hus : ∀ t ∈ us, ¬t.IsLayout) (hn : n.kind = .newline)
    (h : State.Reads ⟨frames, done, mode⟩ (us ++ [n]) s') :
    ∃ e, s' = ⟨frames, done, .block chain (some e)⟩ := by
  obtain ⟨s₁, hexpr, hend⟩ := h.of_append
  obtain ⟨mode', rfl, hmode | ⟨chain', e, hchain, rfl⟩⟩ := hm.reads hus hexpr
  · obtain ⟨e, stmt, hstmt, -⟩ := hmode.lineEnd hn hend.of_one
    cases hstmt
  · cases hchain
    have hstep := hend.of_one
    simp only [State.step, hn] at hstep
    cases hstep
    exact ⟨e, rfl⟩

theorem State.Ready.begins {s s' : State} {t : Token} {ts : List Token} {s₁ : State}
    (hr : s.Ready) (hb : s.begin t = some s₁) (h : s.Reads (t :: ts) s') : s₁.Reads ts s' := by
  obtain ⟨s₂, hstep, hrest⟩ := h.of_cons
  rw [hr.step, stepStatement, hb] at hstep
  cases hstep
  exact hrest

theorem reads_printLine {s s' : State} {t n : Token} {us : List Token} (hr : s.Ready)
    (ht : t.kind = .keyword .neuro) (hus : ∀ u ∈ us, ¬u.IsLayout) (hn : n.kind = .newline)
    (h : s.Reads (t :: us ++ [n]) s') :
    ∃ line e, s' = ⟨s.frames, s.settle.done ++ [.print line e], .next⟩ := by
  have hb : s.begin t = some { s.settle with mode := .operand (.print t.line) [] {} } := by
    simp only [State.begin, ht]
  obtain ⟨e, stmt, hstmt, rfl⟩ :=
    reads_statementLine .operand (by simp) hus hn (hr.begins hb h)
  cases hstmt
  exact ⟨t.line, e, by rw [State.settle_frames]⟩

/-- A line that starts with `set` assigns to its name, unless `from` follows. -/
theorem reads_setLine {s s' : State} {t u n : Token} {us : List Token} (hr : s.Ready)
    (ht : t.kind = .keyword .set)
    (hu : u.kind ≠ .identifier ∨ ∃ a vs, us = a :: vs ∧ a.kind = .assign)
    (hus : ∀ v ∈ us, ¬v.IsLayout) (hn : n.kind = .newline)
    (h : s.Reads (t :: u :: us ++ [n]) s') :
    u.kind = .identifier ∧
      ∃ line e, s' = ⟨s.frames, s.settle.done ++ [.assign line u.lexeme e], .next⟩ := by
  have hb : s.begin t = some { s.settle with mode := .assignName t.line } := by
    simp only [State.begin, ht]
  obtain ⟨s₁, hname, hrest⟩ := (hr.begins hb h).of_cons
  obtain ⟨hk, rfl⟩ : u.kind = .identifier ∧
      s₁ = { s.settle with mode := .assignSign t.line u.lexeme } := by
    simp only [State.step] at hname
    split at hname <;> first | contradiction | rename_i hmode hk; cases hmode
    cases hname
    exact ⟨hk, rfl⟩
  rcases hu with hu | ⟨a, vs, rfl, ha⟩
  · exact absurd hk hu
  · obtain ⟨s₂, hsign, hrest⟩ := hrest.of_cons
    simp only [State.step, ha] at hsign
    cases hsign
    obtain ⟨e, stmt, hstmt, rfl⟩ := reads_statementLine .operand (by simp)
      (fun v hv => hus v (by simp [hv])) hn hrest
    cases hstmt
    exact ⟨hk, t.line, e, by rw [State.settle_frames]⟩

theorem reads_ifLine {s s' : State} {t n : Token} {us : List Token} (hr : s.Ready)
    (ht : t.kind = .keyword .ifWord) (hus : ∀ u ∈ us, ¬u.IsLayout) (hn : n.kind = .newline)
    (h : s.Reads (t :: us ++ [n]) s') :
    ∃ e, s' = ⟨s.frames, s.settle.done, .block ⟨t.line, []⟩ (some e)⟩ := by
  have hb : s.begin t = some { s.settle with mode := .operand (.condition ⟨t.line, []⟩) [] {} } := by
    simp only [State.begin, ht]
  obtain ⟨e, rfl⟩ := reads_conditionLine .operand hus hn (hr.begins hb h)
  exact ⟨e, by rw [State.settle_frames]⟩

theorem reads_elifLine {s s' : State} {t n : Token} {us : List Token} (hr : s.Ready)
    (ht : t.kind = .keyword .elifWord) (hus : ∀ u ∈ us, ¬u.IsLayout) (hn : n.kind = .newline)
    (h : s.Reads (t :: us ++ [n]) s') :
    ∃ chain e, s.mode = .armEnd chain ∧ s' = ⟨s.frames, s.done, .block chain (some e)⟩ := by
  obtain ⟨s₁, hstep, hrest⟩ := h.of_cons
  obtain ⟨frames, done, mode⟩ := s
  rw [hr.step, stepStatement] at hstep
  simp only [State.begin, ht] at hstep
  split at hstep
  · rename_i chain _
    cases hstep
    obtain ⟨e, rfl⟩ := reads_conditionLine .operand hus hn hrest
    exact ⟨chain, e, rfl, rfl⟩
  all_goals contradiction

theorem reads_elseLine {s s' : State} {t c n : Token} (hr : s.Ready)
    (ht : t.kind = .keyword .elseWord) (hc : c.kind = .colon) (hn : n.kind = .newline)
    (h : s.Reads [t, c, n] s') :
    ∃ chain, s.mode = .armEnd chain ∧ s' = ⟨s.frames, s.done, .block chain none⟩ := by
  obtain ⟨s₁, hstep, hrest⟩ := h.of_cons
  obtain ⟨s₂, hcolon, hend⟩ := hrest.of_cons
  have hnewline := hend.of_one
  obtain ⟨frames, done, mode⟩ := s
  rw [hr.step, stepStatement] at hstep
  simp only [State.begin, ht] at hstep
  split at hstep
  · contradiction
  · rename_i chain _
    cases hstep
    simp only [State.step, hc] at hcolon
    cases hcolon
    simp only [State.step, hn] at hnewline
    cases hnewline
    exact ⟨chain, rfl, rfl⟩
  all_goals contradiction

end Scribe.Script
