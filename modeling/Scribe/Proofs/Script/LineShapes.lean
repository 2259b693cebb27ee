import Scribe.Proofs.Pattern.Words
import Scribe.Proofs.Script.Exactness
import Scribe.Proofs.Script.LineReading
import Scribe.Proofs.Script.LineTokens

/-!
# Lines that can be read

Between two lines the reader stands where a statement may start or a block must open. So a line of
a script that can be read is blank, or it starts with one of the words that start a statement or an
arm; and the header of an arm ends with its only colon.
-/
namespace Scribe.Script

def State.AtLine (s : State) : Prop :=
  s.Ready ∨ ∃ chain condition, s.mode = .block chain condition

/-- The tokens of a line that can be read, without the marks of its layout. -/
inductive LineShape : List Token → Prop
  | simple {t us}
      (ht : t.kind ∈ ([.ai, .set, .neuro, .macroWord] : List Keyword).map Kind.keyword) :
      LineShape (t :: us)
  | header {t es c}
      (ht : t.kind ∈ ([.ifWord, .elifWord, .elseWord] : List Keyword).map Kind.keyword)
      (hes : ∀ e ∈ es, e.kind ≠ .colon) (hc : c.kind = .colon) : LineShape (t :: es ++ [c])

section Marks
variable {s s' : State} {t : Token}

theorem Chain.ready_closed (chain : Chain) (condition : Option Expr) (body : List Stmt)
    (frames : List Frame) (done : List Stmt) :
    State.Ready ⟨frames, done, chain.closed condition body⟩ := by
  cases condition <;> exact trivial

theorem State.AtLine.mark (h : s.AtLine) (ht : t.kind = .indent ∨ t.kind = .dedent)
    (hs : s.step t = .ok s') : s'.AtLine := by
  obtain ⟨frames, done, mode⟩ := s
  rcases h with hr | ⟨chain, condition, rfl⟩
  · rw [hr.step, stepStatement] at hs
    have hbegin : State.begin ⟨frames, done, mode⟩ t = none := by
      rcases ht with ht | ht <;> simp only [State.begin, ht]
    rw [hbegin] at hs
    dsimp only at hs
    split at hs
    · rename_i hk
      rcases ht with ht | ht <;> rw [ht] at hk <;> cases hk
    · rename_i hk
      rcases ht with ht | ht <;> rw [ht] at hk <;> cases hk
    · contradiction
    · contradiction
    · cases frames with
      | nil => contradiction
      | cons f frames =>
        rw [State.closeBlock_cons] at hs
        cases hs
        exact .inl (Chain.ready_closed _ _ _ _ _)
    · contradiction
  · simp only [State.step] at hs
    split at hs <;> first | contradiction | skip
    cases hs
    exact .inl trivial

theorem State.AtLine.marks {marks : List Token} (h : s.AtLine)
    (hm : ∀ t ∈ marks, t.kind = .indent ∨ t.kind = .dedent) (hs : s.Reads marks s') :
    s'.AtLine := by
  induction marks generalizing s with
  | nil =>
    cases hs
    exact h
  | cons t marks ih =>
    obtain ⟨s₁, hstep, hrest⟩ := hs.of_cons
    exact ih (h.mark (hm t (by simp)) hstep) (fun u hu => hm u (by simp [hu])) hrest

/-- The end of a line leads to the next line. -/
theorem State.atLine_of_newline (ht : t.kind = .newline) (hs : s.step t = .ok s') : s'.AtLine := by
  obtain ⟨frames, done, mode⟩ := s
  cases mode with
  | operand =>
    simp only [State.step, stepOperand, ht, operand?] at hs
    cases hs
  | operator =>
    simp only [State.step, stepOperator, ht] at hs
    split at hs
    · cases hs
      exact .inl trivial
    · cases hs
  | lineEnd =>
    simp only [State.step, ht] at hs
    cases hs
    exact .inl trivial
  | headerEnd =>
    simp only [State.step, ht] at hs
    cases hs
    exact .inr ⟨_, _, rfl⟩
  | _ =>
    simp [State.step, stepStatement, State.begin, State.fail, ht] at hs

end Marks

/-- Only the end of the line fits behind the colon of a header. -/
theorem State.Reads.headerEnd {frames : List Frame} {done : List Stmt} {chain : Chain}
    {condition : Option Expr} {us : List Token} {s' : State} (hus : ∀ t ∈ us, ¬t.IsLayout)
    (h : State.Reads ⟨frames, done, .headerEnd chain condition⟩ us s') : us = [] := by
  cases us with
  | nil => rfl
  | cons u us =>
    obtain ⟨s₁, hstep, -⟩ := h.of_cons
    simp only [State.step] at hstep
    split at hstep <;> first | contradiction | rename_i hmode hk; cases hmode
    exact absurd (.inl hk) (hus u (by simp))

/-- A colon ends the condition that is under way, and nothing else does. -/
theorem Mode.Within.step_colon {frames : List Frame} {done : List Stmt} {mode : Mode}
    {purpose : Purpose} {t : Token} {s' : State} (hm : mode.Within purpose) (ht : t.kind = .colon)
    (h : State.step ⟨frames, done, mode⟩ t = .ok s') :
    ∃ chain e, s' = ⟨frames, done, .headerEnd chain (some e)⟩ := by
  cases hm with
  | operand =>
    simp only [State.step, stepOperand, ht, operand?] at h
    cases h
  | operator =>
    simp only [State.step, stepOperator, ht] at h
    split at h
    · cases h
      exact ⟨_, _, rfl⟩
    · cases h

theorem Mode.Within.step_other {frames : List Frame} {done : List Stmt} {mode : Mode}
    {purpose : Purpose} {t : Token} {s' : State} (hm : mode.Within purpose) (ht : ¬t.IsLayout)
    (hcolon : t.kind ≠ .colon) (h : State.step ⟨frames, done, mode⟩ t = .ok s') :
    ∃ mode', s' = ⟨frames, done, mode'⟩ ∧ mode'.Within purpose := by
  obtain ⟨mode', rfl, hmode | ⟨chain, e, -, rfl⟩⟩ := hm.step ht h
  · exact ⟨mode', rfl, hmode⟩
  · cases hm with
    | operand =>
      simp only [State.step, stepOperand] at h
      repeat' split at h
      all_goals cases h
    | operator =>
      simp only [State.step, stepOperator] at h
      repeat' split at h
      all_goals first | contradiction | simp at h

/-- The rest of a header behind its first word ends with its only colon. -/
theorem Mode.Within.header {frames : List Frame} {done : List Stmt} {mode : Mode}
    {chain : Chain} {us : List Token} {n : Token} {s' : State}
    (hm : mode.Within (.condition chain)) (hus : ∀ t ∈ us, ¬t.IsLayout) (hn : n.kind = .newline)
    (h : State.Reads ⟨frames, done, mode⟩ (us ++ [n]) s') :
    ∃ es c, us = es ++ [c] ∧ (∀ e ∈ es, e.kind ≠ .colon) ∧ c.kind = .colon := by
  induction us generalizing mode with
  | nil =>
    obtain ⟨e, stmt, hstmt, -⟩ := hm.lineEnd hn h.of_one
    cases hstmt
  | cons u us ih =>
    obtain ⟨s₁, hstep, hrest⟩ := h.of_cons
    have hus' : ∀ t ∈ us, ¬t.IsLayout := fun t ht => hus t (by simp [ht])
    by_cases hu : u.kind = .colon
    · obtain ⟨chain', e, rfl⟩ := hm.step_colon hu hstep
      obtain ⟨s₂, hmore, -⟩ := hrest.of_append
      rw [State.Reads.headerEnd hus' hmore]
      exact ⟨[], u, rfl, nofun, hu⟩
    · obtain ⟨mode', rfl, hmode⟩ := hm.step_other (hus u (by simp)) hu hstep
      obtain ⟨es, c, rfl, hes, hc⟩ := ih hmode hus' hrest
      exact ⟨u :: es, c, rfl, List.forall_mem_cons.mpr ⟨hu, hes⟩, hc⟩

section Line
variable {s s' : State} {us : List Token} {n : Token}

theorem State.Ready.shape {t : Token} (hr : s.Ready) (hus : ∀ t ∈ us, ¬t.IsLayout)
    (ht : ¬t.IsLayout) (hn : n.kind = .newline) (h : s.Reads (t :: us ++ [n]) s') :
    LineShape (t :: us) := by
  obtain ⟨s₁, hstep, hrest⟩ := h.of_cons
  rw [hr.step, stepStatement] at hstep
  cases hb : s.begin t with
  | some s₂ =>
    rw [hb] at hstep
    cases hstep
    unfold State.begin at hb
    dsimp only at hb
    split at hb <;> rename_i hk
    · exact .simple (by simp [hk])
    · exact .simple (by simp [hk])
    · exact .simple (by simp [hk])
    · exact .simple (by simp [hk])
    · cases hb
      obtain ⟨es, c, rfl, hes, hc⟩ := Mode.Within.operand.header hus hn hrest
      exact .header (by simp [hk]) hes hc
    · cases hb
  | none =>
    rw [hb] at hstep
    dsimp only at hstep
    split at hstep
    · rename_i hk
      cases hstep
      obtain ⟨es, c, rfl, hes, hc⟩ := Mode.Within.operand.header hus hn hrest
      exact .header (by simp [hk]) hes hc
    · rename_i hk
      cases hstep
      cases us with
      | nil =>
        have hend := hrest.of_one
        simp [State.step, State.fail, hn] at hend
      | cons c us =>
        obtain ⟨s₂, hcolon, hrest⟩ := hrest.of_cons
        simp only [State.step] at hcolon
        split at hcolon <;> first | contradiction | rename_i hmode hc; cases hmode
        cases hcolon
        obtain ⟨s₃, hmore, -⟩ := hrest.of_append
        rw [State.Reads.headerEnd (fun t ht => hus t (by simp [ht])) hmore]
        exact (.header (by simp [hk]) (List.forall_mem_nil _) hc : LineShape (t :: [] ++ [c]))
    · contradiction
    · contradiction
    · exact absurd (.inr (.inr (by assumption))) ht
    · contradiction

theorem State.AtLine.shape (h : s.AtLine) (hus : ∀ t ∈ us, ¬t.IsLayout) (hn : n.kind = .newline)
    (hs : s.Reads (us ++ [n]) s') : LineShape us := by
  rcases h with hr | ⟨chain, condition, hmode⟩
  · cases us with
    | nil =>
      have hstep := hs.of_one
      rw [hr.step, stepStatement] at hstep
      simp only [State.begin, hn] at hstep
      split at hstep <;> contradiction
    | cons t us =>
      exact hr.shape (fun t ht => hus t (by simp [ht])) (hus t (by simp)) hn hs
  · obtain ⟨frames, done, mode⟩ := s
    cases hmode
    -- Where a block must open, no other token fits.
    have hfirst {t : Token} {ts : List Token} (ht : t.kind ≠ .indent)
        (hs : State.Reads ⟨frames, done, .block chain condition⟩ (t :: ts) s') : False := by
      obtain ⟨s₁, hstep, -⟩ := hs.of_cons
      simp only [State.step] at hstep
      split at hstep <;> contradiction
    cases us with
    | nil => exact (hfirst (by simp [hn]) hs).elim
    | cons t us => exact (hfirst (fun hk => hus t (by simp) (.inr (.inl hk))) hs).elim

end Line

section Indented
variable {c : Char} {r y : List Char}

theorem codeOf_indented (hw : Text.IsWord (c :: r)) (k : Nat) (y : List Char) :
    codeOf (List.replicate k ' ' ++ (c :: r ++ y)) =
      List.replicate k ' ' ++ (c :: r ++ codeOf y) := by
  have hplain : ∀ d ∈ List.replicate k ' ' ++ (c :: r), d ≠ '"' ∧ d ≠ '#' ∧ d ≠ '/' := by
    refine List.forall_mem_append.mpr ⟨fun d hd => ?_, hw.plain⟩
    rw [List.eq_of_mem_replicate hd]
    decide
  have hlast : (List.replicate k ' ' ++ (c :: r)).getLast?.any Text.isBlank = false := by
    rw [List.getLast?_append, List.getLast?_eq_some_getLast (List.cons_ne_nil c r)]
    simpa using Text.isBlank_of_isWordChar (hw _ (List.getLast_mem (List.cons_ne_nil c r)))
  rw [← List.append_assoc, codeOf_append hplain hlast, List.append_assoc]

/-- The first token of a line that starts with a word is that word. -/
theorem lexFrom_indented {line column k : Nat} {us : List Token} (hw : Text.IsWord (c :: r))
    (hd : Text.isDigit c = false) (hy : y.head?.any Text.isWordChar = false)
    (h : lexFrom line [] column 0 ((codeOf (List.replicate k ' ' ++ (c :: r ++ y))).dropWhile
      fun c => c == ' ' || c == '\t') = .ok us) :
    lexFrom line [] column 0 (c :: r ++ codeOf y) = .ok us ∧
      ∃ vs, lexFrom line [wordKind (c :: r)] (column + (c :: r).length) 0 (codeOf y) = .ok vs ∧
        us = ⟨wordKind (c :: r), String.ofList (c :: r), line, column⟩ :: vs := by
  have hfollows : (codeOf y).head?.any Text.isWordChar = false := by
    obtain ⟨z, hz⟩ := codeOf_isPrefix y
    cases hcode : codeOf y with
    | nil => rfl
    | cons d s =>
      rw [← hz, hcode] at hy
      exact hy
  rw [codeOf_indented hw, List.dropWhile_append_of_pos (by simp), List.cons_append,
    List.dropWhile_cons_of_neg (by simp [head_of_isWord hw]), ← List.cons_append] at h
  refine ⟨h, ?_⟩
  rw [lexFrom_word hw hd hfollows] at h
  obtain ⟨vs, hvs, rfl⟩ := Outcome.map_eq_ok.mp h
  exact ⟨vs, hvs, rfl⟩

end Indented

def ReadableLine (text : List Char) : Prop :=
  codeOf text = [] ∨ ∃ line column us,
    lexFrom line [] column 0 ((codeOf text).dropWhile fun c => c == ' ' || c == '\t') = .ok us ∧
      LineShape us

theorem drop_length_takeWhile {α : Type} (p : α → Bool) (cs : List α) :
    cs.drop (cs.takeWhile p).length = cs.dropWhile p := by
  induction cs with
  | nil => rfl
  | cons c r ih =>
    rw [List.takeWhile_cons, List.dropWhile_cons]
    split
    · exact ih
    · rfl

/-- One line, from the state before it to the state behind it. -/
theorem State.AtLine.line {s s' : State} {line : Nat} {levels levels' : List Nat}
    {text : List Char} {ts : List Token} (h : s.AtLine)
    (hl : lexLine line levels (codeOf text) = .ok (ts, levels')) (hs : s.Reads ts s') :
    ReadableLine text ∧ s'.AtLine := by
  obtain ⟨marks, us, hmarks, hus, rfl⟩ := lexLine_eq_ok hl
  rw [List.append_assoc] at hs
  obtain ⟨s₁, hread, hrest⟩ := hs.of_append
  have hline := h.marks (kind_of_blockMarks hmarks) hread
  have hshape := hline.shape (fun t ht => (inCode_of_lexFrom hus t ht).not_isLayout) rfl hrest
  obtain ⟨s₂, -, hend⟩ := hrest.of_append
  rw [drop_length_takeWhile] at hus
  exact ⟨.inr ⟨_, _, us, hus, hshape⟩, State.atLine_of_newline rfl hend.of_one⟩

theorem readable_of_lexLines {s s' : State} {line : Nat} {levels : List Nat}
    {texts : List (List Char)} {ts : List Token} (h : s.AtLine)
    (hl : lexLines line levels texts = .ok ts) (hs : s.Reads ts s') :
    ∀ text ∈ texts, ReadableLine text := by
  induction texts generalizing s line levels ts with
  | nil => exact nofun
  | cons text rest ih =>
    by_cases hcode : codeOf text = []
    · rw [lexLines_blank hcode] at hl
      exact List.forall_mem_cons.mpr ⟨.inl hcode, ih h hl hs⟩
    · obtain ⟨us, levels', vs, hus, hvs, rfl⟩ := lexLines_code hcode hl
      obtain ⟨s₁, hread, hrest⟩ := hs.of_append
      obtain ⟨hline, hnext⟩ := h.line hus hread
      exact List.forall_mem_cons.mpr ⟨hline, ih hnext hvs hrest⟩

theorem readable_of_parse {source : List Char} {p : Program} (h : parse source = .ok p) :
    ∀ text ∈ Text.lines source, ReadableLine text := by
  obtain ⟨ts, s, htokens, hread, -⟩ := reads_of_parse h
  exact readable_of_lexLines (s := State.initial) (.inl trivial) htokens hread

end Scribe.Script
