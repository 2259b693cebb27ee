import Scribe.Proofs.Script.StatementCoverage

/-!
# Covering one token after the other

Every token that the reader takes is covered by the state it leads to. So a state that is reached
covers exactly the tokens taken on the way, and where the input may end these are a program of the
grammar.
-/
namespace Scribe.Script

/-- A token that only changes the statement under way. -/
theorem State.Covers.extend {frames : List Frame} {done : List Stmt} {mode mode' : Mode}
    {t : Token} {ts : List Token} (h : State.Covers ⟨frames, done, mode⟩ ts)
    (hne : mode' ≠ .next) (hm : ∀ cs, mode.Covers cs → mode'.Covers (cs ++ [t])) :
    State.Covers ⟨frames, done, mode'⟩ (ts ++ [t]) := by
  obtain ⟨-, as, bs, cs, rfl, hf, hd, hc⟩ := h
  exact ⟨fun h => absurd h hne, as, bs, cs ++ [t], by simp, hf, hd, hm cs hc⟩

/-- A token that finishes the statement under way. -/
theorem State.Covers.file {frames : List Frame} {done : List Stmt} {mode : Mode} {stmt : Stmt}
    {t : Token} {ts : List Token} (h : State.Covers ⟨frames, done, mode⟩ ts)
    (hm : ∀ cs, mode.Covers cs → Derives (.stmt stmt) (cs ++ [t])) :
    State.Covers ⟨frames, done ++ [stmt], .next⟩ (ts ++ [t]) := by
  obtain ⟨-, as, bs, cs, rfl, hf, hd, hc⟩ := h
  exact ⟨by simp, as, bs ++ (cs ++ [t]), [], by simp, hf, derives_stmts_snoc hd (hm cs hc), .next⟩

theorem Mode.Covers.openParen {purpose : Purpose} {outer : List Pending} {p : Pending} {t : Token}
    {ts : List Token} (h : Mode.Covers (.operand purpose outer p) ts) (ht : t.Is .openParen) :
    Mode.Covers (.operand purpose (p :: outer) {}) (ts ++ [t]) := by
  cases h with
  | operand h ho hp => simpa using Mode.Covers.operand h (ho.cons hp ht) Pending.covers_nil

theorem Mode.Covers.minus {purpose : Purpose} {outer : List Pending} {p : Pending} {t : Token}
    {ts : List Token} (h : Mode.Covers (.operand purpose outer p) ts) (ht : t.Is .minus) :
    Mode.Covers (.operand purpose outer { p with minus := p.minus + 1 }) (ts ++ [t]) := by
  cases h with
  | operand h ho hp => simpa using Mode.Covers.operand h ho (hp.minus ht)

theorem Mode.Covers.literal {purpose : Purpose} {outer : List Pending} {p : Pending} {t : Token}
    {e : Expr} {ts : List Token} (h : Mode.Covers (.operand purpose outer p) ts)
    (ht : Derives (.expr .atom e) [t]) :
    Mode.Covers (.operator purpose outer { p with minus := 0 } (Pending.negate p.minus e))
      (ts ++ [t]) := by
  cases h with
  | operand h ho hp => simpa using Mode.Covers.operator h ho (hp.operand (.unaryAtom ht))

theorem stepOperand_covers {s s' : State} {purpose : Purpose} {outer : List Pending} {p : Pending}
    {t : Token} {ts : List Token} (hm : s.mode = .operand purpose outer p) (h : s.Covers ts)
    (hr : t.Readable) (hs : stepOperand s purpose outer p t = .ok s') : s'.Covers (ts ++ [t]) := by
  obtain ⟨frames, done, mode⟩ := s
  cases hm
  unfold stepOperand at hs
  split at hs
  · rename_i hk
    cases hs
    exact h.extend nofun fun cs hc => hc.openParen (Token.is_of_kind hk)
  · rename_i hk
    cases hs
    exact h.extend nofun fun cs hc => hc.minus (Token.is_of_kind hk)
  · split at hs
    · rename_i he
      cases hs
      exact h.extend nofun fun cs hc => hc.literal (derives_of_operand? hr he)
    · cases hs

/-- An operator after an operand. -/
theorem Mode.Covers.push {purpose : Purpose} {outer : List Pending} {p q : Pending} {e : Expr}
    {t : Token} {ts : List Token} (h : Mode.Covers (.operator purpose outer p e) ts)
    (hq : ∀ vs, p.CoversWith e vs → q.Covers (vs ++ [t])) :
    Mode.Covers (.operand purpose outer q) (ts ++ [t]) := by
  cases h with
  | operator h ho hp => simpa using Mode.Covers.operand h ho (hq _ hp)

theorem Mode.Covers.closeParen {purpose : Purpose} {outer : List Pending} {p q : Pending}
    {e : Expr} {t : Token} {ts : List Token}
    (h : Mode.Covers (.operator purpose (q :: outer) p e) ts) (ht : t.Is .closeParen) :
    Mode.Covers (.operator purpose outer { q with minus := 0 }
      (Pending.negate q.minus (p.close e))) (ts ++ [t]) := by
  cases h with
  | operator h ho hp =>
    cases ho with
    | cons ho hq hl =>
      have hparen := Derives.unaryAtom (.paren hl hp.close ht)
      simpa using Mode.Covers.operator h ho (hq.operand hparen)

theorem Mode.Covers.statement {purpose : Purpose} {p : Pending} {e : Expr} {stmt : Stmt}
    {t : Token} {ts : List Token} (h : Mode.Covers (.operator purpose [] p e) ts)
    (ht : t.Is .newline) (hs : purpose.statement? (p.close e) = some stmt) :
    Derives (.stmt stmt) (ts ++ [t]) := by
  cases h with
  | operator h ho hp =>
    cases ho
    refine Derives.simpleLine ?_ ht
    cases h with
    | model ha hc =>
      cases hs
      exact .selectModel ha hc hp.close
    | assign ha hn hsign =>
      cases hs
      exact .assign ha hn hsign hp.close
    | print hp' =>
      cases hs
      exact .print hp' hp.close
    | first | later => cases hs

theorem Mode.Covers.header {chain : Chain} {p : Pending} {e : Expr} {t : Token} {ts : List Token}
    (h : Mode.Covers (.operator (.condition chain) [] p e) ts) (ht : t.Is .colon) :
    Mode.Covers (.headerEnd chain (some (p.close e))) (ts ++ [t]) := by
  cases h with
  | operator h ho hp =>
    cases ho
    exact .headerEnd (by simpa using HeaderCovers.condition h hp.close ht)

theorem stepOperator_covers {s s' : State} {purpose : Purpose} {outer : List Pending} {p : Pending}
    {e : Expr} {t : Token} {ts : List Token} (hm : s.mode = .operator purpose outer p e)
    (h : s.Covers ts) (hs : stepOperator s purpose outer p e t = .ok s') :
    s'.Covers (ts ++ [t]) := by
  obtain ⟨frames, done, mode⟩ := s
  cases hm
  unfold stepOperator at hs
  split at hs <;> rename_i hk
  · cases hs
    exact h.extend nofun fun cs hc => hc.push fun vs hp =>
      hp.pushAdd (.inl (Token.is_of_kind hk)) hk
  · cases hs
    exact h.extend nofun fun cs hc => hc.push fun vs hp =>
      hp.pushAdd (.inr (Token.is_of_kind hk)) hk
  · rename_i op hadd hsub
    cases hs
    have hop : t.Is .mulOp := by
      cases op
      · exact (hadd rfl).elim
      · exact (hsub rfl).elim
      all_goals exact Token.is_of_kind hk
    exact h.extend nofun fun cs hc => hc.push fun vs hp => hp.pushMul hop hk
  · cases hs
    exact h.extend nofun fun cs hc => hc.push fun vs hp => hp.pushCompare hk
  · cases hs
    exact h.extend nofun fun cs hc => hc.push fun vs hp => hp.pushAnd (Token.is_of_kind hk)
  · cases hs
    exact h.extend nofun fun cs hc => hc.push fun vs hp => hp.pushOr (Token.is_of_kind hk)
  · split at hs
    · cases hs
    · cases hs
      exact h.extend nofun fun cs hc => hc.closeParen (Token.is_of_kind hk)
  · split at hs
    · rename_i hstmt
      cases hs
      exact h.file fun cs hc => hc.statement (Token.is_of_kind hk) hstmt
    · cases hs
  · split at hs
    · cases hs
      exact h.extend nofun fun cs hc => hc.header (Token.is_of_kind hk)
    · cases hs
  · cases hs

theorem stepStatement_covers {s s' : State} {t : Token} {ts : List Token} (hr : s.Ready)
    (h : s.Covers ts) (hs : stepStatement s t = .ok s') : s'.Covers (ts ++ [t]) := by
  unfold stepStatement at hs
  split at hs
  · rename_i hb
    cases hs
    exact h.begin hr hb
  · obtain ⟨frames, done, mode⟩ := s
    split at hs
    · rename_i hm hk
      cases hm
      cases hs
      refine h.extend nofun fun cs hc => ?_
      cases hc with
      | armEnd hchain =>
        simpa using Mode.Covers.operand (.later hchain (Token.is_of_kind hk)) .nil
          Pending.covers_nil
    · rename_i hm hk
      cases hm
      cases hs
      refine h.extend nofun fun cs hc => ?_
      cases hc with
      | armEnd hchain => exact .elseColon hchain (Token.is_of_kind hk)
    · cases hs
    · cases hs
    · rename_i hd hstart hblock
      split at hs
      · rename_i hclose
        cases hs
        have hnext : (State.settle ⟨frames, done, mode⟩).mode = .next := by
          cases mode with
          | start => exact (hstart rfl).elim
          | blockStart => exact (hblock rfl).elim
          | next | armEnd | chainEnd => rfl
          | _ => exact hr.elim
        exact h.closeBlock hr hnext (Token.is_of_kind hd) hclose
      · cases hs
    · cases hs

inductive Mode.Goes (t : Token) : Mode → Mode → Prop
  | modelColon {line} (h : t.Is .colon) :
      Goes t (.modelColon line) (.operand (.model line) [] {})
  | assignName {line} (h : t.Is .name) : Goes t (.assignName line) (.assignSign line t.lexeme)
  | assignSign {line name} (h : t.Is .assign) :
      Goes t (.assignSign line name) (.operand (.assign line name) [] {})
  | askFrom {line name} (h : t.Is .fromWord) : Goes t (.assignSign line name) (.askModel line name)
  | askModel {line name} (h : t.Is .ai) : Goes t (.askModel line name) (.askColon line name)
  | askColon {line name} (h : t.Is .colon) : Goes t (.askColon line name) (.askText line name)
  | askText {line name} (h : t.Is .raw) :
      Goes t (.askText line name)
        (.lineEnd (.ask line name (String.ofList (unwrapPrompt t.lexeme.toList))))
  | expandFrom {line} (h : t.Is .fromWord) : Goes t (.expandFrom line) (.expandModel line)
  | expandModel {line} (h : t.Is .ai) : Goes t (.expandModel line) (.expandColon line)
  | expandColon {line} (h : t.Is .colon) : Goes t (.expandColon line) (.expandText line)
  | expandText {line} (h : t.Is .raw) :
      Goes t (.expandText line) (.lineEnd (.expand line t.lexeme))
  | elseColon {chain} (h : t.Is .colon) : Goes t (.elseColon chain) (.headerEnd chain none)
  | headerEnd {chain condition} (h : t.Is .newline) :
      Goes t (.headerEnd chain condition) (.block chain condition)

/-- What one token can do outside expressions and where no statement may start. -/
theorem State.step_direct {frames : List Frame} {done : List Stmt} {mode : Mode} {s' : State}
    {t : Token} (hs : State.step ⟨frames, done, mode⟩ t = .ok s') :
    (∃ purpose outer p, mode = .operand purpose outer p) ∨
    (∃ purpose outer p e, mode = .operator purpose outer p e) ∨
    State.Ready ⟨frames, done, mode⟩ ∨
    (∃ mode', Mode.Goes t mode mode' ∧ s' = ⟨frames, done, mode'⟩) ∨
    (∃ stmt, mode = .lineEnd stmt ∧ t.Is .newline ∧ s' = ⟨frames, done ++ [stmt], .next⟩) ∨
    ∃ chain condition, mode = .block chain condition ∧ t.Is .indent ∧
      s' = ⟨⟨done, chain, condition⟩ :: frames, [], .blockStart⟩ := by
  cases mode with
  | operand purpose outer p => exact .inl ⟨purpose, outer, p, rfl⟩
  | operator purpose outer p e => exact .inr (.inl ⟨purpose, outer, p, e, rfl⟩)
  | start | blockStart | next | armEnd | chainEnd => exact .inr (.inr (.inl trivial))
  | lineEnd stmt =>
    simp only [State.step] at hs
    split at hs <;> first | contradiction | rename_i hm hk; cases hm; cases hs
    exact .inr (.inr (.inr (.inr (.inl ⟨stmt, rfl, Token.is_of_kind hk, rfl⟩))))
  | block chain condition =>
    simp only [State.step] at hs
    split at hs <;> first | contradiction | rename_i hm hk; cases hm; cases hs
    exact .inr (.inr (.inr (.inr (.inr ⟨chain, condition, rfl, Token.is_of_kind hk, rfl⟩))))
  | _ =>
    refine .inr (.inr (.inr (.inl ?_)))
    simp only [State.step] at hs
    split at hs <;> first | contradiction | rename_i hm hk; cases hm; cases hs
    all_goals
      refine ⟨_, ?_, rfl⟩
      constructor
      exact Token.is_of_kind ‹_›

theorem Mode.Goes.covers {t : Token} {mode mode' : Mode} {cs : List Token}
    (h : Mode.Goes t mode mode') (hc : mode.Covers cs) : mode'.Covers (cs ++ [t]) := by
  cases h with
  | modelColon h =>
    cases hc with
    | modelColon ht => exact .operand (.model ht h) .nil Pending.covers_nil
  | assignName h =>
    cases hc with
    | assignName ht => exact .assignSign ht h
  | assignSign h =>
    cases hc with
    | assignSign ht hn => exact .operand (.assign ht hn h) .nil Pending.covers_nil
  | askFrom h =>
    cases hc with
    | assignSign ht hn => exact .askModel ht hn h
  | askModel h =>
    cases hc with
    | askModel ht hn hf => exact .askColon ht hn hf h
  | askColon h =>
    cases hc with
    | askColon ht hn hf hm => exact .askText ht hn hf hm h
  | askText h =>
    cases hc with
    | askText ht hn hf hm hc => exact .lineEnd (.assignAi ht hn hf hm hc h)
  | expandFrom h =>
    cases hc with
    | expandFrom ht => exact .expandModel ht h
  | expandModel h =>
    cases hc with
    | expandModel ht hf => exact .expandColon ht hf h
  | expandColon h =>
    cases hc with
    | expandColon ht hf hm => exact .expandText ht hf hm h
  | expandText h =>
    cases hc with
    | expandText ht hf hm hc => exact .lineEnd (.expand ht hf hm hc h)
  | elseColon h =>
    cases hc with
    | elseColon hchain ht => exact .headerEnd (by simpa using HeaderCovers.last hchain ht h)
  | headerEnd h =>
    cases hc with
    | headerEnd hh => exact .block hh h

theorem State.Covers.open {frames : List Frame} {done : List Stmt} {chain : Chain}
    {condition : Option Expr} {t : Token} {ts : List Token}
    (h : State.Covers ⟨frames, done, .block chain condition⟩ ts) (ht : t.Is .indent) :
    State.Covers ⟨⟨done, chain, condition⟩ :: frames, [], .blockStart⟩ (ts ++ [t]) := by
  obtain ⟨-, as, bs, cs, rfl, hf, hd, hc⟩ := h
  cases hc with
  | block hh hn => exact ⟨nofun, _, [], [], by simp, hf.cons hd hh hn ht, .stmtsNil, .blockStart⟩

theorem State.Covers.step {s s' : State} {t : Token} {ts : List Token} (h : s.Covers ts)
    (hr : t.Readable) (hs : s.step t = .ok s') : s'.Covers (ts ++ [t]) := by
  obtain ⟨frames, done, mode⟩ := s
  rcases State.step_direct hs with ⟨purpose, outer, p, rfl⟩ | ⟨purpose, outer, p, e, rfl⟩ |
    hready | ⟨mode', hgoes, rfl⟩ | ⟨stmt, rfl, hn, rfl⟩ | ⟨chain, condition, rfl, hi, rfl⟩
  · exact stepOperand_covers rfl h hr hs
  · exact stepOperator_covers rfl h hs
  · rw [hready.step] at hs
    exact stepStatement_covers hready h hs
  · refine h.extend ?_ fun cs hc => hgoes.covers hc
    rintro rfl
    cases hgoes
  · refine h.file fun cs hc => ?_
    cases hc with
    | lineEnd hsimple => exact .simpleLine hsimple hn
  · exact h.open hi

/-- A run covers the tokens it takes. -/
theorem State.Covers.run {s s' : State} {ts us : List Token} (h : s.Covers ts)
    (hr : ∀ t ∈ us, t.Readable) (hs : s.Reads us s') : s'.Covers (ts ++ us) := by
  induction us generalizing s ts with
  | nil =>
    cases hs
    simpa using h
  | cons t us ih =>
    unfold State.Reads at hs
    rw [List.foldlM_cons] at hs
    cases hstep : s.step t with
    | error failure =>
      rw [hstep] at hs
      cases hs
    | ok s₁ =>
      rw [hstep] at hs
      have hnext := ih (h.step (hr t (by simp)) hstep) (fun u hu => hr u (by simp [hu])) hs
      simpa using hnext

theorem State.Covers.finish {s : State} {p : Program} {ts : List Token} (h : s.Covers ts)
    (hs : s.finish = .ok p) : Derives (.program p) ts := by
  have hready : s.Ready := by
    obtain ⟨frames, done, mode⟩ := s
    cases mode with
    | start | blockStart | next | armEnd | chainEnd => trivial
    | _ => cases hs
  obtain ⟨-, as, bs, rfl, hf, hd⟩ := h.boundary hready
  have hsettled : s.settle.frames = [] ∧ s.settle.done = p := by
    simp only [State.finish] at hs
    split at hs
    · rename_i hframes
      cases hs
      exact ⟨hframes, rfl⟩
    · rename_i hframes
      cases hs
      exact ⟨hframes, rfl⟩
    · cases hs
  rw [← State.settle_frames, hsettled.1] at hf
  cases hf
  rw [← hsettled.2]
  exact .start hd

/-- What the reader accepts is a program of the grammar. -/
theorem derives_of_parseTokens {p : Program} {ts : List Token} (hr : ∀ t ∈ ts, t.Readable)
    (h : parseTokens ts = .ok p) : Derives (.program p) ts := by
  unfold parseTokens at h
  cases hrun : ts.foldlM State.step State.initial with
  | error failure =>
    rw [hrun] at h
    cases h
  | ok s =>
    rw [hrun] at h
    exact (State.covers_initial.run hr hrun).finish h

end Scribe.Script
