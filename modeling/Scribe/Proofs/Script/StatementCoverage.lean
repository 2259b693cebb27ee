import Scribe.Proofs.Script.ExpressionCoverage
import Scribe.Proofs.Script.StatementReading

/-!
# The tokens behind a state of the reader

A state of the reader covers the tokens it has taken: those of the blocks that are open, of the
statements that are finished and of the statement under way. Where a statement may start, the
finished statements come last; a token that starts a statement or closes a block keeps the rest.
-/
namespace Scribe.Script

theorem derives_stmts_snoc {s : Stmt} {body : List Stmt} {ts us : List Token}
    (h : Derives (.stmts body) ts) (hs : Derives (.stmt s) us) :
    Derives (.stmts (body ++ [s])) (ts ++ us) := by
  induction body generalizing ts with
  | nil =>
    cases h
    simpa using Derives.stmtsCons hs .stmtsNil
  | cons x xs ih =>
    cases h with
    | stmtsCons hx tail => simpa using Derives.stmtsCons hx (ih tail)

theorem derives_elifs_snoc {t c n : Token} {condition : Expr} {body : List Stmt}
    {arms : List (Expr × List Stmt)} {ts us vs : List Token} (h : Derives (.elifs arms) vs)
    (ht : t.Is .elifWord) (hcond : Derives (.expr .orTest condition) ts) (hc : c.Is .colon)
    (hn : n.Is .newline) (hbody : Derives (.block body) us) :
    Derives (.elifs (arms ++ [(condition, body)])) (vs ++ (t :: ts ++ c :: n :: us)) := by
  induction arms generalizing vs with
  | nil =>
    cases h
    simpa using Derives.elifCons ht hcond hc hn hbody .elifNil
  | cons x xs ih =>
    cases h with
    | elifCons ht' hcond' hc' hn' hbody' tail =>
      simpa using Derives.elifCons ht' hcond' hc' hn' hbody' (ih tail)

inductive Chain.Covers : Chain → List Token → Prop
  | mk {t c n condition body arms ts us vs} (ht : t.Is .ifWord)
      (hcond : Derives (.expr .orTest condition) ts) (hc : c.Is .colon) (hn : n.Is .newline)
      (hbody : Derives (.block body) us) (harms : Derives (.elifs arms) vs) :
      Chain.Covers ⟨t.line, (condition, body) :: arms⟩ (t :: ts ++ c :: n :: us ++ vs)

inductive Purpose.Covers : Purpose → List Token → Prop
  | model {t c} (ht : t.Is .ai) (hc : c.Is .colon) : Purpose.Covers (.model t.line) [t, c]
  | assign {t n a} (ht : t.Is .set) (hn : n.Is .name) (ha : a.Is .assign) :
      Purpose.Covers (.assign t.line n.lexeme) [t, n, a]
  | print {t} (ht : t.Is .neuro) : Purpose.Covers (.print t.line) [t]
  | first {t} (ht : t.Is .ifWord) : Purpose.Covers (.condition ⟨t.line, []⟩) [t]
  | later {chain t ts} (h : chain.Covers ts) (ht : t.Is .elifWord) :
      Purpose.Covers (.condition chain) (ts ++ [t])

inductive HeaderCovers : Chain → Option Expr → List Token → Prop
  | condition {chain e c ts us} (h : Purpose.Covers (.condition chain) ts)
      (he : Derives (.expr .orTest e) us) (hc : c.Is .colon) :
      HeaderCovers chain (some e) (ts ++ us ++ [c])
  | last {chain t c ts} (h : chain.Covers ts) (ht : t.Is .elseWord) (hc : c.Is .colon) :
      HeaderCovers chain none (ts ++ [t, c])

inductive OuterCovers : List Pending → List Token → Prop
  | nil : OuterCovers [] []
  | cons {p outer t ts us} (h : OuterCovers outer ts) (hp : p.Covers us) (ht : t.Is .openParen) :
      OuterCovers (p :: outer) (ts ++ us ++ [t])

inductive Mode.Covers : Mode → List Token → Prop
  | start : Mode.Covers .start []
  | blockStart : Mode.Covers .blockStart []
  | next : Mode.Covers .next []
  | armEnd {chain ts} (h : chain.Covers ts) : Mode.Covers (.armEnd chain) ts
  | chainEnd {chain last ts us} (h : chain.Covers ts) (hlast : Derives (.otherwise (some last)) us) :
      Mode.Covers (.chainEnd chain last) (ts ++ us)
  | modelColon {t} (ht : t.Is .ai) : Mode.Covers (.modelColon t.line) [t]
  | assignName {t} (ht : t.Is .set) : Mode.Covers (.assignName t.line) [t]
  | assignSign {t n} (ht : t.Is .set) (hn : n.Is .name) :
      Mode.Covers (.assignSign t.line n.lexeme) [t, n]
  | askModel {t n f} (ht : t.Is .set) (hn : n.Is .name) (hf : f.Is .fromWord) :
      Mode.Covers (.askModel t.line n.lexeme) [t, n, f]
  | askColon {t n f m} (ht : t.Is .set) (hn : n.Is .name) (hf : f.Is .fromWord) (hm : m.Is .ai) :
      Mode.Covers (.askColon t.line n.lexeme) [t, n, f, m]
  | askText {t n f m c} (ht : t.Is .set) (hn : n.Is .name) (hf : f.Is .fromWord) (hm : m.Is .ai)
      (hc : c.Is .colon) : Mode.Covers (.askText t.line n.lexeme) [t, n, f, m, c]
  | expandFrom {t} (ht : t.Is .macroWord) : Mode.Covers (.expandFrom t.line) [t]
  | expandModel {t f} (ht : t.Is .macroWord) (hf : f.Is .fromWord) :
      Mode.Covers (.expandModel t.line) [t, f]
  | expandColon {t f m} (ht : t.Is .macroWord) (hf : f.Is .fromWord) (hm : m.Is .ai) :
      Mode.Covers (.expandColon t.line) [t, f, m]
  | expandText {t f m c} (ht : t.Is .macroWord) (hf : f.Is .fromWord) (hm : m.Is .ai)
      (hc : c.Is .colon) : Mode.Covers (.expandText t.line) [t, f, m, c]
  | lineEnd {stmt ts} (h : Derives (.simple stmt) ts) : Mode.Covers (.lineEnd stmt) ts
  | elseColon {chain t ts} (h : chain.Covers ts) (ht : t.Is .elseWord) :
      Mode.Covers (.elseColon chain) (ts ++ [t])
  | headerEnd {chain condition ts} (h : HeaderCovers chain condition ts) :
      Mode.Covers (.headerEnd chain condition) ts
  | block {chain condition n ts} (h : HeaderCovers chain condition ts) (hn : n.Is .newline) :
      Mode.Covers (.block chain condition) (ts ++ [n])
  | operand {purpose outer p ts us vs} (h : purpose.Covers ts) (ho : OuterCovers outer us)
      (hp : p.Covers vs) : Mode.Covers (.operand purpose outer p) (ts ++ us ++ vs)
  | operator {purpose outer p e ts us vs} (h : purpose.Covers ts) (ho : OuterCovers outer us)
      (hp : p.CoversWith e vs) : Mode.Covers (.operator purpose outer p e) (ts ++ us ++ vs)

inductive FramesCover : List Frame → List Token → Prop
  | nil : FramesCover [] []
  | cons {frames before chain condition n i ts us vs} (h : FramesCover frames ts)
      (hb : Derives (.stmts before) us) (hh : HeaderCovers chain condition vs) (hn : n.Is .newline)
      (hi : i.Is .indent) :
      FramesCover (⟨before, chain, condition⟩ :: frames) (ts ++ us ++ vs ++ [n, i])

def State.Covers (s : State) (ts : List Token) : Prop :=
  (s.mode = .next → s.done ≠ []) ∧
    ∃ as bs cs, ts = as ++ bs ++ cs ∧ FramesCover s.frames as ∧ Derives (.stmts s.done) bs ∧
      s.mode.Covers cs

theorem State.covers_initial : State.initial.Covers [] :=
  ⟨by simp [State.initial], [], [], [], rfl, .nil, .stmtsNil, .start⟩

/-- An `if` statement whose last arm is closed. -/
theorem Chain.Covers.derives {chain : Chain} {last : Option (List Stmt)} {ts us : List Token}
    (h : chain.Covers ts) (hlast : Derives (.otherwise last) us) :
    Derives (.stmt (.choose chain.line chain.arms last)) (ts ++ us) := by
  cases h with
  | mk ht hcond hc hn hbody harms => exact .choose ht hcond hc hn hbody harms hlast

/-- Where a statement may start, the tokens of the finished statements are the last ones. -/
theorem State.Covers.boundary {s : State} {ts : List Token} (h : s.Covers ts) (hr : s.Ready) :
    (s.settle.mode = .next → s.settle.done ≠ []) ∧
    ∃ as bs, ts = as ++ bs ∧ FramesCover s.frames as ∧ Derives (.stmts s.settle.done) bs := by
  obtain ⟨frames, done, mode⟩ := s
  obtain ⟨hdone, as, bs, cs, rfl, hf, hd, hm⟩ := h
  cases hm with
  | start | blockStart | next => exact ⟨hdone, as, bs, by simp, hf, hd⟩
  | armEnd hchain =>
    have hstmt := hchain.derives .elseNone
    rw [List.append_nil] at hstmt
    exact ⟨by simp [settle], as, bs ++ cs, by simp, hf, derives_stmts_snoc hd hstmt⟩
  | chainEnd hchain hlast =>
    have hstmt := hchain.derives hlast
    exact ⟨by simp [settle], as, bs ++ _, by simp, hf, derives_stmts_snoc hd hstmt⟩
  | _ => exact hr.elim

theorem Token.is_of_kind {t : Token} {k : Kind} (h : t.kind = k) : t.Is k.terminal :=
  congrArg Kind.terminal h

/-- A token that starts a statement. -/
theorem State.Covers.begin {s s' : State} {t : Token} {ts : List Token} (h : s.Covers ts)
    (hr : s.Ready) (hb : s.begin t = some s') : s'.Covers (ts ++ [t]) := by
  obtain ⟨-, as, bs, rfl, hf, hd⟩ := h.boundary hr
  rw [← s.settle_frames] at hf
  unfold State.begin at hb
  split at hb <;> rename_i hk
  · cases hb
    exact ⟨nofun, as, bs, [t], rfl, hf, hd, .modelColon (Token.is_of_kind hk)⟩
  · cases hb
    exact ⟨nofun, as, bs, [t], rfl, hf, hd, .assignName (Token.is_of_kind hk)⟩
  · cases hb
    exact ⟨nofun, as, bs, [t], rfl, hf, hd,
      .operand (.print (Token.is_of_kind hk)) .nil Pending.covers_nil⟩
  · cases hb
    exact ⟨nofun, as, bs, [t], rfl, hf, hd, .expandFrom (Token.is_of_kind hk)⟩
  · cases hb
    exact ⟨nofun, as, bs, [t], rfl, hf, hd,
      .operand (.first (Token.is_of_kind hk)) .nil Pending.covers_nil⟩
  · cases hb

/-- The block of an arm, behind its header. -/
theorem HeaderCovers.closed {chain : Chain} {condition : Option Expr} {n : Token}
    {body : List Stmt} {ts us : List Token} (h : HeaderCovers chain condition ts)
    (hn : n.Is .newline) (hbody : Derives (.block body) us) :
    (chain.closed condition body).Covers (ts ++ n :: us) := by
  cases h with
  | condition hp he hc =>
    cases hp with
    | first ht =>
      have hchain := Chain.Covers.mk ht he hc hn hbody .elifNil
      exact Mode.Covers.armEnd (by simpa using hchain)
    | later hchain ht =>
      cases hchain with
      | mk ht' he' hc' hn' hbody' harms =>
        have hchain :=
          Chain.Covers.mk ht' he' hc' hn' hbody' (derives_elifs_snoc harms ht he hc hn hbody)
        exact Mode.Covers.armEnd (by simpa using hchain)
  | last hchain ht hc =>
    have hend := Mode.Covers.chainEnd hchain (.elseSome ht hc hn hbody)
    simpa [Chain.closed] using hend

/-- The token that closes a block. -/
theorem State.Covers.closeBlock {s s' : State} {d : Token} {ts : List Token} (h : s.Covers ts)
    (hr : s.Ready) (hnext : s.settle.mode = .next) (hd : d.Is .dedent)
    (hs : s.closeBlock = some s') : s'.Covers (ts ++ [d]) := by
  obtain ⟨hne, as, bs, rfl, hf, hbody⟩ := h.boundary hr
  obtain ⟨frames, done, mode⟩ := s
  cases hf with
  | nil => cases hs
  | cons hf hbefore hh hn hi =>
    rw [State.closeBlock_cons] at hs
    cases hs
    have hblock := Derives.block hi hbody (hne hnext) hd
    have hmode := hh.closed hn hblock
    refine ⟨?_, _, _, _, ?_, hf, hbefore, hmode⟩
    · intro hm
      cases hh <;> cases hm
    · simp

end Scribe.Script
