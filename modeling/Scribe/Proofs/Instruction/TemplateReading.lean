import Scribe.Proofs.Instruction.TemplateLines
import Scribe.Proofs.Script.Exactness
import Scribe.Proofs.Script.LineReading

/-!
# Reading what templates write

The reader takes the lines of a template one after the other. Between two lines it stands outside
every block or in the block of one arm, and all it has filed prints, assigns an expression, or
chooses among blocks that only print; so nothing else is in the program.
-/
namespace Scribe

namespace Script

def Stmt.IsPrint : Stmt → Prop
  | .print .. => True
  | _ => False

/-- A statement that prints, assigns an expression, or chooses among blocks that only print. -/
def Stmt.Tame : Stmt → Prop
  | .print .. => True
  | .assign .. => True
  | .choose _ arms last =>
    (∀ arm ∈ arms, ∀ s ∈ arm.2, s.IsPrint) ∧ ∀ body, last = some body → ∀ s ∈ body, s.IsPrint
  | _ => False

def Chain.Prints (c : Chain) : Prop := ∀ arm ∈ c.arms, ∀ s ∈ arm.2, s.IsPrint

inductive Mode.Ended : Mode → Prop
  | start : Ended .start
  | next : Ended .next
  | armEnd {c} (hc : c.Prints) : Ended (.armEnd c)
  | chainEnd {c last} (hc : c.Prints) (hl : ∀ s ∈ last, s.IsPrint) : Ended (.chainEnd c last)

/-- The reader between two lines of a template, with the levels that are open. -/
inductive State.Tame : List Nat → State → Prop
  | outside {done mode} (hd : ∀ s ∈ done, s.Tame) (hm : mode.Ended) : Tame [] ⟨[], done, mode⟩
  | inArm {before chain condition done} (hb : ∀ s ∈ before, s.Tame) (hc : chain.Prints)
      (hd : ∀ s ∈ done, s.IsPrint) : Tame [4] ⟨[⟨before, chain, condition⟩], done, .next⟩

theorem Chain.Prints.closed {chain : Chain} {condition : Option Expr} {body : List Stmt}
    (hc : chain.Prints) (hb : ∀ s ∈ body, s.IsPrint) : (chain.closed condition body).Ended := by
  cases condition with
  | none => exact .chainEnd hc hb
  | some e =>
    refine .armEnd fun arm harm => ?_
    rcases List.mem_append.mp harm with harm | harm
    · exact hc arm harm
    · rw [List.mem_singleton.mp harm]
      exact hb

theorem Mode.Ended.ready {frames : List Frame} {done : List Stmt} {mode : Mode}
    (h : mode.Ended) : State.Ready ⟨frames, done, mode⟩ := by
  cases h <;> trivial

theorem Mode.Ended.settled {done : List Stmt} {mode : Mode} (h : mode.Ended)
    (hd : ∀ s ∈ done, s.Tame) (frames : List Frame) :
    ∀ s ∈ (State.settle ⟨frames, done, mode⟩).done, s.Tame := by
  cases h with
  | start => exact hd
  | next => exact hd
  | armEnd hc =>
    intro s hs
    rcases List.mem_append.mp hs with hs | hs
    · exact hd s hs
    · rw [List.mem_singleton.mp hs]
      exact ⟨hc, nofun⟩
  | chainEnd hc hl =>
    intro s hs
    rcases List.mem_append.mp hs with hs | hs
    · exact hd s hs
    · rw [List.mem_singleton.mp hs]
      refine ⟨hc, fun body hbody => ?_⟩
      cases hbody
      exact hl

theorem State.Tame.ready {levels : List Nat} {s : State} (h : s.Tame levels) : s.Ready := by
  cases h with
  | outside _ hm => exact hm.ready
  | inArm => trivial

theorem State.Tame.file {s : State} {stmt : Stmt} (h : s.Tame []) (hstmt : stmt.Tame) :
    State.Tame [] ⟨s.frames, s.settle.done ++ [stmt], .next⟩ := by
  cases h with
  | outside hd hm =>
    refine .outside ?_ .next
    intro x hx
    rcases List.mem_append.mp hx with hx | hx
    · exact hm.settled hd [] x hx
    · rw [List.mem_singleton.mp hx]
      exact hstmt

/-- A line that is not indented closes the arm that is open. -/
theorem State.Tame.dedent {line : Nat} {levels levels' : List Nat} {s s' : State}
    {marks : List Token} (h : s.Tame levels) (hm : blockMarks line levels 0 = .ok (marks, levels'))
    (hs : s.Reads marks s') : levels' = [] ∧ s'.Tame [] := by
  cases h with
  | outside hd hmode =>
    cases hm
    cases hs
    exact ⟨rfl, .outside hd hmode⟩
  | inArm hb hc hd =>
    cases hm
    have hstep := State.Reads.of_one hs
    rw [State.step_dedent] at hstep
    · cases hstep
      exact ⟨rfl, .outside hb (hc.closed hd)⟩
    · rfl
    · rfl

theorem State.Tame.finish {s : State} {p : Program} (h : s.Tame []) (hs : s.finish = .ok p) :
    ∀ stmt ∈ p, stmt.Tame := by
  cases h with
  | outside hd hmode =>
    have hall := hmode.settled hd []
    simp only [State.finish] at hs
    split at hs
    · cases hs
      exact hall
    · cases hs
      exact hall
    · cases hs

end Script

namespace Instruction
open Text Script

variable {line : Nat} {levels : List Nat} {rest : List (List Char)} {ts : List Token}
  {s s' : State}

theorem not_isLayout_of_lexFrom {recent : List Kind} {column skip : Nat} {cs : List Char}
    {us : List Token} (h : lexFrom line recent column skip cs = .ok us) :
    ∀ u ∈ us, ¬u.IsLayout :=
  fun u hu => (inCode_of_lexFrom h u hu).not_isLayout

/-- A line that starts with a word and is not indented: the marks of the blocks that it ends, and
its own tokens. -/
theorem reads_markedLine {text r y : List Char} {c : Char} (hcode : codeOf text = c :: r ++ y)
    (hw : IsWord (c :: r)) (hd : isDigit c = false) (hy : y.head?.any isWordChar = false)
    (hl : lexLines line levels (text :: rest) = .ok ts) (hs : s.Reads ts s') :
    ∃ (marks : List Token) (levels' : List Nat) (s₀ s₁ : State) (us vs : List Token) (n : Token),
      blockMarks line levels 0 = .ok (marks, levels') ∧ s.Reads marks s₀ ∧
      lexFrom line [wordKind (c :: r)] (0 + 1 + (c :: r).length) 0 y = .ok us ∧
      n.kind = .newline ∧
      s₀.Reads (⟨wordKind (c :: r), String.ofList (c :: r), line, 0 + 1⟩ :: us ++ [n]) s₁ ∧
      lexLines (line + 1) levels' rest = .ok vs ∧ s₁.Reads vs s' := by
  obtain ⟨us, levels', vs, hline, hvs, rfl⟩ := lexLines_code (by simp [hcode]) hl
  obtain ⟨s₁, hus, hrest⟩ := hs.of_append
  rw [hcode] at hline
  obtain ⟨marks, ws, n, hmarks, hws, hn, rfl⟩ := lexLine_word (k := 0) hw hd hy hline
  obtain ⟨s₀, hm, hword⟩ := hus.of_append
  exact ⟨marks, levels', s₀, s₁, ws, vs, n, hmarks, hm, hws, hn, hword, hvs, hrest⟩

/-- The reader of a template has closed its arm where such a line starts. -/
theorem reads_wordLine {text r y : List Char} {c : Char} (hcode : codeOf text = c :: r ++ y)
    (hw : IsWord (c :: r)) (hd : isDigit c = false) (hy : y.head?.any isWordChar = false)
    (h : s.Tame levels) (hl : lexLines line levels (text :: rest) = .ok ts) (hs : s.Reads ts s') :
    ∃ (s₀ s₁ : State) (us vs : List Token) (n : Token), s₀.Tame [] ∧
      lexFrom line [wordKind (c :: r)] (0 + 1 + (c :: r).length) 0 y = .ok us ∧
      n.kind = .newline ∧
      s₀.Reads (⟨wordKind (c :: r), String.ofList (c :: r), line, 0 + 1⟩ :: us ++ [n]) s₁ ∧
      lexLines (line + 1) [] rest = .ok vs ∧ s₁.Reads vs s' := by
  obtain ⟨marks, levels', s₀, s₁, us, vs, n, hmarks, hm, hus, hn, hline, hvs, hrest⟩ :=
    reads_markedLine hcode hw hd hy hl hs
  obtain ⟨rfl, hs₀⟩ := h.dedent hmarks hm
  exact ⟨s₀, s₁, us, vs, n, hs₀, hus, hn, hline, hvs, hrest⟩

theorem noWordAhead {y : List Char} (h : y = [] ∨ ∃ z, y = ' ' :: z) :
    y.head?.any isWordChar = false := by
  have hspace : isWordChar ' ' = false := by decide
  rcases h with rfl | ⟨z, rfl⟩
  · rfl
  · exact hspace

theorem reads_print {e : List Char} (h : s.Tame levels)
    (hl : lexLines line levels (printExpr e :: rest) = .ok ts) (hs : s.Reads ts s') :
    ∃ (s₁ : State) (vs : List Token), s₁.Tame [] ∧ lexLines (line + 1) [] rest = .ok vs ∧
      s₁.Reads vs s' := by
  obtain ⟨y, hcode, hy⟩ := codeOf_front (w := "neuro".toList) (by decide) (by decide) e
  obtain ⟨s₀, s₁, us, vs, n, hs₀, hus, hn, hline, hvs, hrest⟩ :=
    reads_wordLine hcode (by decide) (by decide) (noWordAhead hy) h hl hs
  obtain ⟨l, x, rfl⟩ := reads_printLine hs₀.ready rfl (not_isLayout_of_lexFrom hus) hn hline
  have hstmt : (Stmt.print l x).Tame := trivial
  exact ⟨_, vs, hs₀.file hstmt, hvs, hrest⟩

/-- Behind `set` and a name stands the sign of an assignment; a front that is no name is refused
by the reader. -/
theorem tokens_of_name {recent : List Kind} {column : Nat} {name y : List Char} {us : List Token}
    (hname : IsWord name) (hy : y = [] ∨ ∃ z, y = ' ' :: z)
    (h : lexFrom line recent column 0 (name ++ " =".toList ++ y) = .ok us) :
    ∃ u vs, us = u :: vs ∧ (u.kind ≠ .identifier ∨
      u.lexeme = String.ofList name ∧ ∃ a ws, vs = a :: ws ∧ a.kind = .assign) := by
  have hsign (recent : List Kind) (column : Nat) (us : List Token)
      (h : lexFrom line recent column 0 (' ' :: '=' :: y) = .ok us) :
      ∃ a ws, us = a :: ws ∧ a.kind = .assign := by
    rw [lexFrom_blank, lexFrom_assign hy] at h
    obtain ⟨ws, -, rfl⟩ := Outcome.map_eq_ok.mp h
    exact ⟨_, ws, rfl, rfl⟩
  cases name with
  | nil =>
    obtain ⟨a, ws, rfl, ha⟩ := hsign _ _ us h
    exact ⟨a, ws, rfl, .inl (by simp [ha])⟩
  | cons c r =>
    have htail : (c :: r) ++ " =".toList ++ y = (c :: r) ++ (' ' :: '=' :: y) := by simp
    rw [htail] at h
    cases hd : isDigit c with
    | true =>
      have hc : isWordChar c = true := hname c (by simp)
      obtain ⟨x, vs, hx, rfl⟩ := head_of_lexFrom (by rintro rfl; revert hc; decide)
        (by rintro rfl; revert hc; decide) h
      rw [lexemeAt_digit hd] at hx
      cases hx
      exact ⟨_, vs, rfl, .inl (by simp)⟩
    | false =>
      rw [lexFrom_word hname hd rfl] at h
      obtain ⟨vs, hvs, rfl⟩ := Outcome.map_eq_ok.mp h
      exact ⟨_, vs, rfl, .inr ⟨rfl, hsign _ _ vs hvs⟩⟩

theorem codeOf_setLine {name : List Char} (hname : IsWord name) (e : List Char) :
    ∃ y, codeOf (setLine name e) = "set".toList ++ (' ' :: (name ++ " =".toList ++ y)) ∧
      (y = [] ∨ ∃ z, y = ' ' :: z) := by
  have hfront : ∀ c ∈ "set ".toList ++ name ++ " =".toList, c ≠ '"' ∧ c ≠ '#' ∧ c ≠ '/' := by
    have hset : ∀ c ∈ "set ".toList, c ≠ '"' ∧ c ≠ '#' ∧ c ≠ '/' := by decide
    have hsign : ∀ c ∈ " =".toList, c ≠ '"' ∧ c ≠ '#' ∧ c ≠ '/' := by decide
    intro c hc
    rcases List.mem_append.mp hc with hc | hc
    · exact (List.mem_append.mp hc).elim (hset c) (hname.plain c)
    · exact hsign c hc
  have hlast : ("set ".toList ++ name ++ " =".toList).getLast? = some '=' := by
    simp [List.getLast?_cons]
  have htext : setLine name e = "set ".toList ++ name ++ " =".toList ++ ' ' :: e := by
    simp [setLine_eq]
  obtain ⟨y, hcode, hy⟩ := codeOf_front hfront (by rw [hlast]; decide) e
  exact ⟨y, by rw [htext, hcode]; simp, hy⟩

/-- The tokens of a line that assigns to a name. -/
theorem reads_assignment {recent : List Kind} {column : Nat} {name y : List Char}
    {us : List Token} {t n : Token} (hname : IsWord name) (hy : y = [] ∨ ∃ z, y = ' ' :: z)
    (hus : lexFrom line recent column 0 (' ' :: (name ++ " =".toList ++ y)) = .ok us)
    (hr : s.Ready) (ht : t.kind = .keyword .set) (hn : n.kind = .newline)
    (h : s.Reads (t :: us ++ [n]) s') :
    ∃ l x, s' = ⟨s.frames, s.settle.done ++ [.assign l (String.ofList name) x], .next⟩ := by
  have hinline := not_isLayout_of_lexFrom hus
  rw [lexFrom_blank] at hus
  obtain ⟨u, ws, rfl, hu⟩ := tokens_of_name hname hy hus
  obtain ⟨hk, l, x, rfl⟩ := reads_setLine hr ht (hu.imp_right And.right)
    (fun v hv => hinline v (by simp [hv])) hn h
  rcases hu with hu | ⟨hu, -⟩
  · exact absurd hk hu
  · exact ⟨l, x, by rw [hu]⟩

theorem reads_set {name e : List Char} (hname : IsWord name) (h : s.Tame levels)
    (hl : lexLines line levels (setLine name e :: rest) = .ok ts) (hs : s.Reads ts s') :
    ∃ (s₁ : State) (vs : List Token), s₁.Tame [] ∧ lexLines (line + 1) [] rest = .ok vs ∧
      s₁.Reads vs s' := by
  obtain ⟨y, hcode, hy⟩ := codeOf_setLine hname e
  obtain ⟨s₀, s₁, us, vs, n, hs₀, hus, hn, hline, hvs, hrest⟩ :=
    reads_wordLine hcode (by decide) (by decide) rfl h hl hs
  obtain ⟨l, x, rfl⟩ := reads_assignment hname hy hus hs₀.ready rfl hn hline
  have hstmt : (Stmt.assign l (String.ofList name) x).Tame := trivial
  exact ⟨_, vs, hs₀.file hstmt, hvs, hrest⟩

theorem reads_plain {l : List Char} (hline : PlainLine l) (h : s.Tame levels)
    (hl : lexLines line levels (l :: rest) = .ok ts) (hs : s.Reads ts s') :
    ∃ (levels₁ : List Nat) (s₁ : State) (vs : List Token), s₁.Tame levels₁ ∧
      lexLines (line + 1) levels₁ rest = .ok vs ∧ s₁.Reads vs s' := by
  cases hline with
  | print _ => exact ⟨[], reads_print h hl hs⟩
  | set hname _ => exact ⟨[], reads_set hname h hl hs⟩
  | comment hmark _ =>
    -- A comment leaves nothing behind: neither tokens nor a change of the levels.
    rw [lexLines_blank (by rcases hmark with rfl | rfl <;> rfl)] at hl
    exact ⟨levels, s, ts, h, hl, hs⟩

def State.InHeader (s : State) : Prop :=
  ∃ done chain condition, s = ⟨[], done, .block chain condition⟩ ∧ (∀ x ∈ done, x.Tame) ∧
    chain.Prints

theorem reads_header {front test : List Char} (hfront : front = "if ".toList ∨ front = "elif ".toList)
    (h : s.Tame levels) (hl : lexLines line levels ((front ++ test ++ [':']) :: rest) = .ok ts)
    (hs : s.Reads ts s') :
    ∃ (s₁ : State) (vs : List Token), State.InHeader s₁ ∧ lexLines (line + 1) [] rest = .ok vs ∧
      s₁.Reads vs s' := by
  rcases hfront with rfl | rfl
  · obtain ⟨y, hcode, hy⟩ :=
      codeOf_front (w := "if".toList) (by decide) (by decide) (test ++ [':'])
    obtain ⟨s₀, s₁, us, vs, n, hs₀, hus, hn, hline, hvs, hrest⟩ :=
      reads_wordLine hcode (by decide) (by decide) (noWordAhead hy) h hl hs
    obtain ⟨e, rfl⟩ := reads_ifLine hs₀.ready rfl (not_isLayout_of_lexFrom hus) hn hline
    cases hs₀ with
    | outside hd hm =>
      exact ⟨_, vs, ⟨_, _, _, rfl, hm.settled hd [], by simp [Chain.Prints]⟩, hvs, hrest⟩
  · obtain ⟨y, hcode, hy⟩ :=
      codeOf_front (w := "elif".toList) (by decide) (by decide) (test ++ [':'])
    obtain ⟨s₀, s₁, us, vs, n, hs₀, hus, hn, hline, hvs, hrest⟩ :=
      reads_wordLine hcode (by decide) (by decide) (noWordAhead hy) h hl hs
    obtain ⟨chain, e, hmode, rfl⟩ :=
      reads_elifLine hs₀.ready rfl (not_isLayout_of_lexFrom hus) hn hline
    cases hs₀ with
    | outside hd hm =>
      cases hmode
      cases hm with
      | armEnd hc => exact ⟨_, vs, ⟨_, _, _, rfl, hd, hc⟩, hvs, hrest⟩

theorem reads_else (h : s.Tame levels)
    (hl : lexLines line levels ("else:".toList :: rest) = .ok ts) (hs : s.Reads ts s') :
    ∃ (s₁ : State) (vs : List Token), State.InHeader s₁ ∧ lexLines (line + 1) [] rest = .ok vs ∧
      s₁.Reads vs s' := by
  have hcode : codeOf "else:".toList = "else".toList ++ [':'] := by decide
  obtain ⟨s₀, s₁, us, vs, n, hs₀, hus, hn, hline, hvs, hrest⟩ :=
    reads_wordLine hcode (by decide) (by decide) (by decide) h hl hs
  cases hus
  obtain ⟨chain, hmode, rfl⟩ := reads_elseLine hs₀.ready rfl rfl hn hline
  cases hs₀ with
  | outside hd hm =>
    cases hmode
    cases hm with
    | armEnd hc => exact ⟨_, vs, ⟨_, _, _, rfl, hd, hc⟩, hvs, hrest⟩

/-- The printing line below a header. -/
theorem reads_armBody {e : List Char} (h : State.InHeader s)
    (hl : lexLines line [] (("    ".toList ++ printExpr e) :: rest) = .ok ts)
    (hs : s.Reads ts s') :
    ∃ (s₁ : State) (vs : List Token), s₁.Tame [4] ∧ lexLines (line + 1) [4] rest = .ok vs ∧
      s₁.Reads vs s' := by
  obtain ⟨y, hcode, hy⟩ := codeOf_front (w := "    neuro".toList) (by decide) (by decide) e
  have hcode : codeOf ("    ".toList ++ printExpr e) =
      List.replicate 4 ' ' ++ ("neuro".toList ++ y) := hcode
  obtain ⟨us, levels', vs, hline, hvs, rfl⟩ := lexLines_code (by rw [hcode]; simp) hl
  obtain ⟨s₁, hus, hrest⟩ := hs.of_append
  rw [hcode] at hline
  obtain ⟨marks, ws, n, hmarks, hws, hn, rfl⟩ :=
    lexLine_word (by decide) (by decide) (noWordAhead hy) hline
  cases hmarks
  obtain ⟨done, chain, condition, rfl, hd, hc⟩ := h
  obtain ⟨s₂, hindent, hword⟩ := hus.of_cons
  cases hindent
  have hready : State.Ready ⟨[⟨done, chain, condition⟩], [], .blockStart⟩ := trivial
  obtain ⟨l, x, rfl⟩ := reads_printLine hready rfl (not_isLayout_of_lexFrom hws) hn hword
  refine ⟨_, vs, .inArm hd hc ?_, hvs, hrest⟩
  simp [State.settle, Stmt.IsPrint]

/-- The whole template leaves the reader outside every block, with nothing wild filed. -/
theorem Template.reads {ls : List (List Char)} (ht : Template ls) (h : s.Tame levels)
    (hl : lexLines line levels ls = .ok ts) (hs : s.Reads ts s') : s'.Tame [] := by
  induction ht generalizing line levels s ts with
  | nil =>
    cases h with
    | outside hd hm =>
      cases hl
      cases hs
      exact .outside hd hm
    | inArm hb hc hd =>
      cases hl
      have hmarks : blockMarks (line - 1) [4] 0 = .ok ([⟨.dedent, "", line - 1, 1⟩], []) := rfl
      exact (State.Tame.dedent (.inArm hb hc hd) hmarks hs).2
  | plain hline _ ih =>
    obtain ⟨levels₁, s₁, vs, hs₁, hvs, hrest⟩ := reads_plain hline h hl hs
    exact ih hs₁ hvs hrest
  | arm hfront _ _ _ ih =>
    obtain ⟨s₁, vs, hs₁, hvs, hrest⟩ := reads_header hfront h hl hs
    obtain ⟨s₂, ws, hs₂, hws, hrest⟩ := reads_armBody hs₁ hvs hrest
    exact ih hs₂ hws hrest
  | lastArm _ _ ih =>
    obtain ⟨s₁, vs, hs₁, hvs, hrest⟩ := reads_else h hl hs
    obtain ⟨s₂, ws, hs₂, hws, hrest⟩ := reads_armBody hs₁ hvs hrest
    exact ih hs₂ hws hrest

/-- A program that is read from template lines holds nothing wild. -/
theorem Template.tame {ls : List (List Char)} (ht : Template ls) (hne : ls ≠ []) {q : Program}
    (hq : parse (joinLines ls) = .ok q) : ∀ stmt ∈ q, stmt.Tame := by
  obtain ⟨tokens, s, htokens, hread, hfinish⟩ := reads_of_parse hq
  rw [tokenize, lines_joinLines ht.oneLine hne] at htokens
  have hs : s.Tame [] := ht.reads (.outside (by simp) .start) htokens hread
  exact hs.finish hfinish

end Instruction
end Scribe
