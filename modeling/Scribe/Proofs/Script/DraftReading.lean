import Scribe.Proofs.Script.Exactness
import Scribe.Proofs.Script.Layout

/-!
# Reading a draft gives its tree

A draft that is written down is read as its tree: each of its lines is cut into the tokens of a
statement or of the header of an arm, and the blocks are put together from their lines. Every
statement of the tree has the line on which it was written.
-/
namespace Scribe.Script
open Text

theorem piece_colon (line : Nat) :
    Piece line [':'] fun ts => ∃ t, ts = [t] ∧ t.Is .colon where
  oneLine := by decide
  ended := ⟨':', rfl, by decide⟩
  code rest := stripCommentFrom_append (by decide) rest
  cut recent column rest hrecent _ := by
    refine ⟨[⟨.colon, String.ofList [':'], line, column⟩], .colon :: recent, column + 1,
      ⟨_, rfl, rfl⟩, callsModel_cons (by decide) recent, ?_⟩
    have hx : lexemeAt ':' rest = .ok ⟨.colon, [':'], 1⟩ := rfl
    simp [lexFrom, hx, hrecent]

theorem Piece.codeOf {line : Nat} {u w : List Char} {P : List Token → Prop} (h : Piece line w P)
    (hu : ∀ c ∈ u, c ≠ '"' ∧ c ≠ '#' ∧ c ≠ '/') : codeOf (u ++ w) = u ++ w := by
  have hstrip := h.code []
  obtain ⟨d, hd, hblank⟩ := h.ended_append u
  rw [List.append_nil, stripCommentFrom, List.append_nil] at hstrip
  rw [Script.codeOf, stripComment, stripCommentFrom_append hu, hstrip]
  exact dropEndWhile_eq_self (by simp [hd, hblank])

/-- An expression to the end of a line. -/
theorem Piece.lexFrom {line : Nat} {w : List Char} {P : List Token → Prop} (h : Piece line w P)
    {recent : List Kind} (hrecent : callsModel recent = false) (column : Nat) :
    ∃ ts, P ts ∧ lexFrom line recent column 0 w = .ok ts := by
  obtain ⟨ts, recent', column', hts, -, hlex⟩ := h.cut recent column [] hrecent nofun
  rw [List.append_nil] at hlex
  refine ⟨ts, hts, ?_⟩
  rw [hlex]
  simp [Script.lexFrom, Except.map]

theorem codeLine_of_piece {c : Char} {r : List Char} {P : Nat → List Token → Prop}
    (hspace : c ≠ ' ') (htab : c ≠ '\t') (h : ∀ line, Piece line (c :: r) (P line)) :
    CodeLine (c :: r) P := by
  have hcode : codeOf (c :: r) = c :: r := (h 0).codeOf (u := []) nofun
  refine ⟨(h 0).oneLine, ⟨c, r, hcode, hspace, htab⟩, fun line column => ?_⟩
  rw [hcode]
  exact (h line).lexFrom rfl column

namespace Draft

/-- A print of whatever text is read as an expression. -/
theorem codeLine_printed {w : List Char} {e : Expr}
    (hw : ∀ line, Piece line w (Derives (.expr .orTest e))) :
    CodeLine ("neuro ".toList ++ w) fun line => Derives (.simple (.print line e)) := by
  have hlead := lead_word (c := 'n') (r := "euro".toList) (by decide) (by decide) (by decide)
  refine codeLine_of_piece (by decide) (by decide) fun line => (hlead.piece (hw line)).imp ?_
  rintro ts ⟨t, us, rfl, hk, rfl, -, hus⟩
  exact .print (Token.is_of_kind hk) hus

theorem codeLine_print (e : Term) : CodeLine ("neuro ".toList ++ e.text) fun line =>
    Derives (.simple (.print line e.tree)) :=
  codeLine_printed fun _ => e.piece.imp fun _ => orTest_of_atom

theorem lead_set : Lead "set ".toList (.keyword .set) "set".toList :=
  lead_word (c := 's') (r := "et".toList) (by decide) (by decide) (by decide)

theorem lead_name (x : Name) : Lead (x.text ++ [' ']) .identifier x.text := by
  have hlead := lead_word x.word x.start (by rw [x.free]; decide)
  rwa [x.free] at hlead

theorem lead_sign : Lead "= ".toList .assign "=".toList :=
  lead_lexeme (c := '=') (r := []) (.inr rfl) (by decide) (fun rest => rfl) (by decide) (by decide)
    (fun rest => rfl) (by decide) (by decide)

/-- An assignment of whatever text is read as an expression. -/
theorem codeLine_assigned (x : Name) {w : List Char} {e : Expr}
    (hw : ∀ line, Piece line w (Derives (.expr .orTest e))) :
    CodeLine ("set ".toList ++ (x.text ++ (" = ".toList ++ w))) fun line =>
      Derives (.simple (.assign line (String.ofList x.text) e)) := by
  refine codeLine_of_piece (by decide) (by decide) fun line => ?_
  have h := lead_set.piece ((lead_name x).piece (lead_sign.piece (hw line)))
  rw [List.append_assoc x.text] at h
  refine h.imp ?_
  rintro ts ⟨t, _, rfl, ht, rfl, -, n, _, rfl, hn, -, hname, a, us, rfl, ha, -, -, hus⟩
  rw [← hname]
  exact .assign (Token.is_of_kind ht) (Token.is_of_kind hn) (Token.is_of_kind ha) hus

theorem codeLine_assign (x : Name) (e : Term) :
    CodeLine ("set ".toList ++ (x.text ++ (" = ".toList ++ e.text))) fun line =>
      Derives (.simple (.assign line (String.ofList x.text) e.tree)) :=
  codeLine_assigned x fun _ => e.piece.imp fun _ => orTest_of_atom

/-- The colon behind the first word hands no text over. -/
theorem codeLine_select (e : Term) : CodeLine ("AI: ".toList ++ e.text) fun line =>
    Derives (.simple (.select line e.tree)) := by
  have hterm (line : Nat) : Piece line e.text (Derives (.expr .atom e.tree)) := e.piece
  have hcode := (hterm 0).codeOf (u := "AI: ".toList) (by decide)
  refine ⟨oneLine_append.mpr ⟨by decide, (hterm 0).oneLine⟩,
    ⟨'A', "I: ".toList ++ e.text, hcode, by decide, by decide⟩, fun line column => ?_⟩
  have hcalls : callsModel [.colon, .keyword .ai] = false := rfl
  obtain ⟨ts, hts, hlex⟩ := (hterm line).lexFrom hcalls (column + 4)
  refine ⟨_, .selectModel (t := ⟨.keyword .ai, "AI", line, column⟩)
    (c := ⟨.colon, ":", line, column + 2⟩) rfl rfl (orTest_of_atom hts), ?_⟩
  have hfront : lexFrom line [] column 0 ("AI: ".toList ++ e.text) =
      ((lexFrom line [.colon, .keyword .ai] (column + 4) 0 e.text).map
        (⟨.colon, ":", line, column + 2⟩ :: ·)).map (⟨.keyword .ai, "AI", line, column⟩ :: ·) := rfl
  rw [hcode, hfront, hlex]
  rfl

/-- The header of an arm with a condition, behind the word that starts it. -/
theorem codeLine_header {c : Char} {r w : List Char} {e : Expr} (hw : IsWord (c :: r))
    (hd : isDigit c = false) (hai : wordKind (c :: r) ≠ .keyword .ai)
    (hcondition : ∀ line, Piece line w (Derives (.expr .orTest e))) :
    CodeLine (c :: r ++ [' '] ++ (w ++ [':'])) fun line ts => ∃ t us m,
      ts = t :: us ++ [m] ∧ t.kind = wordKind (c :: r) ∧ t.line = line ∧
      Derives (.expr .orTest e) us ∧ m.Is .colon := by
  obtain ⟨hspace, htab⟩ := head_of_isWord hw
  have hfollows : Follows [':'] := by
    rintro c ⟨⟩
    decide
  refine codeLine_of_piece hspace htab fun line => ?_
  have hcolon := (hcondition line).append (piece_colon line) hfollows
  refine ((lead_word hw hd hai).piece hcolon).imp ?_
  rintro ts ⟨t, _, rfl, hk, hline, -, us, _, rfl, hus, m, rfl, hm⟩
  exact ⟨t, us, m, rfl, hk, hline, hus, hm⟩

theorem codeLine_else : CodeLine "else:".toList fun _ ts => ∃ t m, ts = [t, m] ∧
    t.Is .elseWord ∧ m.Is .colon where
  oneLine := by decide
  starts := ⟨'e', "lse:".toList, rfl, by decide, by decide⟩
  cut line column := ⟨[⟨.keyword .elseWord, "else", line, column⟩, ⟨.colon, ":", line, column + 4⟩],
    ⟨_, _, rfl, rfl, rfl⟩, rfl⟩

def tailOf (t : List Char) : List Char := trim (stripComment t)

theorem Instruction.tailOf_text (i : Instruction) : tailOf i.text = i.text := by
  rw [tailOf, i.uncommented, i.trimmed]

/-- A text behind a front that is kept. -/
theorem codeOf_tail {u : List Char} (hu : ∀ c ∈ u, c ≠ '"' ∧ c ≠ '#' ∧ c ≠ '/')
    (hlast : u.getLast?.any isBlank = false) (t : List Char) :
    ∃ y, codeOf (u ++ ' ' :: t) = u ++ y ∧ trim y = tailOf t := by
  have hspace : stripComment (' ' :: t) = ' ' :: stripComment t :=
    stripCommentFrom_append (by decide : ∀ c ∈ [' '], _) t
  refine ⟨codeOf (' ' :: t), codeOf_append hu hlast _, ?_⟩
  rw [codeOf, trim_trimEnd, hspace, trim_cons (by decide), tailOf]

theorem codeLine_macro {t : List Char} (ht : OneLine t) :
    CodeLine ("macro from AI: ".toList ++ t) fun line =>
      Derives (.simple (.expand line (String.ofList (tailOf t)))) := by
  have htext : "macro from AI: ".toList ++ t = "macro from AI:".toList ++ ' ' :: t := by simp
  obtain ⟨y, hcode, hy⟩ := codeOf_tail (u := "macro from AI:".toList) (by decide) rfl t
  rw [htext]
  refine ⟨by simpa [← htext] using ht,
    ⟨'m', "acro from AI:".toList ++ y, by rw [hcode]; simp, by decide, by decide⟩,
    fun line column => ?_⟩
  refine ⟨_, .expand (t := ⟨.keyword .macroWord, "macro", line, column⟩)
    (f := ⟨.keyword .fromWord, "from", line, column + 6⟩)
    (m := ⟨.keyword .ai, "AI", line, column + 11⟩) (c := ⟨.colon, ":", line, column + 13⟩)
    (r := ⟨.raw, String.ofList (tailOf t), line, column + 14⟩) rfl rfl rfl rfl rfl, ?_⟩
  rw [hcode, ← hy]
  rfl

theorem codeLine_expand (i : Instruction) :
    CodeLine ("macro from AI: ".toList ++ i.text) fun line =>
      Derives (.simple (.expand line (String.ofList i.text))) := by
  have h := codeLine_macro i.oneLine
  rwa [i.tailOf_text] at h

theorem unwrapPrompt_bare (p : Prompt) : unwrapPrompt p.text = p.text := by
  unfold unwrapPrompt
  split
  · rename_i r htext
    split
    · rename_i hlast
      obtain ⟨body, rfl⟩ := List.getLast?_eq_some_iff.mp (beq_iff_eq.mp hlast)
      exact absurd ⟨body, htext⟩ p.bare
    · rfl
  · rfl

/-- Any text may be asked; its quotes and escapes are undone. -/
theorem codeLine_prompt (x : Name) {p : List Char} (hp : OneLine p) :
    CodeLine ("set ".toList ++ (x.text ++ (" from AI: ".toList ++ p))) fun line =>
      Derives (.simple
        (.ask line (String.ofList x.text) (String.ofList (unwrapPrompt (tailOf p))))) := by
  have hset : ∀ c ∈ "set ".toList, c ≠ '"' ∧ c ≠ '#' ∧ c ≠ '/' := by decide
  have hfrom : ∀ c ∈ " from AI:".toList, c ≠ '"' ∧ c ≠ '#' ∧ c ≠ '/' := by decide
  have hfront : ∀ c ∈ "set ".toList ++ (x.text ++ " from AI:".toList),
      c ≠ '"' ∧ c ≠ '#' ∧ c ≠ '/' := by
    intro c hc
    rcases List.mem_append.mp hc with hc | hc
    · exact hset c hc
    · exact (List.mem_append.mp hc).elim (x.word.plain c) (hfrom c)
  have hlast : ("set ".toList ++ (x.text ++ " from AI:".toList)).getLast?.any isBlank = false := by
    rw [← List.append_assoc, List.getLast?_append]
    rfl
  have htext : " from AI: ".toList ++ p = " from AI:".toList ++ ' ' :: p := by simp
  obtain ⟨y, hcode, hy⟩ := codeOf_tail hfront hlast p
  rw [List.append_assoc, List.append_assoc, List.append_assoc, List.append_assoc] at hcode
  rw [htext]
  refine ⟨?_, ⟨'s', "et ".toList ++ (x.text ++ (" from AI:".toList ++ y)), by rw [hcode]; simp,
    by decide, by decide⟩, fun line column => ?_⟩
  · rw [← htext]
    exact oneLine_append.mpr ⟨by decide, oneLine_append.mpr ⟨x.word.oneLine,
      oneLine_append.mpr ⟨by decide, hp⟩⟩⟩
  · have hd := Derives.assignAi (t := ⟨.keyword .set, "set", line, column⟩)
      (n := ⟨.identifier, String.ofList x.text, line, column + 4⟩)
      (f := ⟨.keyword .fromWord, "from", line, column + 4 + (x.text ++ [' ']).length⟩)
      (m := ⟨.keyword .ai, "AI", line, column + 4 + (x.text ++ [' ']).length + 5⟩)
      (c := ⟨.colon, ":", line, column + 4 + (x.text ++ [' ']).length + 7⟩)
      (r := ⟨.raw, String.ofList (tailOf p), line, column + 4 + (x.text ++ [' ']).length + 8⟩)
      rfl rfl rfl rfl rfl rfl
    simp only [String.toList_ofList] at hd
    refine ⟨_, hd, ?_⟩
    have hname := (lead_name x).cut line [.keyword .set] (column + 4) ("from AI:".toList ++ y)
    rw [List.append_assoc] at hname
    rw [hcode, lead_set.cut, show lexFrom line [.keyword .set] (column + "set ".toList.length) 0
      (x.text ++ (" from AI:".toList ++ y)) = _ from hname, ← hy]
    rfl

/-- A question may hold any instruction. -/
theorem codeLine_question (x : Name) (i : Instruction) :
    CodeLine ("set ".toList ++ (x.text ++ (" from AI: ".toList ++ i.text))) fun line =>
      Derives (.simple
        (.ask line (String.ofList x.text) (String.ofList (unwrapPrompt i.text)))) := by
  have h := codeLine_prompt x i.oneLine
  rwa [i.tailOf_text] at h

theorem codeLine_ask (x : Name) (p : Prompt) :
    CodeLine ("set ".toList ++ (x.text ++ (" from AI: ".toList ++ p.text))) fun line =>
      Derives (.simple (.ask line (String.ofList x.text) (String.ofList p.text))) := by
  have h := codeLine_question x p.toInstruction
  rwa [unwrapPrompt_bare] at h

section Headers
variable {w : List Char} {e : Expr}

theorem codeLine_if (hcondition : ∀ line, Piece line w (Derives (.expr .orTest e))) :
    CodeLine ("if ".toList ++ (w ++ [':'])) fun line ts => ∃ t us m,
      ts = t :: us ++ [m] ∧ t.kind = .keyword .ifWord ∧ t.line = line ∧
      Derives (.expr .orTest e) us ∧ m.Is .colon :=
  codeLine_header (c := 'i') (r := "f".toList) (by decide) (by decide) (by decide) hcondition

theorem codeLine_elif (hcondition : ∀ line, Piece line w (Derives (.expr .orTest e))) :
    CodeLine ("elif ".toList ++ (w ++ [':'])) fun line ts => ∃ t us m,
      ts = t :: us ++ [m] ∧ t.kind = .keyword .elifWord ∧ t.line = line ∧
      Derives (.expr .orTest e) us ∧ m.Is .colon :=
  codeLine_header (c := 'e') (r := "lif".toList) (by decide) (by decide) (by decide) hcondition

end Headers

theorem Term.condition (e : Term) (line : Nat) :
    Piece line e.text (Derives (.expr .orTest e.tree)) :=
  e.piece.imp fun _ => orTest_of_atom

/-- The first line of a statement is code. -/
theorem Clause.begins (c : Clause) : ∃ w rest P, c.lines = w :: rest ∧ CodeLine w P := by
  cases c with
  | print e => exact ⟨_, _, _, rfl, codeLine_print e⟩
  | assign x e => exact ⟨_, _, _, rfl, codeLine_assign x e⟩
  | ask x prompt => exact ⟨_, _, _, rfl, codeLine_ask x prompt⟩
  | select path => exact ⟨_, _, _, rfl, codeLine_select path⟩
  | expand i => exact ⟨_, _, _, rfl, codeLine_expand i⟩
  | choose condition body rest => exact ⟨_, _, _, rfl, codeLine_if condition.condition⟩

theorem Block.begins (b : Block) : ∃ w rest P, b.lines = w :: rest ∧ CodeLine w P := by
  cases b with
  | one c => exact c.begins
  | cons c rest =>
    obtain ⟨w, ls, P, hlines, hw⟩ := c.begins
    exact ⟨w, ls ++ rest.lines, P, by rw [Block.lines, hlines]; rfl, hw⟩

theorem Arms.starts (a : Arms) : Starts a.lines := by
  cases a with
  | none => exact .inl rfl
  | otherwise body => exact .inr ⟨_, _, _, rfl, codeLine_else⟩
  | elif condition body rest => exact .inr ⟨_, _, _, rfl, codeLine_elif condition.condition⟩

theorem blockTrees_ne_nil (b : Block) (line : Nat) : b.trees line ≠ [] := by
  cases b <;> simp [Block.trees]

/-- A statement of one line. -/
theorem laid_simple {w : List Char} {stmt : Nat → Stmt}
    (h : CodeLine w fun line => Derives (.simple (stmt line))) (d line : Nat) :
    Laid d line [w] (Derives (.stmt (stmt line))) := by
  refine (h.laid d line).imp ?_
  rintro ts ⟨us, n, rfl, hus, hn⟩
  exact .simpleLine hus hn

/-- A block of one statement. -/
theorem laid_one {ls : List (List Char)} {s : Stmt} {d line : Nat}
    (h : Laid d line ls (Derives (.stmt s))) : Laid d line ls (Derives (.stmts [s])) := by
  refine h.imp fun ts hts => ?_
  have hcons := Derives.stmtsCons hts .stmtsNil
  rwa [List.append_nil] at hcons

/-- The block of an arm. -/
theorem laid_block {b : Block} {d line : Nat}
    (h : Laid (d + 1) line b.lines (Derives (.stmts (b.trees line)))) :
    Laid d line (indented b.lines) (Derives (.block (b.trees line))) := by
  obtain ⟨w, rest, P, hlines, hw⟩ := b.begins
  refine (h.block hlines hw).imp ?_
  rintro ts ⟨i, us, t, rfl, hi, hus, ht⟩
  exact .block hi hus (blockTrees_ne_nil b line) ht

/-- The header of an arm, its block, and what follows. -/
theorem laid_arm {w : List Char} {b : Block} {ls : List (List Char)} {d line : Nat}
    {R : Nat → List Token → Prop} {Q : List Token → Prop} (hw : CodeLine w R)
    (hbody : Laid (d + 1) (line + 1) b.lines (Derives (.stmts (b.trees (line + 1)))))
    (hrest : Laid d (line + 1 + b.lines.length) ls Q) (hls : Starts ls) :
    Laid d line (w :: indented b.lines ++ ls) fun ts => ∃ us n vs ws,
      ts = us ++ n :: (vs ++ ws) ∧ R line us ∧ n.Is .newline ∧
        Derives (.block (b.trees (line + 1))) vs ∧ Q ws := by
  have hlength : (indented b.lines).length = b.lines.length := List.length_map _
  rw [← hlength] at hrest
  refine (Laid.under hw ((laid_block hbody).append hrest hls)).imp ?_
  rintro ts ⟨us, n, _, rfl, hus, hn, vs, ws, rfl, hvs, hws⟩
  exact ⟨us, n, vs, ws, rfl, hus, hn, hvs, hws⟩

theorem laid_nil {d line : Nat} : Laid d line [] fun ts => ts = [] where
  oneLine := nofun
  cut more _ := by
    refine ⟨[], rfl, ?_⟩
    change lexLines line (levelsAt d) more = (lexLines line (levelsAt d) more).map id
    cases lexLines line (levelsAt d) more <;> rfl

mutual

/-- A statement that is written down is read as its tree. -/
theorem Clause.laid : (c : Clause) → (d line : Nat) →
    Laid d line c.lines (Derives (.stmt (c.tree line)))
  | .print e, d, line => laid_simple (codeLine_print e) d line
  | .assign x e, d, line => laid_simple (codeLine_assign x e) d line
  | .ask x prompt, d, line => laid_simple (codeLine_ask x prompt) d line
  | .select path, d, line => laid_simple (codeLine_select path) d line
  | .expand i, d, line => laid_simple (codeLine_expand i) d line
  | .choose condition body rest, d, line => by
    refine (laid_arm (codeLine_if condition.condition) (body.laid (d + 1) (line + 1))
      (rest.laid d _) rest.starts).imp ?_
    rintro ts ⟨_, n, us, _, rfl, ⟨t, cs, m, rfl, ht, rfl, hcs, hm⟩, hn, hus, vs, ws, rfl, hvs, hws⟩
    have h := Derives.choose (Token.is_of_kind ht) hcs hm hn hus hvs hws
    simpa [Clause.tree] using h

theorem Block.laid : (b : Block) → (d line : Nat) →
    Laid d line b.lines (Derives (.stmts (b.trees line)))
  | .one c, d, line => laid_one (c.laid d line)
  | .cons c rest, d, line => by
    have hstarts : Starts rest.lines := .inr rest.begins
    refine ((c.laid d line).append (rest.laid d _) hstarts).imp ?_
    rintro ts ⟨us, vs, rfl, hus, hvs⟩
    exact .stmtsCons hus hvs

theorem Arms.laid : (a : Arms) → (d line : Nat) → Laid d line a.lines fun ts => ∃ vs ws,
    ts = vs ++ ws ∧ Derives (.elifs (a.arms line)) vs ∧ Derives (.otherwise (a.last line)) ws
  | .none, d, line => laid_nil.imp fun ts hts => ⟨[], [], hts, .elifNil, .elseNone⟩
  | .otherwise body, d, line => by
    refine (Laid.under codeLine_else (laid_block (body.laid (d + 1) (line + 1)))).imp ?_
    rintro ts ⟨_, n, us, rfl, ⟨t, m, rfl, ht, hm⟩, hn, hus⟩
    exact ⟨[], _, rfl, .elifNil, .elseSome ht hm hn hus⟩
  | .elif condition body rest, d, line => by
    refine (laid_arm (codeLine_elif condition.condition) (body.laid (d + 1) (line + 1))
      (rest.laid d _) rest.starts).imp ?_
    rintro ts ⟨_, n, us, _, rfl, ⟨t, cs, m, rfl, ht, -, hcs, hm⟩, hn, hus, vs, ws, rfl, hvs, hws⟩
    refine ⟨t :: cs ++ m :: n :: us ++ vs, ws, by simp,
      .elifCons (Token.is_of_kind ht) hcs hm hn hus hvs, hws⟩

end

end Draft

theorem Draft.Block.lines_text (body : Draft.Block) :
    Text.lines (joinLines body.lines) = body.lines := by
  obtain ⟨w, rest, P, hlines, -⟩ := body.begins
  exact lines_joinLines (body.laid 0 1).oneLine (by simp [hlines])

theorem tokenize_of_laid {ls : List (List Char)} {P : List Token → Prop} (h : Laid 0 1 ls P)
    (hne : ls ≠ []) : ∃ ts, P ts ∧ tokenize (joinLines ls) = .ok ts := by
  obtain ⟨ts, hts, hcut⟩ := h.cut [] (.inl rfl)
  refine ⟨ts, hts, ?_⟩
  have hpadded : padded 0 ls ++ [] = ls := by simp [padded]
  rw [hpadded] at hcut
  rw [tokenize, lines_joinLines h.oneLine hne]
  change lexLines 1 (levelsAt 0) ls = _
  rw [hcut]
  simp [lexLines, levelsAt, Except.map]

/-- Lines at the left edge that are cut into the tokens of statements are read as them. -/
theorem parse_of_laid {ls : List (List Char)} {p : Program}
    (h : Laid 0 1 ls (Derives (.stmts p))) (hne : ls ≠ []) : parse (joinLines ls) = .ok p := by
  obtain ⟨ts, hts, htokens⟩ := tokenize_of_laid h hne
  rw [parse_eq_ok_iff htokens]
  exact (Derives.start hts).parseTokens

/-- A script of one line. -/
theorem parse_of_codeLine {w : List Char} {stmt : Nat → Stmt}
    (h : CodeLine w fun line => Derives (.simple (stmt line))) : parse w = .ok [stmt 1] := by
  have hparse := parse_of_laid (Draft.laid_one (Draft.laid_simple h 0 1)) (List.cons_ne_nil w [])
  rwa [joinLines, join, List.intercalate_singleton] at hparse

theorem Draft.Block.parse_text (body : Draft.Block) :
    parse (joinLines body.lines) = .ok (body.trees 1) := by
  obtain ⟨w, rest, P, hlines, -⟩ := body.begins
  exact parse_of_laid (body.laid 0 1) (by simp [hlines])

/-- Reading what a draft is written as gives back its tree. -/
theorem parse_source (draft : Draft) :
    parse draft.source = .ok draft.program ∧
      ∀ x, Occurs x draft.program → Draft.Shown 1 (lines draft.source) x := by
  cases draft with
  | none => exact ⟨rfl, fun x hx => by cases hx⟩
  | some body =>
    refine ⟨body.parse_text, fun x hx => ?_⟩
    rw [show lines (Draft.source (some body)) = body.lines from body.lines_text]
    exact body.shown 1 hx

example : Draft.source (some (.one (.choose
      (.compare (.var ⟨'x', [], by decide, by decide, by decide⟩)
        (.one .lt (.neg (.number ⟨'1', [], ['5'], by decide, by decide⟩))))
      (.one (.print (.string "y"))) .none))) =
    "if (x < (-1.5)):\n    neuro \"y\"".toList := by
  decide

end Scribe.Script
