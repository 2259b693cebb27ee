import Scribe.Proofs.Script.LineShapes
import Scribe.Proofs.Script.Positions

/-!
# Scripts one after the other

Two scripts that can be read make up a script that can be read: its program is that of the first
one, and behind it that of the second one with its lines moved. The blocks that the end of the
first script closes are closed by the first line of the second one, which starts at the left.
-/
namespace Scribe.Script
open Text

mutual

def Stmt.shift (n : Nat) : Stmt → Stmt
  | .print line e => .print (line + n) e
  | .assign line name e => .assign (line + n) name e
  | .ask line name prompt => .ask (line + n) name prompt
  | .select line path => .select (line + n) path
  | .expand line instruction => .expand (line + n) instruction
  | .choose line arms last => .choose (line + n) (shiftArms n arms) (shiftElse n last)

def shiftArms (n : Nat) : List (Expr × List Stmt) → List (Expr × List Stmt)
  | [] => []
  | (condition, body) :: rest => (condition, shiftBlock n body) :: shiftArms n rest

def shiftElse (n : Nat) : Option (List Stmt) → Option (List Stmt)
  | none => none
  | some body => some (shiftBlock n body)

def shiftBlock (n : Nat) : List Stmt → List Stmt
  | [] => []
  | stmt :: rest => stmt.shift n :: shiftBlock n rest

end

theorem shiftBlock_zero (body : List Stmt) : shiftBlock 0 body = body := by
  induction body using Program.induction with
  | nil => rw [shiftBlock]
  | cons stmt rest inner ih =>
    have harms (arms : List (Expr × List Stmt)) (ha : ∀ arm ∈ arms, shiftBlock 0 arm.2 = arm.2) :
        shiftArms 0 arms = arms := by
      induction arms with
      | nil => rw [shiftArms]
      | cons arm rest ih =>
        rw [shiftArms, ha arm (by simp), ih fun arm harm => ha arm (by simp [harm])]
    have hstmt : stmt.shift 0 = stmt := by
      cases stmt with
      | choose line arms last =>
        have hlast : shiftElse 0 last = last := by
          cases last with
          | none => rw [shiftElse]
          | some body => rw [shiftElse, inner.2 body rfl]
        rw [Stmt.shift, harms arms inner.1, hlast, Nat.add_zero]
      | _ => rw [Stmt.shift, Nat.add_zero]
    rw [shiftBlock, hstmt, ih]

def Token.shift (n : Nat) (t : Token) : Token := { t with line := t.line + n }

def Phrase.shift (n : Nat) : Phrase → Phrase
  | .simple s => .simple (s.shift n)
  | .stmt s => .stmt (s.shift n)
  | .stmts body => .stmts (shiftBlock n body)
  | .block body => .block (shiftBlock n body)
  | .elifs arms => .elifs (shiftArms n arms)
  | .otherwise last => .otherwise (shiftElse n last)
  | .program p => .program (shiftBlock n p)
  | φ => φ

/-- The grammar takes no notice of where tokens stand, but for the lines of the tree. -/
theorem Derives.shift {φ : Phrase} {ts : List Token} (h : Derives φ ts) (n : Nat) :
    Derives (φ.shift n) (ts.map (Token.shift n)) := by
  induction h with
  | orOne _ ih => exact .orOne ih
  | orMore _ _ more ih tail =>
    rw [List.map_append]
    exact .orMore ih tail more
  | orNil => exact .orNil
  | orCons ht _ _ ih tail =>
    rw [List.map_append]
    exact .orCons ht ih tail
  | andOne _ ih => exact .andOne ih
  | andMore _ _ more ih tail =>
    rw [List.map_append]
    exact .andMore ih tail more
  | andNil => exact .andNil
  | andCons ht _ _ ih tail =>
    rw [List.map_append]
    exact .andCons ht ih tail
  | compareOne _ ih => exact .compareOne ih
  | compareMore _ _ more ih tail =>
    rw [List.map_append]
    exact .compareMore ih tail more
  | compareNil => exact .compareNil
  | compareCons ht hop _ _ ih tail =>
    rw [List.map_append]
    exact .compareCons ht hop ih tail
  | sumOne _ ih => exact .sumOne ih
  | sumMore _ ht hop _ left right =>
    rw [List.map_append]
    exact .sumMore left ht hop right
  | productOne _ ih => exact .productOne ih
  | productMore _ ht hop _ left right =>
    rw [List.map_append]
    exact .productMore left ht hop right
  | neg ht _ ih => exact .neg ht ih
  | unaryAtom _ ih => exact .unaryAtom ih
  | number ht hx => exact .number ht hx
  | @string t ht => exact .string (t := t.shift n) ht
  | @var t ht => exact .var (t := t.shift n) ht
  | trueLit ht => exact .trueLit ht
  | falseLit ht => exact .falseLit ht
  | nullLit ht => exact .nullLit ht
  | paren hl _ hr ih =>
    rw [List.map_append]
    exact .paren hl ih hr
  | @selectModel t c e ts ht hc _ ih =>
    exact .selectModel (t := t.shift n) (c := c.shift n) ht hc ih
  | @assign t m a e ts ht hn ha _ ih =>
    exact .assign (t := t.shift n) (n := m.shift n) (a := a.shift n) ht hn ha ih
  | @assignAi t m f x c r ht hn hf hm hc hr =>
    exact .assignAi (t := t.shift n) (n := m.shift n) (f := f.shift n) (m := x.shift n)
      (c := c.shift n) (r := r.shift n) ht hn hf hm hc hr
  | @print t e ts ht _ ih => exact .print (t := t.shift n) ht ih
  | @expand t f m c r ht hf hm hc hr =>
    exact .expand (t := t.shift n) (f := f.shift n) (m := m.shift n) (c := c.shift n)
      (r := r.shift n) ht hf hm hc hr
  | simpleLine _ hn ih =>
    rw [List.map_append]
    exact .simpleLine ih hn
  | @choose t c m condition body arms last ts us vs ws ht _ hc hn _ _ _ hcond hbody harms hlast =>
    simp only [List.map_append, List.map_cons, Phrase.shift, Stmt.shift, shiftArms]
    exact .choose (t := t.shift n) ht hcond hc hn hbody harms hlast
  | elifNil => exact .elifNil
  | elifCons ht _ hc hn _ _ hcond hbody harms =>
    simp only [List.map_append, List.map_cons, Phrase.shift, shiftArms]
    exact .elifCons ht hcond hc hn hbody harms
  | elseNone => exact .elseNone
  | elseSome ht hc hn _ hbody => exact .elseSome ht hc hn hbody
  | @block i d body ts hi _ more hd ih =>
    rw [List.map_append]
    refine .block hi ih (fun hnil => more ?_) hd
    cases body with
    | nil => rfl
    | cons => cases hnil
  | stmtsNil => exact .stmtsNil
  | stmtsCons _ _ ih tail =>
    rw [List.map_append]
    exact .stmtsCons ih tail
  | start _ ih => exact .start ih

theorem lexLine_shift {line : Nat} {levels levels' : List Nat} {code : List Char}
    {ts : List Token} (h : lexLine line levels code = .ok (ts, levels')) (n : Nat) :
    lexLine (line + n) levels code = .ok (ts.map (Token.shift n), levels') := by
  have hmoved : ts.map (Token.onLine (line + n)) = ts.map (Token.shift n) :=
    List.map_congr_left fun t ht => by rw [Token.onLine, Token.shift, line_of_lexLine h t ht]
  rw [lexLine_onLine line, h, ← hmoved]
  rfl

theorem lexLines_shift {line : Nat} {levels : List Nat} {texts : List (List Char)}
    {ts : List Token} (hline : 1 ≤ line) (h : lexLines line levels texts = .ok ts) (n : Nat) :
    lexLines (line + n) levels texts = .ok (ts.map (Token.shift n)) := by
  induction texts generalizing line levels ts with
  | nil =>
    have hend : line + n - 1 = line - 1 + n := by omega
    cases h
    rw [lexLines, List.map_replicate, hend]
    rfl
  | cons text rest ih =>
    have hnext : line + n + 1 = line + 1 + n := by omega
    by_cases hcode : codeOf text = []
    · rw [lexLines_blank hcode] at h ⊢
      rw [hnext]
      exact ih (by omega) h
    · obtain ⟨us, levels', vs, hus, hvs, rfl⟩ := lexLines_code hcode h
      rw [lexLines_of_code hcode (lexLine_shift hus n), hnext, ih (by omega) hvs, List.map_append]
      rfl

def Deep (levels : List Nat) : Prop := ∀ x ∈ levels, 0 < x

theorem Deep.blockMarks {line indent : Nat} {levels levels' : List Nat} {marks : List Token}
    (hd : Deep levels) (h : blockMarks line levels indent = .ok (marks, levels')) :
    Deep levels' := by
  simp only [Script.blockMarks] at h
  split at h
  · rename_i hdeeper
    cases h
    exact List.forall_mem_cons.mpr ⟨by omega, hd⟩
  · split at h
    · cases h
      exact fun x hx => hd x ((List.dropWhile_suffix _).subset hx)
    · cases h

theorem Deep.rows {line : Nat} {levels after : List Nat} {texts : List (List Char)}
    {rows : List (List Token)} (hd : Deep levels) (h : Rows line levels texts rows after) :
    Deep after := by
  induction h with
  | nil => exact hd
  | blank _ _ ih => exact ih hd
  | code _ hrow _ ih =>
    obtain ⟨marks, -, hmarks, -, -⟩ := lexLine_eq_ok hrow
    exact ih (hd.blockMarks hmarks)

/-- The end of the first lines closes what they leave open; more lines go on from there. -/
theorem lexLines_append {line : Nat} {levels : List Nat} {texts : List (List Char)}
    {ts : List Token} (hd : Deep levels) (h : lexLines line levels texts = .ok ts) :
    ∃ us levels' l, Deep levels' ∧ ts = us ++ List.replicate levels'.length ⟨.dedent, "", l, 1⟩ ∧
      ∀ more, lexLines line levels (texts ++ more) =
        (lexLines (line + texts.length) levels' more).map (us ++ ·) := by
  obtain ⟨rows, after, hrows, hts⟩ := rows_of_lexLines h
  exact ⟨rows.flatten, after, _, hd.rows hrows, hts, hrows.lexLines⟩

theorem blockMarks_nil {line indent : Nat} {levels' : List Nat} {marks : List Token}
    (h : blockMarks line [] indent = .ok (marks, levels'))
    (hleft : ∀ t us, marks = t :: us → t.kind ≠ .indent) :
    indent = 0 ∧ marks = [] ∧ levels' = [] := by
  by_cases hindent : indent = 0
  · subst hindent
    cases h
    exact ⟨rfl, rfl, rfl⟩
  · have hdeeper : ([] : List Nat).headD 0 < indent := Nat.pos_of_ne_zero hindent
    rw [blockMarks, if_pos hdeeper] at h
    cases h
    exact absurd rfl (hleft _ _ rfl)

theorem blockMarks_left {levels : List Nat} (hd : Deep levels) (line : Nat) :
    blockMarks line levels 0 = .ok (List.replicate levels.length ⟨.dedent, "", line, 1⟩, []) := by
  have hkept : keptLevels levels 0 = [] := by
    have hdrop : (levels ++ []).dropWhile (fun x => decide (0 < x)) = [] :=
      List.dropWhile_append_of_pos fun x hx => decide_eq_true (hd x hx)
    rw [List.append_nil] at hdrop
    exact hdrop
  rw [blockMarks, if_neg (Nat.not_lt_zero _)]
  simp only [hkept]
  rfl

/-- The parts of a line whose indentation is free of tabs make up its tokens. -/
theorem lexLine_of_parts {line line' : Nat} {levels levels' after : List Nat} {code : List Char}
    {r : List Token × List Nat} {marks us : List Token} (h : lexLine line levels code = .ok r)
    (hmarks : blockMarks line' levels' (code.takeWhile fun c => c == ' ' || c == '\t').length =
      .ok (marks, after))
    (hus : lexFrom line' [] ((code.takeWhile fun c => c == ' ' || c == '\t').length + 1) 0
      (code.drop (code.takeWhile fun c => c == ' ' || c == '\t').length) = .ok us) :
    lexLine line' levels' code =
      .ok (marks ++ us ++ [⟨.newline, "", line', code.length + 1⟩], after) := by
  simp only [lexLine] at h ⊢
  split at h
  · cases h
  · rename_i htab
    rw [if_neg htab, hmarks, hus]
    rfl

/-- Lines that start at the left close all levels that are open before them. -/
theorem lexLines_closes {line : Nat} {levels : List Nat} {texts : List (List Char)}
    {ts : List Token} (hd : Deep levels) (h : lexLines line [] texts = .ok ts)
    (hleft : ∀ t us, ts = t :: us → t.kind ≠ .indent) :
    ∃ l, lexLines line levels texts =
      .ok (List.replicate levels.length ⟨.dedent, "", l, 1⟩ ++ ts) := by
  induction texts generalizing line with
  | nil =>
    cases h
    exact ⟨line - 1, by rw [lexLines]; simp⟩
  | cons text rest ih =>
    by_cases hcode : codeOf text = []
    · rw [lexLines_blank hcode] at h ⊢
      exact ih h
    · obtain ⟨us, levels', vs, hus, hvs, rfl⟩ := lexLines_code hcode h
      obtain ⟨marks, ws, hmarks, hws, rfl⟩ := lexLine_eq_ok hus
      obtain ⟨hindent, rfl, rfl⟩ := blockMarks_nil hmarks fun t us ht => hleft t _ (by rw [ht]; rfl)
      have hleft := blockMarks_left hd line
      rw [← hindent] at hleft
      rw [lexLines_of_code hcode (lexLine_of_parts hus hleft hws), hvs]
      exact ⟨line, by simp [Except.map, List.append_assoc]⟩

/-- On which line a block is closed makes no difference. -/
theorem State.step_dedent_line {s s' : State} {t u : Token} (ht : t.kind = .dedent)
    (hu : u.kind = .dedent) (h : s.step t = .ok s') : s.step u = .ok s' := by
  obtain ⟨frames, done, mode⟩ := s
  cases mode with
  | next | armEnd | chainEnd =>
    simp only [State.step, stepStatement, State.begin, ht, hu] at h ⊢
    split at h
    · exact h
    · cases h
  | _ =>
    simp only [State.step, stepOperand, stepOperator, stepStatement, State.begin, operand?, ht,
      State.fail] at h
    cases h

theorem State.Reads.dedents {s s' : State} {k : Nat} {t u : Token} (ht : t.kind = .dedent)
    (hu : u.kind = .dedent) (h : s.Reads (List.replicate k t) s') :
    s.Reads (List.replicate k u) s' := by
  induction k generalizing s with
  | zero => exact h
  | succ k ih =>
    rw [List.replicate_succ] at h ⊢
    obtain ⟨s₁, hstep, hrest⟩ := h.of_cons
    exact .cons (State.step_dedent_line ht hu hstep) (ih hrest)

/-- The state at the end of a script. -/
theorem State.finish_eq_ok {s : State} {p : Program} (h : s.finish = .ok p) :
    s.Ready ∧ s.frames = [] ∧ s.settle.done = p := by
  obtain ⟨frames, done, mode⟩ := s
  simp only [State.finish] at h
  split at h
  · rename_i hmode hframes
    rw [State.settle_frames] at hframes
    cases h
    refine ⟨?_, hframes, rfl⟩
    cases mode <;> first | exact trivial | cases hmode
  · rename_i hmode hframes
    rw [State.settle_frames] at hframes
    cases h
    refine ⟨?_, hframes, rfl⟩
    cases mode <;> first | exact trivial | cases hmode
  · cases h

/-- Reading goes on behind the end of a script. -/
theorem State.Files.finish {s s' : State} {p body : Program} (h : s.finish = .ok p)
    (hf : s.Files body s') : s'.finish = .ok (p ++ body) := by
  obtain ⟨-, hframes, hdone⟩ := State.finish_eq_ok h
  have hsettled : s'.settle.frames = [] :=
    (State.settle_frames s').trans (hf.frames.trans hframes)
  rcases hf.ended with hend | ⟨rfl, rfl⟩
  · simp only [State.finish, hend, hsettled, hf.done, hdone]
  · rw [h, List.append_nil]

/-- The tokens of two scripts are those of the first one, and behind them those of the second one
with their lines moved; only where the blocks of the first one are closed may differ. -/
theorem tokenize_append {a b : List Char} {ts vs : List Token} (ha : tokenize a = .ok ts)
    (hb : tokenize b = .ok vs) (hleft : ∀ t us, vs = t :: us → t.kind ≠ .indent) :
    ∃ us k l l', ts = us ++ List.replicate k ⟨.dedent, "", l, 1⟩ ∧
      tokenize (a ++ '\n' :: b) = .ok (us ++ (List.replicate k ⟨.dedent, "", l', 1⟩ ++
        vs.map (Token.shift (lines a).length))) := by
  have hdeep : Deep [] := List.forall_mem_nil _
  obtain ⟨us, levels, l, hdeep, hts, hmore⟩ := lexLines_append hdeep ha
  have hmoved : lexLines (1 + (lines a).length) [] (lines b) =
      .ok (vs.map (Token.shift (lines a).length)) := lexLines_shift (Nat.le_refl 1) hb _
  obtain ⟨l', hclose⟩ := lexLines_closes hdeep hmoved (by
    intro t us ht
    obtain ⟨u, us', rfl, rfl, -⟩ := List.map_eq_cons_iff.mp ht
    exact hleft u us' rfl)
  refine ⟨us, levels.length, l, l', hts, ?_⟩
  rw [tokenize, lines_append, hmore, hclose]
  rfl

/-- A script that can be read starts at the left. -/
theorem Derives.left {p : Program} {ts : List Token} (h : Derives (.program p) ts) :
    ∀ t us, ts = t :: us → t.kind ≠ .indent := by
  rintro t us rfl hindent
  obtain ⟨s', hread, -⟩ := h.reads State.initial trivial
  obtain ⟨s₁, hstep, -⟩ := hread.of_cons
  simp [State.step, State.initial, stepStatement, State.begin, State.fail, hindent] at hstep

/-- The program of two scripts is that of the first one, and behind it that of the second one with
its lines moved by the lines of the first. -/
theorem parse_append {a b : List Char} {p q : Program} (ha : parse a = .ok p)
    (hb : parse b = .ok q) :
    parse (a ++ '\n' :: b) = .ok (p ++ shiftBlock (lines a).length q) := by
  obtain ⟨ts, s, hts, hread, hfinish⟩ := reads_of_parse ha
  obtain ⟨vs, hvs, hderives⟩ := derives_of_parse hb
  obtain ⟨us, k, l, l', rfl, htokens⟩ := tokenize_append hts hvs hderives.left
  obtain ⟨s₁, hfront, hend⟩ := hread.of_append
  have hclosed : s₁.Reads (List.replicate k ⟨.dedent, "", l', 1⟩) s :=
    State.Reads.dedents (t := ⟨.dedent, "", l, 1⟩) rfl rfl hend
  obtain ⟨s', hrest, hfiles⟩ :=
    (hderives.shift (lines a).length).reads s (State.finish_eq_ok hfinish).1
  have hall : State.initial.Reads _ s' := hfront.append (hclosed.append hrest)
  rw [parse_eq_ok_iff htokens, parseTokens]
  exact Outcome.bind_eq_ok.mpr ⟨s', hall, hfiles.finish hfinish⟩

end Scribe.Script
