import Scribe.Proofs.Instruction.Branches
import Scribe.Proofs.Instruction.QuotedConditions
import Scribe.Proofs.Script.ChainReading

/-!
# Reading a comparison with a quoted text

A text between double quotes is read as a literal up to the first double quote inside it. A single
quote stops the reading of the script.
-/
namespace Scribe.Script
open Text Instruction Draft

section Trees
variable {e : Expr} {ts : List Token}

def Expr.IsLeaf : Expr → Prop
  | .lit _ | .var _ => True
  | _ => False

/-- An expression without operators is written as one token, or in parentheses. -/
theorem Derives.leaf (h : Derives (.expr .sum e) ts) (he : e.IsLeaf) :
    (∃ t, ts = [t] ∧ ∀ x, e = .lit (.text x) → t.lexeme = x) ∨
      ∃ l us, ts = l :: us ∧ l.Is .openParen := by
  cases h with
  | sumMore => cases he
  | sumOne h =>
    cases h with
    | productMore => cases he
    | productOne h =>
      cases h with
      | neg => cases he
      | unaryAtom h =>
        cases h with
        | paren hl h hr => exact .inr ⟨_, _, rfl, hl⟩
        | string ht =>
          refine .inl ⟨_, rfl, ?_⟩
          rintro x ⟨⟩
          rfl
        | _ => exact .inl ⟨_, rfl, nofun⟩

/-- A comparison is written as its operands, or in parentheses. -/
theorem Derives.comparison {rest : List (Comparison × Expr)}
    (h : Derives (.expr .orTest (.compare e rest)) ts) :
    (∃ us vs, ts = us ++ vs ∧ Derives (.expr .sum e) us ∧ Derives (.compareTail rest) vs) ∨
      ∃ l us, ts = l :: us ∧ l.Is .openParen := by
  cases h with
  | orOne h =>
    cases h with
    | andOne h =>
      cases h with
      | compareMore h tail more => exact .inl ⟨_, _, rfl, h, tail⟩
      | compareOne h =>
        cases h with
        | sumOne h =>
          cases h with
          | productOne h =>
            cases h with
            | unaryAtom h =>
              cases h with
              | paren hl h hr => exact .inr ⟨_, _, rfl, hl⟩

/-- The literal with which a choice compares a variable stands behind the operator. -/
theorem Derives.compared {line : Nat} {x : String} {op : Comparison} {t : String}
    {body : List Stmt} {arms : List (Expr × List Stmt)} {last : Option (List Stmt)} {p : Program}
    {i n o s : Token} {us : List Token}
    (h : Derives (.program (.choose line ((.compare (.var x) [(op, .lit (.text t))], body) :: arms)
      last :: p)) (i :: n :: o :: s :: us)) (hn : ¬n.Is .openParen) (hs : ¬s.Is .openParen) :
    s.lexeme = t := by
  generalize htokens : i :: n :: o :: s :: us = tokens at h
  cases h with
  | start h =>
    cases h with
    | stmtsCons h tail =>
      cases h with
      | simpleLine h => cases h
      | choose ht hcond =>
        simp only [List.cons_append, List.append_assoc, List.cons.injEq] at htokens
        obtain ⟨-, htokens⟩ := htokens
        rcases hcond.comparison with ⟨ls, rs, rfl, hleft, hright⟩ | ⟨l, ls, rfl, hl⟩
        · rcases hleft.leaf trivial with ⟨l, rfl, -⟩ | ⟨l, ls, rfl, hl⟩
          · cases hright with
            | compareCons ho hop hoperand more =>
              rcases hoperand.leaf trivial with ⟨r, rfl, hliteral⟩ | ⟨r, rs, rfl, hr⟩
              · obtain ⟨-, -, rfl, -⟩ : n = l ∧ o = _ ∧ s = r ∧ _ := by simpa using htokens
                exact hliteral t rfl
              · obtain ⟨-, -, rfl, -⟩ : n = l ∧ o = _ ∧ s = r ∧ _ := by simpa using htokens
                exact absurd hr hs
          · obtain ⟨rfl, -⟩ := List.cons_eq_cons.mp htokens
            exact absurd hl hn
        · obtain ⟨rfl, -⟩ := List.cons_eq_cons.mp htokens
          exact absurd hl hn

end Trees

theorem lexLine_left (line : Nat) {c : Char} {r : List Char} (hspace : c ≠ ' ') (htab : c ≠ '\t') :
    lexLine line [] (c :: r) = (lexFrom line [] 1 0 (c :: r)).map fun ts =>
      (ts ++ [⟨.newline, "", line, (c :: r).length + 1⟩], []) := by
  have hleading : (c :: r).takeWhile (fun c => c == ' ' || c == '\t') = [] :=
    List.takeWhile_cons_of_neg (by simp [hspace, htab])
  simp only [lexLine, hleading, List.length_nil, List.drop_zero, blockMarks, keptLevels]
  cases lexFrom line [] 1 0 (c :: r) <;> rfl

/-- A script is cut into tokens if its first line is, as far as that line goes. -/
theorem tokenize_first {source l : List Char} {ls : List (List Char)} {c : Char} {r : List Char}
    (hlines : lines source = l :: ls) (hcode : codeOf l = c :: r) (hspace : c ≠ ' ')
    (htab : c ≠ '\t') :
    (∀ cause, lexFrom 1 [] 1 0 (c :: r) = .error cause →
      tokenize source = .error ⟨.lexical cause, some 1⟩) ∧
    ∀ ts, tokenize source = .ok ts →
      ∃ us vs, lexFrom 1 [] 1 0 (c :: r) = .ok us ∧ ts = us ++ vs := by
  have hline := lexLine_left 1 (r := r) hspace htab
  constructor
  · intro cause h
    rw [h] at hline
    simp [tokenize, hlines, lexLines, hcode, hline, Except.map]
  · intro ts h
    rw [tokenize, hlines] at h
    obtain ⟨us, levels, vs, hus, -, rfl⟩ := lexLines_code (by simp [hcode]) h
    rw [hcode, hline] at hus
    obtain ⟨us', hus', heq⟩ := Outcome.map_eq_ok.mp hus
    obtain ⟨rfl, -⟩ := Prod.mk.inj heq
    exact ⟨us', _, hus', List.append_assoc _ _ _⟩

theorem codeOf_of_strip {l u y : List Char} {c : Char} (h : stripComment l = u ++ c :: y)
    (hc : isBlank c = false) : ∃ z, codeOf l = u ++ c :: z := by
  have hlast : (u ++ [c]).getLast?.any isBlank = false := by
    rw [List.getLast?_concat]
    exact hc
  refine ⟨dropEndWhile isBlank y, ?_⟩
  have hdrop := dropEndWhile_append hlast y
  rw [List.append_assoc, List.append_assoc] at hdrop
  rw [codeOf, h]
  exact hdrop

section Header
variable (v : PlainWord)

theorem lead_if : Lead "if ".toList (.keyword .ifWord) "if".toList :=
  lead_word (c := 'i') (r := ['f']) (by decide) (by decide) (by decide)

theorem lead_equals : Lead "== ".toList (.compare .eq) "==".toList :=
  lead_lexeme (c := '=') (r := ['=']) (.inr rfl) (by decide) (fun rest => rfl) (by decide)
    (by decide) (fun rest => rfl) (by decide) (by decide)

def headerFront : List Char := "if ".toList ++ (v.text ++ [' '] ++ "== ".toList)

theorem headerFront_append (k : List Char) :
    "if ".toList ++ compared v.text .eq k = headerFront v ++ k := by
  simp [headerFront, compared, Comparison.symbol]

theorem headerFront_plain : ∀ c ∈ headerFront v, c ≠ '"' ∧ c ≠ '#' ∧ c ≠ '/' :=
  List.forall_mem_append.mpr ⟨by decide, List.forall_mem_append.mpr
    ⟨List.forall_mem_append.mpr ⟨v.forall_text (by decide), by decide⟩, by decide⟩⟩

theorem lexFrom_headerFront (k : List Char) : ∃ recent column i n o, Token.Is n .name ∧
    lexFrom 1 [] 1 0 (headerFront v ++ k) =
      (lexFrom 1 recent column 0 k).map fun ts => i :: n :: o :: ts := by
  have hname : Lead (v.text ++ [' ']) .identifier v.text := lead_name v.name
  have hfront : headerFront v ++ k =
      "if ".toList ++ ((v.text ++ [' ']) ++ ("== ".toList ++ k)) := by simp [headerFront]
  have hif := lead_if.cut 1 [] 1 ((v.text ++ [' ']) ++ ("== ".toList ++ k))
  rw [hname.cut, lead_equals.cut, map_map, map_map] at hif
  rw [hfront]
  exact ⟨_, _, _, ⟨.identifier, String.ofList v.text, 1, _⟩, _, rfl, hif⟩

end Header

section Literals
variable {a b cs : List Char} {c : Char}

theorem ne_of_isStop (hc : isStop c = false ∨ isSign c = true) : c ≠ '"' ∧ c ≠ '\\' := by
  constructor <;> rintro rfl <;> revert hc <;> decide

/-- A plain character in a literal is read as it stands. -/
theorem readString_plain (hc : c ≠ '"' ∧ c ≠ '\\') (r : List Char) :
    readString (c :: r) = (readString r).map fun (cs, n) => (c :: cs, n + 1) := by
  rw [readString]
  · exact hc.1
  · exact fun h _ => hc.2 h
  · exact fun _ _ h _ => hc.2 h

theorem stripCommentFrom_plain (hc : c ≠ '"' ∧ c ≠ '\\') (r : List Char) :
    stripCommentFrom true (c :: r) = c :: stripCommentFrom true r := by
  rw [stripCommentFrom]
  · exact fun _ _ h _ => hc.2 h
  · exact hc.1

/-- A sign in a literal is a part of what is read. -/
theorem mem_of_readString (ha : ∀ c ∈ a, isStop c = false) (hc : isSign c = true) {n : Nat}
    (h : readString (a ++ c :: b) = .ok (cs, n)) : c ∈ cs := by
  induction a generalizing cs n with
  | nil =>
    rw [List.nil_append, readString_plain (ne_of_isStop (.inr hc))] at h
    obtain ⟨read, -, heq⟩ := Outcome.map_eq_ok.mp h
    obtain ⟨rfl, -⟩ := Prod.mk.inj heq
    exact List.mem_cons_self
  | cons d r ih =>
    obtain ⟨hd, hr⟩ := List.forall_mem_cons.mp ha
    rw [List.cons_append, readString_plain (ne_of_isStop (.inl hd))] at h
    obtain ⟨read, hread, heq⟩ := Outcome.map_eq_ok.mp h
    obtain ⟨rfl, -⟩ := Prod.mk.inj heq
    exact List.mem_cons_of_mem d (ih hr hread)

/-- No comment starts in a literal. -/
theorem stripCommentFrom_literal (ha : ∀ c ∈ a, c ≠ '"' ∧ c ≠ '\\') (b : List Char) :
    stripCommentFrom true (a ++ b) = a ++ stripCommentFrom true b := by
  induction a with
  | nil => rfl
  | cons d r ih =>
    obtain ⟨hd, hr⟩ := List.forall_mem_cons.mp ha
    rw [List.cons_append, stripCommentFrom_plain hd, ih hr, List.cons_append]

end Literals

section Scripts
variable (v : PlainWord) (w : Wording) (m : PlainWord) {q : Char}

def quotedHeader (q : Char) : List Char :=
  "if ".toList ++ compared v.text .eq (q :: quotedRest v w q) ++ [':']

theorem lines_quotedScript (hq : isQuote q = true) : lines (quotedScript v w m q) =
    [quotedHeader v w q, "    ".toList ++ printText m.text] := by
  have hcondition := oneLine_condition (oneLine_quotedCondition v w hq)
  rw [condition_quoted v w hq] at hcondition
  have hheader : OneLine (quotedHeader v w q) :=
    oneLine_append.mpr ⟨oneLine_append.mpr ⟨by decide, hcondition⟩, by decide⟩
  have hprint : OneLine ("    ".toList ++ printText m.text) :=
    oneLine_append.mpr ⟨by decide, oneLine_append.mpr ⟨by decide, oneLine_quote _⟩⟩
  exact lines_joinLines (List.forall_mem_cons.mpr ⟨hheader, List.forall_mem_singleton.mpr hprint⟩)
    (List.cons_ne_nil _ _)

theorem quotedHeader_eq :
    quotedHeader v w q = headerFront v ++ q :: (quotedRest v w q ++ [':']) := by
  rw [quotedHeader, headerFront_append]
  simp

/-- A single quote cannot be read. -/
theorem parse_single :
    parse (quotedScript v w m '\'') = .error ⟨.lexical (.unexpectedCharacter '\''), some 1⟩ := by
  have hplain : ∀ c ∈ headerFront v ++ ['\''], c ≠ '"' ∧ c ≠ '#' ∧ c ≠ '/' :=
    List.forall_mem_append.mpr ⟨headerFront_plain v, by decide⟩
  have hstrip := stripCommentFrom_append hplain (quotedRest v w '\'' ++ [':'])
  rw [List.append_assoc, List.append_assoc, List.singleton_append, List.singleton_append,
    ← quotedHeader_eq] at hstrip
  obtain ⟨z, hcode⟩ := codeOf_of_strip hstrip (by decide)
  obtain ⟨recent, column, i, n, o, -, hlex⟩ := lexFrom_headerFront v ('\'' :: z)
  have hquote : lexFrom 1 recent column 0 ('\'' :: z) = .error (.unexpectedCharacter '\'') := rfl
  rw [hquote] at hlex
  obtain ⟨hfails, -⟩ := tokenize_first (lines_quotedScript v w m rfl) hcode (by decide) (by decide)
  rw [parse, hfails _ hlex]

def comparedProgram (t : List Char) : Program :=
  [.choose 1 [(.compare (.var (String.ofList v.text)) [(.eq, .lit (.text (String.ofList t)))],
    messageBlock 2 m)] none]

/-- A text between double quotes is the literal of a comparison. -/
theorem piece_compared (t : List Char) (line : Nat) : Piece line (compared v.text .eq (quote t))
    (Derives (.expr .orTest
      (.compare (.var (String.ofList v.text)) [(.eq, .lit (.text (String.ofList t)))]))) := by
  have hrest : Piece line (Comparisons.one .eq (.string (String.ofList t))).text _ :=
    Comparisons.piece _
  have h := piece_comparison (piece_name v.name) hrest
  simp only [Comparisons.text, Term.text, String.toList_ofList, Comparisons.trees, Term.tree] at h
  exact h

/-- A choice with a single arm. -/
theorem parse_arm {u : List Char} {e : Expr}
    (hcondition : ∀ line, Piece line u (Derives (.expr .orTest e))) :
    parse (joinLines ["if ".toList ++ u ++ [':'], "    ".toList ++ printText m.text]) =
      .ok [.choose 1 [(e, messageBlock 2 m)] none] := by
  have hlines : ["if ".toList ++ u ++ [':'], "    ".toList ++ printText m.text] =
      ("if ".toList ++ (u ++ [':'])) :: indented (messageDraft m).lines ++ [] := by
    rw [lines_messageDraft, List.append_assoc]
    rfl
  rw [hlines]
  refine parse_of_laid (laid_one ((laid_arm (codeLine_if hcondition)
    (laid_message m 1 2) laid_nil (.inl rfl)).imp ?_)) (List.cons_ne_nil _ _)
  rintro ts ⟨_, n, us, _, rfl, ⟨t, cs, c, rfl, ht, hline, hcs, hc⟩, hn, hus, rfl⟩
  have h := Derives.choose (Token.is_of_kind ht) hcs hc hn hus .elifNil .elseNone
  rw [hline, trees_messageDraft] at h
  simpa using h

theorem quote_words {t : List Char} (ht : ∀ c ∈ t, isWordChar c = true ∨ c = ' ') :
    quote t = '"' :: (t ++ ['"']) := by
  have hescape : ∀ c ∈ t, escape c = [c] := by
    intro c hc
    rcases ht c hc with hword | rfl
    · have hne (d : Char) (hd : isWordChar d = false) : (c == d) = false := by
        rw [beq_eq_false_iff_ne]
        rintro rfl
        rw [hword] at hd
        cases hd
      simp [escape, hne '\\' (by decide), hne '"' (by decide), hne '\n' (by decide),
        hne '\t' (by decide)]
    · rfl
  have hflat : t.flatMap escape = t := by
    rw [List.flatMap_def, List.map_congr_left hescape, ← List.flatMap_def]
    exact List.flatMap_singleton' t
  rw [quote, hflat, List.cons_append]

theorem parse_double (h : Unphrased w.text) :
    parse (quotedScript v w m '"') = .ok (comparedProgram v m (narrow w.text)) := by
  have hquote : quote (narrow w.text) = '"' :: (narrow w.text ++ ['"']) :=
    quote_words fun c hc => w.words c (narrow_subset w.text hc)
  rw [quotedScript, quotedRest_of_unphrased v w h, ← hquote]
  exact parse_arm m (piece_compared v (narrow w.text))

/-- Where a phrase occurs between the quotes, the literal is not the quoted text. -/
theorem parse_double_ne (h : ¬Unphrased w.text) :
    parse (quotedScript v w m '"') ≠ .ok (comparedProgram v m w.text) := by
  intro hparse
  obtain ⟨tokens, htokens, hderives⟩ := derives_of_parse hparse
  obtain ⟨a, c, b, hrest, hc, ha⟩ := signed_iff.mp (signed_quotedRest v w h)
  have hliteral : ∀ x ∈ a ++ [c], x ≠ '"' ∧ x ≠ '\\' :=
    List.forall_mem_append.mpr ⟨fun x hx => ne_of_isStop (.inl (ha x hx)),
      List.forall_mem_singleton.mpr (ne_of_isStop (.inr hc))⟩
  have hstrip : stripComment (quotedHeader v w '"') =
      headerFront v ++ '"' :: a ++ c :: stripCommentFrom true (b ++ [':']) := by
    have hinside := stripCommentFrom_literal hliteral (b ++ [':'])
    have hopen (r : List Char) :
        stripCommentFrom false ('"' :: r) = '"' :: stripCommentFrom true r := rfl
    have hrest' : quotedRest v w '"' ++ [':'] = a ++ [c] ++ (b ++ [':']) := by simp [hrest]
    rw [stripComment, quotedHeader_eq, stripCommentFrom_append (headerFront_plain v), hopen, hrest',
      hinside]
    simp
  obtain ⟨z, hcode⟩ := codeOf_of_strip hstrip (isBlank_of_isSign hc)
  rw [List.append_assoc, List.cons_append] at hcode
  obtain ⟨us, vs, hlex, rfl⟩ := (tokenize_first (lines_quotedScript v w m rfl) hcode (by decide)
    (by decide)).2 _ htokens
  obtain ⟨recent, column, i, n, o, hn, hfront⟩ := lexFrom_headerFront v ('"' :: (a ++ c :: z))
  obtain ⟨ts, hts, rfl⟩ := Outcome.map_eq_ok.mp (hfront.symm.trans hlex)
  obtain ⟨x, ts, hx, rfl⟩ := head_of_lexFrom (by decide) (by decide) hts
  -- The literal is read to its end, and the sign stands in it.
  obtain ⟨⟨cs, taken⟩, hread, rfl⟩ := Outcome.map_eq_ok.mp hx
  have hnot : ¬n.Is .openParen := by rw [Token.Is, hn]; decide
  have hlexeme := hderives.compared hnot (by intro hparen; cases hparen)
  have hwhole : cs = w.text := by simpa using congrArg String.toList hlexeme
  have hstop := w.isStop_text c (hwhole ▸ mem_of_readString ha hc hread)
  rw [isStop, hc] at hstop
  cases hstop

variable (threshold : Float) (answer : Expansion.Answer)

theorem trim_quotedSentence (q : Char) :
    trim (quotedSentence v w m q) = quotedSentence v w m q := by
  have htrim := trim_ifSentence (quotedCondition v q w ++ " say ".toList) m
  rwa [List.append_assoc] at htrim

theorem ofAnswer_quoted_iff (q : Char) :
    (∃ expansion, Expansion.ofAnswer threshold (String.ofList (quotedSentence v w m q)) answer =
      .ok expansion) ↔ ¬StrayCount (quotedSentence v w m q) := by
  have hunwrap : unwrap (quotedSentence v w m q) = quotedSentence v w m q :=
    unwrap_ifSentence (trim_quotedSentence v w m q)
  rw [ofAnswer_ok_iff, String.toList_ofList, hunwrap]

/-- Every answer of the classifier gives the same script. -/
theorem script_quoted (hq : isQuote q = true) {expansion : Expansion}
    (h : Expansion.ofAnswer threshold (String.ofList (quotedSentence v w m q)) answer =
      .ok expansion) : expansion.script.toList = quotedScript v w m q := by
  have hcount := (ofAnswer_quoted_iff v w m threshold answer q).mp ⟨expansion, h⟩
  have hscript : (trim (quotedScript v w m q)).isEmpty = false :=
    isEmpty_trim_cons (c := 'i') (by decide) _
  obtain ⟨expansion', hsame, -, htext⟩ := ofAnswer_if (trim_quotedSentence v w m q) hcount
    (renderBranch_quoted v w m hq) hscript threshold answer
  obtain rfl : expansion = expansion' := Except.ok.inj (h.symm.trans hsame)
  rw [htext, String.toList_ofList]

theorem comparedProgram_injective {t t' : List Char}
    (h : comparedProgram v m t = comparedProgram v m t') : t = t' := by
  simpa [comparedProgram, String.ofList_inj] using h

end Scripts

/-- A branch that compares a variable with a quoted text is expanded unless its count cannot be
looked up, whatever the classifier of intents answers. The quotes are kept as they are, so with
single quotes the script can never be read. With double quotes around a text in which no comparison
phrase occurs, the script is one choice on that text with every gap narrowed to one space; it is a
choice on the text as it was quoted exactly if no comparison phrase occurs in it and no two of its
spaces touch. -/
theorem quoted_comparison (v m : PlainWord) (w : Wording) (threshold : Float)
    (answer : Expansion.Answer) :
    let expand (q : Char) :=
      Expansion.ofAnswer threshold (String.ofList (quotedSentence v w m q)) answer
    (∀ q, (∃ expansion, expand q = .ok expansion) ↔ ¬StrayCount (quotedSentence v w m q)) ∧
      (∀ expansion, expand '\'' = .ok expansion → parse expansion.script.toList =
        .error ⟨.lexical (.unexpectedCharacter '\''), some 1⟩) ∧
      ∀ expansion, expand '"' = .ok expansion →
        (Unphrased w.text →
          parse expansion.script.toList = .ok (comparedProgram v m (narrow w.text))) ∧
        (parse expansion.script.toList = .ok (comparedProgram v m w.text) ↔
          Unphrased w.text ∧ ¬[' ', ' '] <:+: w.text) := by
  intro expand
  refine ⟨ofAnswer_quoted_iff v w m threshold answer, fun expansion h => ?_, fun expansion h => ?_⟩
  · rw [script_quoted v w m threshold answer rfl h]
    exact parse_single v w m
  rw [script_quoted v w m threshold answer rfl h, ← narrow_eq_self_iff]
  refine ⟨parse_double v w m, ?_⟩
  by_cases hphrases : Unphrased w.text
  · have hparse := parse_double v w m hphrases
    rw [hparse, and_iff_right hphrases]
    constructor
    · exact fun hsame => comparedProgram_injective v m (Except.ok.inj hsame)
    · intro hnarrow
      rw [hnarrow]
  · constructor
    · exact fun hparse => absurd hparse (parse_double_ne v w m hphrases)
    · exact fun hboth => absurd hboth.1 hphrases

/-- One sentence with the same text between single and between double quotes. -/
theorem quoted_comparison_red :
    let color : PlainWord := ⟨'c', "olor".toList, by decide, by decide⟩
    let stop : PlainWord := ⟨'s', "top".toList, by decide, by decide⟩
    ∃ single double,
      Expansion.ofAnswer defaultThreshold "If color is 'red' say stop" .absent = .ok single ∧
      parse single.script.toList = .error ⟨.lexical (.unexpectedCharacter '\''), some 1⟩ ∧
      Expansion.ofAnswer defaultThreshold "If color is \"red\" say stop" .absent = .ok double ∧
      parse double.script.toList = .ok (comparedProgram color stop "red".toList) := by
  intro color stop
  let red : Wording := ⟨"red".toList, by decide, Pattern.lacks_spelled (by decide) (by decide)⟩
  obtain ⟨hmade, hsingle, hdouble⟩ := quoted_comparison color stop red defaultThreshold .absent
  have hsingleText : "If color is 'red' say stop" =
      String.ofList (quotedSentence color red stop '\'') := by decide +kernel
  have hdoubleText : "If color is \"red\" say stop" =
      String.ofList (quotedSentence color red stop '"') := by decide +kernel
  obtain ⟨single, hs⟩ := (hmade '\'').mpr (not_strayCount (by decide))
  obtain ⟨double, hd⟩ := (hmade '"').mpr (not_strayCount (by decide))
  refine ⟨single, double, hsingleText ▸ hs, hsingle single hs, hdoubleText ▸ hd, ?_⟩
  exact (hdouble double hd).2.mpr ⟨by decide +kernel, by decide⟩

end Scribe.Script
