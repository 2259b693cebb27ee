import Mathlib.Data.List.Forall2
import Mathlib.Data.List.TakeWhile
import Scribe.Proofs.Script.LineShapes
import Scribe.Proofs.Script.Statements

/-!
# The words that lines start with

A tree that can be read names the word with which every line that has code starts, in their order:
each statement and each header of an arm has one line of its own. This holds of every script,
whatever stands in it besides.
-/
namespace Scribe.Script
open Text

def tokenLines (ts : List Token) : List (List Token) :=
  (ts.splitOnP fun t => t.IsLayout).filter fun line => !line.isEmpty

theorem tokenLines_mark {t : Token} (ht : t.IsLayout) (ts : List Token) :
    tokenLines (t :: ts) = tokenLines ts := by
  rw [tokenLines, List.splitOnP_cons_eq_if_modifyHead, if_pos (by simpa using ht)]
  rfl

theorem tokenLines_marks {marks : List Token} (hmarks : ∀ t ∈ marks, t.IsLayout)
    (ts : List Token) : tokenLines (marks ++ ts) = tokenLines ts := by
  induction marks with
  | nil => rfl
  | cons t marks ih =>
    obtain ⟨ht, hmarks⟩ := List.forall_mem_cons.mp hmarks
    rw [List.cons_append, tokenLines_mark ht, ih hmarks]

theorem tokenLines_line {us : List Token} (hne : us ≠ []) (hus : ∀ u ∈ us, ¬u.IsLayout)
    {n : Token} (hn : n.IsLayout) (ts : List Token) :
    tokenLines (us ++ n :: ts) = us :: tokenLines ts := by
  rw [tokenLines, List.splitOnP_append_cons_of_forall_mem (by simpa using hus) n
    (by simpa using hn), List.filter_cons_of_pos (by simpa using hne)]
  rfl

def StartsLine (word : Keyword) (line : List Token) : Prop :=
  ∃ t u us, line = t :: u :: us ∧ t.kind = .keyword word

def LinesStart (words : List Keyword) (ts : List Token) : Prop :=
  ∀ rest, ∃ rows, tokenLines (ts ++ rest) = rows ++ tokenLines rest ∧
    List.Forall₂ StartsLine words rows

section LinesStart
variable {words words' : List Keyword} {ts us : List Token}

theorem LinesStart.nil : LinesStart [] [] := fun _ => ⟨[], rfl, .nil⟩

theorem LinesStart.append (h : LinesStart words ts) (h' : LinesStart words' us) :
    LinesStart (words ++ words') (ts ++ us) := by
  intro rest
  obtain ⟨rows, hrows, hwords⟩ := h (us ++ rest)
  obtain ⟨rows', hrows', hwords'⟩ := h' rest
  refine ⟨rows ++ rows', ?_, List.rel_append hwords hwords'⟩
  rw [List.append_assoc, hrows, hrows', List.append_assoc]

theorem LinesStart.mark {t : Token} (ht : t.IsLayout) (h : LinesStart words ts) :
    LinesStart words (t :: ts) := by
  intro rest
  rw [List.cons_append, tokenLines_mark ht]
  exact h rest

theorem LinesStart.line {word : Keyword} {n : Token} (h : StartsLine word ts)
    (hts : ∀ t ∈ ts, ¬t.IsLayout) (hn : n.IsLayout) : LinesStart [word] (ts ++ [n]) := by
  intro rest
  have hne : ts ≠ [] := by
    obtain ⟨t, u, us, rfl, -⟩ := h
    exact nofun
  refine ⟨[ts], ?_, .cons h .nil⟩
  rw [List.append_assoc]
  exact tokenLines_line hne hts hn rest

end LinesStart

theorem Token.Is.not_isLayout {t : Token} {x : Terminal} (h : t.Is x)
    (hx : x ∉ [Terminal.newline, .indent, .dedent] := by decide) : ¬t.IsLayout := by
  rintro (hk | hk | hk) <;> rw [Token.Is, hk] at h <;> subst h <;> exact hx (by decide)

/-- An expression, and a statement that fits on a line, hold no mark of the layout; the statement
starts with its word and goes on behind it. -/
def Phrase.Inline : Phrase → List Token → Prop
  | .expr _ _, ts => ts ≠ [] ∧ ∀ t ∈ ts, ¬t.IsLayout
  | .orTail _, ts | .andTail _, ts | .compareTail _, ts => ∀ t ∈ ts, ¬t.IsLayout
  | .simple s, ts => (∀ t ∈ ts, ¬t.IsLayout) ∧ ∃ word, s.words = [word] ∧ StartsLine word ts
  | _, _ => True

theorem Derives.inline {φ : Phrase} {ts : List Token} (h : Derives φ ts) : φ.Inline ts := by
  have hword {t : Token} {word : Keyword} {us : List Token} (ht : t.kind = .keyword word)
      (hne : us ≠ []) : StartsLine word (t :: us) := by
    obtain ⟨u, us, rfl⟩ := List.exists_cons_of_ne_nil hne
    exact ⟨t, u, us, rfl, ht⟩
  induction h with
  | orOne _ ih | andOne _ ih | compareOne _ ih | sumOne _ ih | productOne _ ih | unaryAtom _ ih =>
    exact ih
  | orNil | andNil | compareNil => exact List.forall_mem_nil _
  | orMore _ _ _ ih ihtail | andMore _ _ _ ih ihtail | compareMore _ _ _ ih ihtail =>
    exact ⟨by simp [ih.1], List.forall_mem_append.mpr ⟨ih.2, ihtail⟩⟩
  | orCons ht _ _ ih ihtail | andCons ht _ _ ih ihtail | compareCons ht _ _ _ ih ihtail =>
    exact List.forall_mem_append.mpr ⟨List.forall_mem_cons.mpr ⟨ht.not_isLayout, ih.2⟩, ihtail⟩
  | sumMore _ ht _ _ ihl ihr =>
    have hsign := ht.elim (fun h => h.not_isLayout) (fun h => h.not_isLayout)
    exact ⟨by simp, List.forall_mem_append.mpr ⟨ihl.2, List.forall_mem_cons.mpr ⟨hsign, ihr.2⟩⟩⟩
  | productMore _ ht _ _ ihl ihr =>
    exact ⟨by simp,
      List.forall_mem_append.mpr ⟨ihl.2, List.forall_mem_cons.mpr ⟨ht.not_isLayout, ihr.2⟩⟩⟩
  | neg ht _ ih => exact ⟨by simp, List.forall_mem_cons.mpr ⟨ht.not_isLayout, ih.2⟩⟩
  | number ht | string ht | var ht | trueLit ht | falseLit ht | nullLit ht =>
    exact ⟨by simp, List.forall_mem_singleton.mpr ht.not_isLayout⟩
  | paren hl _ hr ih =>
    refine ⟨by simp, List.forall_mem_append.mpr ⟨List.forall_mem_cons.mpr ⟨hl.not_isLayout, ih.2⟩,
      List.forall_mem_singleton.mpr hr.not_isLayout⟩⟩
  | selectModel ht hc _ ih =>
    exact ⟨List.forall_mem_cons.mpr ⟨ht.not_isLayout,
      List.forall_mem_cons.mpr ⟨hc.not_isLayout, ih.2⟩⟩, _, rfl, hword ht.kind (by simp)⟩
  | assign ht hn ha _ ih =>
    exact ⟨List.forall_mem_cons.mpr ⟨ht.not_isLayout, List.forall_mem_cons.mpr ⟨hn.not_isLayout,
      List.forall_mem_cons.mpr ⟨ha.not_isLayout, ih.2⟩⟩⟩, _, rfl, hword ht.kind (by simp)⟩
  | assignAi ht hn hf hm hc hr =>
    refine ⟨?_, _, rfl, hword ht.kind (by simp)⟩
    simp [ht.not_isLayout, hn.not_isLayout, hf.not_isLayout, hm.not_isLayout, hc.not_isLayout,
      hr.not_isLayout]
  | print ht _ ih =>
    exact ⟨List.forall_mem_cons.mpr ⟨ht.not_isLayout, ih.2⟩, _, rfl, hword ht.kind ih.1⟩
  | expand ht hf hm hc hr =>
    refine ⟨?_, _, rfl, hword ht.kind (by simp)⟩
    simp [ht.not_isLayout, hf.not_isLayout, hm.not_isLayout, hc.not_isLayout, hr.not_isLayout]
  | simpleLine | choose | elifNil | elifCons | elseNone | elseSome | block | stmtsNil | stmtsCons
  | start => trivial

/-- A header and the lines of its block. -/
theorem LinesStart.header {word : Keyword} {words : List Keyword} {t c n : Token}
    {ts us : List Token} (ht : t.kind = .keyword word) (hts : ∀ u ∈ ts, ¬u.IsLayout)
    (hc : c.Is .colon) (hn : n.Is .newline) (h : LinesStart words us) :
    LinesStart (word :: words) (t :: ts ++ c :: n :: us) := by
  have hfirst : ¬t.IsLayout := by
    rintro (hk | hk | hk) <;> rw [ht] at hk <;> cases hk
  have hline : StartsLine word (t :: (ts ++ [c])) := by
    cases ts with
    | nil => exact ⟨t, c, [], rfl, ht⟩
    | cons u ts => exact ⟨t, u, ts ++ [c], rfl, ht⟩
  have hinline : ∀ u ∈ t :: (ts ++ [c]), ¬u.IsLayout := List.forall_mem_cons.mpr
    ⟨hfirst, List.forall_mem_append.mpr ⟨hts, List.forall_mem_singleton.mpr hc.not_isLayout⟩⟩
  have hall := (LinesStart.line hline hinline (.inl hn.kind)).append h
  simpa using hall

def Phrase.LinesStart : Phrase → List Token → Prop
  | .stmt s, ts => Script.LinesStart s.words ts
  | .stmts body, ts | .block body, ts | .program body, ts => Script.LinesStart (blockWords body) ts
  | .elifs arms, ts => Script.LinesStart (armWords .elifWord arms) ts
  | .otherwise last, ts => Script.LinesStart (lastWords last) ts
  | _, _ => True

theorem Derives.linesStart {φ : Phrase} {ts : List Token} (h : Derives φ ts) : φ.LinesStart ts := by
  induction h with
  | simpleLine h hn =>
    obtain ⟨hts, word, hwords, hline⟩ := h.inline
    change Script.LinesStart (Stmt.words _) _
    rw [hwords]
    exact .line hline hts (.inl hn.kind)
  | choose ht hcond hc hn hbody harms hlast _ ihbody iharms ihlast =>
    have hheader := LinesStart.header ht.kind hcond.inline.2 hc hn ihbody
    have hall := (hheader.append iharms).append ihlast
    simpa [Phrase.LinesStart, Stmt.words, armWords] using hall
  | elifNil | elseNone | stmtsNil => exact .nil
  | elifCons ht hcond hc hn hbody harms _ ihbody iharms =>
    have hall := (LinesStart.header ht.kind hcond.inline.2 hc hn ihbody).append iharms
    simpa [Phrase.LinesStart, armWords] using hall
  | elseSome ht hc hn hbody ih =>
    have hnone : ∀ u ∈ ([] : List Token), ¬u.IsLayout := List.forall_mem_nil _
    exact LinesStart.header ht.kind hnone hc hn ih
  | block hi h more hd ih =>
    have hall := (ih.append (.mark (.inr (.inr hd.kind)) .nil)).mark (.inr (.inl hi.kind))
    rwa [List.append_nil] at hall
  | stmtsCons _ _ ih ihtail => exact ih.append ihtail
  | start _ ih => exact ih
  | _ => trivial

def LineStart (word : Keyword) (text : List Char) : Prop :=
  ∃ line column us,
    lexFrom line [] column 0 ((codeOf text).dropWhile fun c => c == ' ' || c == '\t') = .ok us ∧
      StartsLine word us

def codeLines (texts : List (List Char)) : List (List Char) :=
  texts.filter fun text => codeOf text ≠ []

/-- Behind its indentation a line that has code starts with a token. -/
theorem lexFrom_codeOf_ne_nil {text : List Char} {line column : Nat} {us : List Token}
    (hcode : codeOf text ≠ [])
    (h : lexFrom line [] column 0 ((codeOf text).dropWhile fun c => c == ' ' || c == '\t') =
      .ok us) : us ≠ [] := by
  have hfirst := head?_dropWhile_any (fun c => c == ' ' || c == '\t') (codeOf text)
  cases hrest : (codeOf text).dropWhile fun c => c == ' ' || c == '\t' with
  | nil =>
    have hlast := getLast?_dropEndWhile isBlank (stripComment text)
    rw [show dropEndWhile isBlank (stripComment text) = codeOf text from rfl,
      List.getLast?_eq_some_getLast hcode] at hlast
    have hall := List.dropWhile_eq_nil_iff.mp hrest _ (List.getLast_mem hcode)
    simp only [Bool.or_eq_true, beq_iff_eq] at hall
    have hblank : isBlank ((codeOf text).getLast hcode) = true := by
      rcases hall with hc | hc <;> rw [hc] <;> decide
    rw [Option.any_some, hblank] at hlast
    cases hlast
  | cons c r =>
    rw [hrest] at hfirst h
    simp only [List.head?_cons, Option.any_some, Bool.or_eq_false_iff,
      beq_eq_false_iff_ne] at hfirst
    obtain ⟨x, vs, -, rfl⟩ := head_of_lexFrom hfirst.1 hfirst.2 h
    exact nofun

theorem tokenLines_row {line : Nat} {levels levels' : List Nat} {text : List Char}
    {row : List Token} (hcode : codeOf text ≠ [])
    (h : lexLine line levels (codeOf text) = .ok (row, levels')) (ts : List Token) :
    ∃ column us, tokenLines (row ++ ts) = us :: tokenLines ts ∧
      lexFrom line [] column 0 ((codeOf text).dropWhile fun c => c == ' ' || c == '\t') =
        .ok us := by
  obtain ⟨marks, us, hmarks, hus, rfl⟩ := lexLine_eq_ok h
  have hinline : ∀ u ∈ us, ¬u.IsLayout := fun u hu => (inCode_of_lexFrom hus u hu).not_isLayout
  rw [drop_length_takeWhile] at hus
  refine ⟨_, us, ?_, hus⟩
  rw [List.append_assoc, List.append_assoc, tokenLines_marks (isLayout_of_blockMarks hmarks)]
  exact tokenLines_line (lexFrom_codeOf_ne_nil hcode hus) hinline (.inl rfl) ts

theorem lineStart_of_lexLines {line : Nat} {levels : List Nat} {texts : List (List Char)}
    {ts : List Token} {words : List Keyword} (h : lexLines line levels texts = .ok ts)
    (hwords : List.Forall₂ StartsLine words (tokenLines ts)) :
    List.Forall₂ LineStart words (codeLines texts) := by
  induction texts generalizing line levels ts words with
  | nil =>
    cases h
    have hclosing : ∀ t ∈ List.replicate levels.length (⟨.dedent, "", line - 1, 1⟩ : Token),
        t.IsLayout := fun t ht => .inr (.inr (by rw [List.eq_of_mem_replicate ht]))
    have hnone := tokenLines_marks hclosing []
    rw [List.append_nil] at hnone
    rw [hnone] at hwords
    cases hwords
    exact .nil
  | cons text texts ih =>
    by_cases hcode : codeOf text = []
    · rw [lexLines_blank hcode] at h
      rw [codeLines, List.filter_cons_of_neg (by simpa using hcode)]
      exact ih h hwords
    · obtain ⟨row, levels', vs, hrow, hvs, rfl⟩ := lexLines_code hcode h
      obtain ⟨column, us, hlines, hus⟩ := tokenLines_row hcode hrow vs
      rw [hlines] at hwords
      rw [codeLines, List.filter_cons_of_pos (by simpa using hcode)]
      cases hwords with
      | cons hfirst hrest => exact .cons ⟨_, _, us, hus, hfirst⟩ (ih hvs hrest)

/-- The words of a program that is read are the words that its lines start with. -/
theorem lineStarts_of_parse {source : List Char} {p : Program} (h : parse source = .ok p) :
    List.Forall₂ LineStart (blockWords p) (codeLines (lines source)) := by
  obtain ⟨tokens, htokens, hd⟩ := derives_of_parse h
  obtain ⟨rows, hrows, hwords⟩ := hd.linesStart []
  have hnone : tokenLines [] = [] := rfl
  rw [List.append_nil, hnone, List.append_nil] at hrows
  rw [← hrows] at hwords
  exact lineStart_of_lexLines htokens hwords

def Keyword.text : Keyword → String
  | .ai => "ai"
  | .set => "set"
  | .fromWord => "from"
  | .neuro => "neuro"
  | .macroWord => "macro"
  | .ifWord => "if"
  | .elifWord => "elif"
  | .elseWord => "else"
  | .andWord => "and"
  | .orWord => "or"

theorem Keyword.text_word (word : Keyword) : ∃ c r, word.text.toList = c :: r ∧ IsWord (c :: r) ∧
    isDigit c = false ∧ wordKind (c :: r) = .keyword word := by
  cases word <;> exact ⟨_, _, rfl, by decide, by decide, rfl⟩

theorem Keyword.text_injective : Function.Injective Keyword.text := by
  intro a b h
  cases a <;> cases b <;> first | rfl | exact absurd h (by decide)

section Written
variable {k : Nat} {word : Keyword} {x : List Char}

/-- A line that is written with a word starts with it. -/
theorem LineStart.written {start : Keyword} (hx : x.head?.any isWordChar = false)
    (h : LineStart start (List.replicate k ' ' ++ (word.text.toList ++ x))) :
    start = word ∧ codeOf x ≠ [] := by
  obtain ⟨line, column, us, hlex, t, u, vs, rfl, ht⟩ := h
  obtain ⟨c, r, hcr, hw, hd, hkind⟩ := word.text_word
  rw [hcr] at hlex
  obtain ⟨-, ws, hws, heq⟩ := lexFrom_indented hw hd hx hlex
  cases heq
  refine ⟨?_, fun hnil => ?_⟩
  · rw [hkind, Kind.keyword.injEq] at ht
    exact ht.symm
  · rw [hnil] at hws
    cases hws

end Written

end Scribe.Script
