import Scribe.Proofs.Script.Numerals
import Scribe.Proofs.Script.LineShapes
import Scribe.Proofs.Script.Positions
import Scribe.Proofs.Script.Rows

/-!
# What becomes of each character

Cutting a line into tokens loses nothing and invents nothing. Each token covers a slice of the code,
in which it is written; the slices follow one another without overlap, and only spaces and tabs
stand between them.
-/
namespace Scribe.Script
open Text

/-- What stands between the quotes of a literal, and the text that it denotes. -/
inductive Denotes : (body text : List Char) → Prop
  | nil : Denotes [] []
  | plain {c body text} (hquote : c ≠ '"') (hback : c ≠ '\\') (rest : Denotes body text) :
      Denotes (c :: body) (c :: text)
  | escaped {e c body text} (he : unescape? e = some c) (rest : Denotes body text) :
      Denotes ('\\' :: e :: body) (c :: text)

theorem denotes_of_readString {r cs : List Char} {n : Nat} (h : readString r = .ok (cs, n)) :
    ∃ body rest, r = body ++ '"' :: rest ∧ n = body.length + 1 ∧ Denotes body cs := by
  fun_induction readString r generalizing cs n with
  | case1 => cases h
  | case2 rest =>
    cases h
    exact ⟨[], rest, rfl, rfl, .nil⟩
  | case3 => cases h
  | case4 => cases h
  | case5 e r c he ih =>
    obtain ⟨⟨cs', n'⟩, hread, heq⟩ := Outcome.map_eq_ok.mp h
    cases heq
    obtain ⟨body, rest, rfl, rfl, hbody⟩ := ih hread
    exact ⟨'\\' :: e :: body, rest, rfl, rfl, .escaped he hbody⟩
  | case6 c r hquote hlone hescape ih =>
    obtain ⟨⟨cs', n'⟩, hread, heq⟩ := Outcome.map_eq_ok.mp h
    cases heq
    obtain ⟨body, rest, rfl, rfl, hbody⟩ := ih hread
    have hback : c ≠ '\\' := by
      rintro rfl
      cases hr : body ++ '"' :: rest with
      | nil => exact hlone rfl hr
      | cons e r => exact hescape e r rfl hr
    exact ⟨c :: body, rest, rfl, rfl, .plain hquote hback hbody⟩

structure Slice where
  token : Token
  text : List Char

def Slice.stop (s : Slice) : Nat := s.token.column + s.text.length

/-- How a token is written: a string as a literal, the text after `from AI:` with blanks around it,
and every other token as it is. -/
inductive Slice.Written : Slice → Prop
  | string {t body} (hk : t.kind = .string) (h : Denotes body t.lexeme.toList) :
      Written ⟨t, '"' :: body ++ ['"']⟩
  | raw {t text} (hk : t.kind = .raw) (h : trim text = t.lexeme.toList) : Written ⟨t, text⟩
  | verbatim {t} (hstring : t.kind ≠ .string) (hraw : t.kind ≠ .raw) :
      Written ⟨t, t.lexeme.toList⟩

/-- The slice of a lexeme. -/
theorem slice_of_lexemeAt {c : Char} {r : List Char} {x : Lexeme} (h : lexemeAt c r = .ok x) :
    ∃ text rest, c :: r = text ++ rest ∧ text.length = x.width ∧ text ≠ [] ∧ x.kind ≠ .raw ∧
      ∀ line column, Slice.Written ⟨⟨x.kind, String.ofList x.text, line, column⟩, text⟩ := by
  have hverbatim (hstring : x.kind ≠ .string) (hraw : x.kind ≠ .raw) (line column : Nat) :
      Slice.Written ⟨⟨x.kind, String.ofList x.text, line, column⟩, x.text⟩ := by
    have hw := Slice.Written.verbatim (t := ⟨x.kind, String.ofList x.text, line, column⟩)
      hstring hraw
    rwa [String.toList_ofList] at hw
  cases lexemeAt_inv h with
  | @string cs n hc hread =>
    obtain ⟨body, rest, rfl, rfl, hbody⟩ := denotes_of_readString hread
    refine ⟨'"' :: body ++ ['"'], rest, ?_, ?_, nofun, nofun, fun line column => .string rfl ?_⟩
    · rw [hc]
      simp
    · simp
    · rwa [String.toList_ofList]
  | @mark kind hmark =>
    have hkind : kind ≠ .string ∧ kind ≠ .raw := by
      simp only [List.mem_cons, Prod.mk.injEq, List.not_mem_nil, or_false] at hmark
      rcases hmark with ⟨-, rfl⟩ | ⟨-, rfl⟩ | ⟨-, rfl⟩ <;> exact ⟨nofun, nofun⟩
    exact ⟨[c], r, rfl, rfl, nofun, hkind.2, hverbatim hkind.1 hkind.2⟩
  | number hd =>
    obtain ⟨rest, hrest⟩ := takeNumber_isPrefix (c :: r)
    refine ⟨takeNumber (c :: r), rest, hrest.symm, rfl, ?_, nofun, hverbatim nofun nofun⟩
    obtain ⟨ds, part, -, -, heq | ⟨-, heq⟩⟩ := takeNumber_cases r hd <;> simp [heq]
  | @word w hd hc hw =>
    have hkind := wordKind_ofWord w
    obtain ⟨rest, hrest⟩ := List.takeWhile_prefix isWordChar (l := c :: r)
    have hraw : wordKind w ≠ .raw := fun hk => by rw [hk] at hkind; cases hkind
    have hstring : wordKind w ≠ .string := fun hk => by rw [hk] at hkind; cases hkind
    refine ⟨w, rest, ?_, rfl, ?_, hraw, hverbatim hstring hraw⟩
    · rw [hw, hrest]
    · simp [hw, hc]
  | sign hop =>
    have hkind := operator?_ofSign hop
    obtain ⟨⟨rest, hrest⟩, hwidth, hne, -⟩ := operator?_text hop
    have hraw : x.kind ≠ .raw := fun hk => by rw [hk] at hkind; cases hkind
    have hstring : x.kind ≠ .string := fun hk => by rw [hk] at hkind; cases hkind
    exact ⟨x.text, rest, hrest.symm, hwidth.symm, hne, hraw, hverbatim hstring hraw⟩

/-- Code from a column on that is cut into slices; spaces and tabs may stand between them. -/
inductive Tiled : Nat → List Char → List Slice → Prop
  | nil {column} : Tiled column [] []
  | gap {column c r ss} (hc : c = ' ' ∨ c = '\t') (rest : Tiled (column + 1) r ss) :
      Tiled column (c :: r) ss
  | slice {column s r ss} (hcolumn : s.token.column = column) (hwritten : s.Written)
      (hne : s.text ≠ []) (hraw : s.token.kind ≠ .raw) (rest : Tiled s.stop r ss) :
      Tiled column (s.text ++ r) (s :: ss)
  | tail {column s} (hcolumn : s.token.column = column) (hwritten : s.Written) :
      Tiled column s.text [s]

/-- The tokens of code cover it. -/
theorem tiled_of_lexFrom {line : Nat} {recent : List Kind} {column skip : Nat} {cs : List Char}
    {ts : List Token} (hskip : skip ≤ cs.length)
    (h : lexFrom line recent column skip cs = .ok ts) :
    ∃ ss, ss.map Slice.token = ts ∧ Tiled (column + skip) (cs.drop skip) ss := by
  fun_induction lexFrom line recent column skip cs generalizing ts with
  | case1 =>
    cases h
    rw [List.drop_nil]
    exact ⟨[], rfl, .nil⟩
  | case2 recent column skip c r ih =>
    obtain ⟨ss, hss, htiled⟩ := ih (Nat.le_of_succ_le_succ hskip) h
    rw [Nat.add_assoc, Nat.add_comm 1] at htiled
    exact ⟨ss, hss, htiled⟩
  | case3 recent column c r hc ih =>
    obtain ⟨ss, hss, htiled⟩ := ih (Nat.zero_le _) h
    exact ⟨ss, hss, .gap (by simpa using hc) htiled⟩
  | case4 => cases h
  | case5 recent column c r hc x hx token =>
    rename_i hcolon
    cases h
    obtain ⟨text, rest, hcut, hwidth, hne, hraw, hwritten⟩ := slice_of_lexemeAt hx
    have hone : x.width = 1 := by
      have hk : x.kind = .colon := by
        rw [Bool.and_eq_true, beq_iff_eq] at hcolon
        exact hcolon.1
      cases lexemeAt_inv hx with
      | mark => rfl
      | string => cases hk
      | number => cases hk
      | word => exact absurd hk (wordKind_ne_colon _)
      | sign hop =>
        have hsign := operator?_ofSign hop
        rw [hk] at hsign
        cases hsign
    obtain ⟨d, rfl⟩ := List.length_eq_one_iff.mp (hwidth.trans hone)
    rw [List.singleton_append, List.cons.injEq] at hcut
    obtain ⟨rfl, rfl⟩ := hcut
    have htail : Slice.Written ⟨⟨.raw, String.ofList (trim r), line, column + 1⟩, r⟩ :=
      .raw rfl (String.toList_ofList).symm
    exact ⟨[⟨token, [c]⟩, ⟨_, r⟩], rfl,
      .slice (s := ⟨token, [c]⟩) rfl (hwritten line column) hne hraw (.tail rfl htail)⟩
  | case6 recent column c r hc x hx token =>
    rename_i hcolon ih
    obtain ⟨us, hus, rfl⟩ := Outcome.map_eq_ok.mp h
    obtain ⟨text, rest, hcut, hwidth, hne, hraw, hwritten⟩ := slice_of_lexemeAt hx
    cases text with
    | nil => exact absurd rfl hne
    | cons d text =>
      rw [List.cons_append, List.cons.injEq] at hcut
      obtain ⟨rfl, rfl⟩ := hcut
      rw [List.length_cons] at hwidth
      obtain ⟨ss, rfl, htiled⟩ := ih (by rw [List.length_append]; omega) hus
      have hstop : column + 1 + (x.width - 1) = Slice.stop ⟨token, c :: text⟩ := by
        change _ = column + (text.length + 1)
        omega
      have hbehind : (text ++ rest).drop (x.width - 1) = rest := by
        rw [← hwidth, Nat.add_sub_cancel, List.drop_left]
      rw [hstop, hbehind] at htiled
      exact ⟨⟨token, c :: text⟩ :: ss, rfl,
        .slice (s := ⟨token, c :: text⟩) rfl (hwritten line column) hne hraw htiled⟩

section Tiled
variable {column : Nat} {cs : List Char} {ss : List Slice}

theorem Tiled.column_le (h : Tiled column cs ss) : ∀ s ∈ ss, column ≤ s.token.column := by
  induction h with
  | nil => exact List.forall_mem_nil _
  | gap _ _ ih => exact fun s hs => Nat.le_of_succ_le (ih s hs)
  | slice hcolumn _ _ _ _ ih =>
    refine List.forall_mem_cons.mpr ⟨Nat.le_of_eq hcolumn.symm, fun s hs => ?_⟩
    exact hcolumn ▸ Nat.le_trans (Nat.le_add_right _ _) (ih s hs)
  | tail hcolumn => exact List.forall_mem_singleton.mpr (Nat.le_of_eq hcolumn.symm)

theorem Tiled.apart (h : Tiled column cs ss) :
    ss.Pairwise fun s s' => s.token.column < s'.token.column ∧ s.stop ≤ s'.token.column := by
  induction h with
  | nil => exact .nil
  | gap _ _ ih => exact ih
  | @slice column s r ss hcolumn _ hne _ rest ih =>
    refine List.pairwise_cons.mpr ⟨fun s' hs' => ?_, ih⟩
    have hlength := List.length_pos_iff.mpr hne
    have hstop := rest.column_le s' hs'
    refine ⟨?_, hstop⟩
    unfold Slice.stop at hstop
    omega
  | tail => exact List.pairwise_singleton _ _

theorem Tiled.written (h : Tiled column cs ss) : ∀ s ∈ ss, s.Written := by
  induction h with
  | nil => exact List.forall_mem_nil _
  | gap _ _ ih => exact ih
  | slice _ hwritten _ _ _ ih => exact List.forall_mem_cons.mpr ⟨hwritten, ih⟩
  | tail _ hwritten => exact List.forall_mem_singleton.mpr hwritten

theorem Tiled.isPrefix (h : Tiled column cs ss) :
    ∀ s ∈ ss, s.text <+: cs.drop (s.token.column - column) := by
  induction h with
  | nil => exact List.forall_mem_nil _
  | @gap column c r ss _ rest ih =>
    intro s hs
    have hcolumn := rest.column_le s hs
    have hoffset : s.token.column - column = s.token.column - (column + 1) + 1 := by omega
    rw [hoffset, List.drop_succ_cons]
    exact ih s hs
  | @slice column s r ss hcolumn _ _ _ rest ih =>
    refine List.forall_mem_cons.mpr ⟨?_, fun s' hs' => ?_⟩
    · rw [hcolumn, Nat.sub_self, List.drop_zero]
      exact List.prefix_append s.text r
    · have hstop := rest.column_le s' hs'
      have hoffset : s'.token.column - column = s.text.length + (s'.token.column - s.stop) := by
        unfold Slice.stop at hstop ⊢
        omega
      rw [hoffset, List.drop_length_add_append]
      exact ih s' hs'
  | @tail column s hcolumn =>
    have hdrop : s.text.drop (s.token.column - column) = s.text := by
      rw [hcolumn, Nat.sub_self, List.drop_zero]
    exact List.forall_mem_singleton.mpr ⟨[], by rw [List.append_nil, hdrop]⟩

/-- The text after `from AI:` runs to the end. -/
theorem Tiled.stop_of_raw (h : Tiled column cs ss) :
    ∀ s ∈ ss, s.token.kind = .raw → s.stop = column + cs.length := by
  induction h with
  | nil => exact List.forall_mem_nil _
  | gap _ _ ih =>
    intro s hs hk
    rw [ih s hs hk, List.length_cons]
    omega
  | slice hcolumn _ _ hraw _ ih =>
    refine List.forall_mem_cons.mpr ⟨fun hk => absurd hk hraw, fun s hs hk => ?_⟩
    rw [ih s hs hk, Slice.stop, hcolumn, List.length_append, Nat.add_assoc]
  | tail hcolumn => exact List.forall_mem_singleton.mpr fun _ => by rw [Slice.stop, hcolumn]

/-- A character that no slice covers is a space or a tab. -/
theorem Tiled.gap_of_uncovered (h : Tiled column cs ss) {i : Nat} {c : Char}
    (hc : cs[i]? = some c)
    (hfree : ∀ s ∈ ss, ¬(s.token.column ≤ column + i ∧ column + i < s.stop)) :
    c = ' ' ∨ c = '\t' := by
  induction h generalizing i with
  | nil => cases hc
  | @gap column d r ss hd rest ih =>
    cases i with
    | zero =>
      cases hc
      exact hd
    | succ i =>
      have hnext : column + (i + 1) = column + 1 + i := by omega
      rw [hnext] at hfree
      exact ih hc hfree
  | @slice column s r ss hcolumn _ _ _ _ ih =>
    obtain ⟨hfirst, hrest⟩ := List.forall_mem_cons.mp hfree
    have hbehind : s.text.length ≤ i := by
      unfold Slice.stop at hfirst
      omega
    obtain ⟨j, rfl⟩ := Nat.exists_eq_add_of_le hbehind
    rw [List.getElem?_append_right hbehind, Nat.add_sub_cancel_left] at hc
    refine ih hc fun s' hs' => ?_
    rw [Slice.stop, hcolumn, Nat.add_assoc]
    exact hrest s' hs'
  | @tail column s hcolumn =>
    have hlength := (List.getElem?_eq_some_iff.mp hc).1
    refine absurd ⟨?_, ?_⟩ (hfree s (List.mem_singleton_self s))
    · omega
    · unfold Slice.stop
      omega

end Tiled

structure Accounts (code : List Char) (ss : List Slice) : Prop where
  rising : ss.Pairwise fun s s' => s.token.column < s'.token.column
  disjoint : ss.Pairwise fun s s' => s.stop ≤ s'.token.column
  inside : ∀ s ∈ ss, 1 ≤ s.token.column ∧ s.text <+: code.drop (s.token.column - 1)
  written : ∀ s ∈ ss, s.Written
  toEnd : ∀ s ∈ ss, s.token.kind = .raw → s.stop = code.length + 1
  gaps : ∀ i c, code[i]? = some c →
    (∀ s ∈ ss, ¬(s.token.column ≤ i + 1 ∧ i + 1 < s.stop)) → c = ' ' ∨ c = '\t'

theorem Tiled.accounts {code : List Char} {ss : List Slice} (h : Tiled 1 code ss) :
    Accounts code ss where
  rising := h.apart.imp And.left
  disjoint := h.apart.imp And.right
  inside s hs := ⟨h.column_le s hs, h.isPrefix s hs⟩
  written := h.written
  toEnd s hs hk := (h.stop_of_raw s hs hk).trans (Nat.add_comm _ _)
  gaps i c hc hfree := h.gap_of_uncovered hc (by rwa [Nat.add_comm 1])

theorem tiled_behind {column : Nat} {leading cs : List Char} {ss : List Slice}
    (hleading : ∀ c ∈ leading, c = ' ' ∨ c = '\t') (h : Tiled (column + leading.length) cs ss) :
    Tiled column (leading ++ cs) ss := by
  induction leading generalizing column with
  | nil => exact h
  | cons c leading ih =>
    obtain ⟨hc, hrest⟩ := List.forall_mem_cons.mp hleading
    refine .gap hc (ih hrest ?_)
    rwa [Nat.add_assoc, Nat.add_comm 1]

def ownTokens (row : List Token) : List Token := row.filter fun t => ¬t.IsLayout

theorem ownTokens_of_lexLine {line : Nat} {levels levels' : List Nat} {code : List Char}
    {row : List Token} (h : lexLine line levels code = .ok (row, levels')) :
    ∃ ss, ownTokens row = ss.map Slice.token ∧ Accounts code ss := by
  obtain ⟨marks, us, hmarks, hus, rfl⟩ := lexLine_eq_ok h
  have hown : ownTokens (marks ++ us ++ [⟨.newline, "", line, code.length + 1⟩]) = us := by
    have hfront : marks.filter (fun t => ¬t.IsLayout) = [] := List.filter_eq_nil_iff.mpr
      fun t ht => by simp [isLayout_of_blockMarks hmarks t ht]
    have hinner : us.filter (fun t => ¬t.IsLayout) = us := List.filter_eq_self.mpr
      fun t ht => by simp [(inCode_of_lexFrom hus t ht).not_isLayout]
    have hend : Token.IsLayout ⟨.newline, "", line, code.length + 1⟩ := .inl rfl
    rw [ownTokens, List.filter_append, List.filter_append, hfront, hinner]
    simp [hend]
  obtain ⟨ss, hss, htiled⟩ := tiled_of_lexFrom (Nat.zero_le _) hus
  refine ⟨ss, hown.trans hss.symm, Tiled.accounts ?_⟩
  rw [List.drop_zero, drop_length_takeWhile, Nat.add_zero, Nat.add_comm] at htiled
  have hleading : ∀ c ∈ code.takeWhile (fun c => c == ' ' || c == '\t'), c = ' ' ∨ c = '\t' :=
    fun c hc => by simpa using List.all_eq_true.mp List.all_takeWhile c hc
  have hall := tiled_behind hleading htiled
  rwa [List.takeWhile_append_dropWhile] at hall

/-- Tokens that stand line by line, with the ends of the open blocks behind them: the tokens of a
line account for its code, and a line without code has none. -/
def AccountFor (source : List Char) (ts : List Token) : Prop :=
  ∃ (rows : List (List Token)) (closing : List Token), ts = rows.flatten ++ closing ∧
    (∀ t ∈ closing, t.kind = .dedent) ∧ rows.length = (lines source).length ∧
    ∀ i text row, (lines source)[i]? = some text → rows[i]? = some row →
      (∀ t ∈ row, t.line = i + 1) ∧ (codeOf text = [] → row = []) ∧
      ∃ ss, ownTokens row = ss.map Slice.token ∧ Accounts (codeOf text) ss

/-- The tokens of a script account for all of its code. -/
theorem tokens_account_for_source {source : List Char} {ts : List Token}
    (h : tokenize source = .ok ts) : AccountFor source ts := by
  obtain ⟨rows, after, hrows, hts⟩ := rows_of_lexLines h
  refine ⟨rows, _, hts, fun t ht => ?_, hrows.length, fun i text row htext hrow => ?_⟩
  · rw [List.eq_of_mem_replicate ht]
  · obtain ⟨before, -, ⟨hcode, rfl⟩ | ⟨hcode, behind, hline⟩⟩ := hrows.get htext hrow
    · refine ⟨List.forall_mem_nil _, fun _ => rfl, [], rfl, ?_⟩
      rw [hcode]
      exact Tiled.nil.accounts
    · refine ⟨fun t ht => ?_, fun hnil => absurd hnil hcode, ownTokens_of_lexLine hline⟩
      rw [line_of_lexLine hline t ht, Nat.add_comm]

/-- A literal with an escape and a mark of comments inside it, a line without code, a prompt for a
model, and a block that the end of the script closes. -/
theorem tokens_account_for_source_block :
    let source := "if x:\n  neuro \"a\\n#\" # b\n\n  macro from AI:  go  // on".toList
    let ts : List Token :=
      [⟨.keyword .ifWord, "if", 1, 1⟩, ⟨.identifier, "x", 1, 4⟩, ⟨.colon, ":", 1, 5⟩,
        ⟨.newline, "", 1, 6⟩, ⟨.indent, "", 2, 1⟩, ⟨.keyword .neuro, "neuro", 2, 3⟩,
        ⟨.string, "a\n#", 2, 9⟩, ⟨.newline, "", 2, 15⟩, ⟨.keyword .macroWord, "macro", 4, 3⟩,
        ⟨.keyword .fromWord, "from", 4, 9⟩, ⟨.keyword .ai, "AI", 4, 14⟩, ⟨.colon, ":", 4, 16⟩,
        ⟨.raw, "go", 4, 17⟩, ⟨.newline, "", 4, 21⟩, ⟨.dedent, "", 4, 1⟩]
    tokenize source = .ok ts ∧ AccountFor source ts := by
  intro source ts
  have htokens : tokenize source = .ok ts := rfl
  exact ⟨htokens, tokens_account_for_source htokens⟩

end Scribe.Script
