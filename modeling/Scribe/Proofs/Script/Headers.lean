import Scribe.Proofs.Script.Positions

/-!
# Lines of headers

The lines of the tokens of a script never go back, and behind the end of a line only the end of a
block may stand on the same line still. So the headers of a choice stand on lines of their own,
with at least one line between two of them: that of a statement of the arm.
-/
namespace Scribe.Script
open Text

def Token.Before (t u : Token) : Prop :=
  t.line ≤ u.line ∧ (t.kind = .newline → u.kind ≠ .dedent → t.line < u.line)

theorem line_of_lexLines_of_ne_dedent {line : Nat} {levels : List Nat} {texts : List (List Char)}
    {ts : List Token} (h : lexLines line levels texts = .ok ts) :
    ∀ t ∈ ts, t.kind ≠ .dedent → line ≤ t.line := by
  induction texts generalizing line levels ts with
  | nil =>
    cases h
    intro t ht hkind
    rw [List.eq_of_mem_replicate ht] at hkind
    exact absurd rfl hkind
  | cons text rest ih =>
    by_cases hcode : codeOf text = []
    · rw [lexLines_blank hcode] at h
      intro t ht hkind
      have := ih h t ht hkind
      omega
    · obtain ⟨us, levels', vs, hus, hvs, rfl⟩ := lexLines_code hcode h
      intro t ht hkind
      rcases List.mem_append.mp ht with ht | ht
      · exact Nat.le_of_eq (line_of_lexLine hus t ht).symm
      · have := ih hvs t ht hkind
        omega

/-- Only the last token of a line is its end. -/
theorem pairwise_lexLine {line : Nat} {levels levels' : List Nat} {code : List Char}
    {ts : List Token} (h : lexLine line levels code = .ok (ts, levels')) :
    ts.Pairwise Token.Before := by
  have hline := line_of_lexLine h
  obtain ⟨marks, us, hmarks, hus, rfl⟩ := lexLine_eq_ok h
  have hfront : ∀ t ∈ marks ++ us, t.kind ≠ .newline := by
    intro t ht hkind
    rcases List.mem_append.mp ht with ht | ht
    · rcases kind_of_blockMarks hmarks t ht with hk | hk <;> rw [hk] at hkind <;> cases hkind
    · exact (inCode_of_lexFrom hus t ht).not_isLayout (.inl hkind)
  have hbefore {t u : Token} (ht : t ∈ marks ++ us)
      (hu : u ∈ marks ++ us ++ [⟨.newline, "", line, code.length + 1⟩]) : t.Before u := by
    refine ⟨?_, fun hkind => absurd hkind (hfront t ht)⟩
    exact Nat.le_of_eq ((hline t (List.mem_append_left _ ht)).trans (hline u hu).symm)
  refine List.pairwise_append.mpr ⟨?_, List.pairwise_singleton _ _, fun t ht u hu => ?_⟩
  · exact List.pairwise_of_forall_mem_list fun t ht u hu =>
      hbefore ht (List.mem_append_left _ hu)
  · exact hbefore ht (List.mem_append_right _ hu)

theorem pairwise_lexLines {line : Nat} {levels : List Nat} {texts : List (List Char)}
    {ts : List Token} (h : lexLines line levels texts = .ok ts) : ts.Pairwise Token.Before := by
  induction texts generalizing line levels ts with
  | nil =>
    cases h
    refine List.pairwise_replicate.mpr (.inr ⟨Nat.le_refl _, fun hkind => ?_⟩)
    cases hkind
  | cons text rest ih =>
    by_cases hcode : codeOf text = []
    · rw [lexLines_blank hcode] at h
      exact ih h
    · obtain ⟨us, levels', vs, hus, hvs, rfl⟩ := lexLines_code hcode h
      refine List.pairwise_append.mpr ⟨pairwise_lexLine hus, ih hvs, fun t ht u hu => ?_⟩
      rw [Token.Before, line_of_lexLine hus t ht]
      refine ⟨?_, fun _ hkind => line_of_lexLines_of_ne_dedent hvs u hu hkind⟩
      have := (line_of_lexLines (by omega) hvs u hu).1
      omega

def Token.StandsIn (source : List Char) (t : Token) : Prop :=
  ∃ text, (lines source)[t.line - 1]? = some text ∧ t.InCode (codeOf text)

theorem stands_of_lexLines {line : Nat} {levels : List Nat} {texts : List (List Char)}
    {ts : List Token} (h : lexLines line levels texts = .ok ts) :
    ∀ t ∈ ts, t.IsLayout ∨ ∃ i text, t.line = line + i ∧ texts[i]? = some text ∧
      t.InCode (codeOf text) := by
  induction texts generalizing line levels ts with
  | nil =>
    cases h
    intro t ht
    rw [List.eq_of_mem_replicate ht]
    exact .inl (.inr (.inr rfl))
  | cons text rest ih =>
    have hrest {levels : List Nat} {vs : List Token}
        (hvs : lexLines (line + 1) levels rest = .ok vs) (t : Token) (ht : t ∈ vs) :
        t.IsLayout ∨ ∃ i text', t.line = line + i ∧ (text :: rest)[i]? = some text' ∧
          t.InCode (codeOf text') := by
      refine (ih hvs t ht).imp_right fun ⟨i, text', hline, htext, hin⟩ => ?_
      exact ⟨i + 1, text', by omega, htext, hin⟩
    by_cases hcode : codeOf text = []
    · rw [lexLines_blank hcode] at h
      exact hrest h
    · obtain ⟨us, levels', vs, hus, hvs, rfl⟩ := lexLines_code hcode h
      intro t ht
      rcases List.mem_append.mp ht with ht | ht
      · refine (tokens_of_lexLine hus t ht).imp_right fun hin => ⟨0, text, ?_, rfl, hin⟩
        exact line_of_lexLine hus t ht
      · exact hrest hvs t ht

theorem stands_of_tokenize {source : List Char} {ts : List Token} (h : tokenize source = .ok ts) :
    ∀ t ∈ ts, t.IsLayout ∨ t.StandsIn source := by
  intro t ht
  refine (stands_of_lexLines h t ht).imp_right fun ⟨i, text, hline, htext, hin⟩ => ⟨text, ?_, hin⟩
  rwa [hline, Nat.add_sub_cancel_left]

/-- Arms with a condition, the tokens that they are written as, and among these the words that
their headers start with: the first one is `word`, the others are `elif`. -/
inductive Headed : Terminal → List (Expr × List Stmt) → List Token → List Token → Prop
  | nil {word} : Headed word [] [] []
  | cons {word t c n condition body arms ts us vs headers} (ht : t.Is word)
      (hcond : Derives (.expr .orTest condition) ts) (hc : c.Is .colon) (hn : n.Is .newline)
      (hbody : Derives (.block body) us) (rest : Headed .elifWord arms vs headers) :
      Headed word ((condition, body) :: arms) (t :: ts ++ c :: n :: us ++ vs) (t :: headers)

section Headed
variable {word : Terminal} {arms : List (Expr × List Stmt)} {ts headers : List Token}

theorem Headed.length (h : Headed word arms ts headers) : headers.length = arms.length := by
  induction h with
  | nil => rfl
  | cons ht hcond hc hn hbody rest ih => rw [List.length_cons, ih, List.length_cons]

theorem Headed.subset (h : Headed word arms ts headers) : headers ⊆ ts := by
  induction h with
  | nil => exact List.nil_subset _
  | cons ht hcond hc hn hbody rest ih =>
    refine List.cons_subset.mpr ⟨by simp, fun u hu => ?_⟩
    exact List.mem_append_right _ (ih hu)

theorem Headed.is (h : Headed word arms ts headers) :
    ∀ t ∈ headers, t.Is word ∨ t.Is .elifWord := by
  induction h with
  | nil => exact nofun
  | cons ht hcond hc hn hbody rest ih =>
    exact List.forall_mem_cons.mpr ⟨.inl ht, fun u hu => .inr ((ih u hu).elim id id)⟩

/-- The headers of a choice are written on lines of the source. -/
theorem Headed.standsIn {source : List Char} {tokens : List Token}
    (h : Headed .ifWord arms ts headers) (htokens : tokenize source = .ok tokens)
    (hts : ts ⊆ tokens) : ∀ t ∈ headers, t.StandsIn source := by
  intro t ht
  refine (stands_of_tokenize htokens t (hts (h.subset ht))).resolve_left fun hlayout => ?_
  have hword : t.Is .ifWord ∨ t.Is .elifWord := h.is t ht
  rcases hlayout with hk | hk | hk <;> rcases hword with hw | hw <;>
    rw [Token.Is, hk] at hw <;> cases hw

theorem headed_of_elifs (h : Derives (.elifs arms) ts) :
    ∃ headers, Headed .elifWord arms ts headers := by
  generalize hφ : Phrase.elifs arms = φ at h
  induction h generalizing arms with
  | elifNil =>
    cases hφ
    exact ⟨[], .nil⟩
  | elifCons ht hcond hc hn hbody harms _ _ ih =>
    cases hφ
    obtain ⟨headers, hheaders⟩ := ih rfl
    exact ⟨_, .cons ht hcond hc hn hbody hheaders⟩
  | _ => cases hφ

/-- The statement has the line of its first header. -/
theorem headed_of_choose {line : Nat} {last : Option (List Stmt)}
    (h : Derives (.stmt (.choose line arms last)) ts) :
    ∃ us vs headers, ts = us ++ vs ∧ Headed .ifWord arms us headers ∧
      headers.head?.map Token.line = some line := by
  cases h with
  | simpleLine h => cases h
  | choose ht hcond hc hn hbody harms hlast =>
    obtain ⟨headers, hheaders⟩ := headed_of_elifs harms
    exact ⟨_, _, _, rfl, .cons ht hcond hc hn hbody hheaders, rfl⟩

end Headed

theorem Derives.newline_of_stmt {s : Stmt} {ts : List Token} (h : Derives (.stmt s) ts) :
    ∃ n ∈ ts, n.Is .newline := by
  cases h with
  | simpleLine h hn => exact ⟨_, List.mem_append_right _ (List.mem_singleton.mpr rfl), hn⟩
  | choose ht hcond hc hn => exact ⟨_, by simp, hn⟩

theorem Derives.newline_of_block {body : List Stmt} {ts : List Token}
    (h : Derives (.block body) ts) : ∃ n ∈ ts, n.Is .newline := by
  cases h with
  | block hi h more =>
    cases h with
    | stmtsNil => exact absurd rfl more
    | stmtsCons h =>
      obtain ⟨n, hmem, hn⟩ := h.newline_of_stmt
      exact ⟨n, by simp [hmem], hn⟩

/-- Between two headers there is a line at least. -/
theorem Headed.pairwise {word : Terminal} {arms : List (Expr × List Stmt)}
    {ts headers : List Token} (h : Headed word arms ts headers) (hts : ts.Pairwise Token.Before) :
    headers.Pairwise fun t u => t.line + 2 ≤ u.line := by
  induction h with
  | nil => exact .nil
  | @cons word t c n condition body arms ts us vs headers ht hcond hc hn hbody rest ih =>
    obtain ⟨hfront, hrest, hcross⟩ := List.pairwise_append.mp hts
    refine List.pairwise_cons.mpr ⟨fun u hu => ?_, ih hrest⟩
    obtain ⟨m, hm, hnewline⟩ := hbody.newline_of_block
    have hkind : u.kind ≠ .dedent := by
      have hu := (rest.is u hu).elim id id
      intro hk
      rw [Token.Is, hk] at hu
      cases hu
    have hn' : n.kind = .newline := hn.kind
    have hm' : m.kind = .newline := hnewline.kind
    obtain ⟨-, hbody', hhead⟩ := List.pairwise_append.mp hfront
    have htn : t.line ≤ n.line := (hhead t (by simp) n (by simp)).1
    have hnm : n.line < m.line := by
      have hbehind := (List.pairwise_cons.mp (List.pairwise_cons.mp hbody').2).1 m hm
      exact hbehind.2 hn' (by rw [hm']; simp)
    have hmu : m.line < u.line := (hcross m (by simp [hm]) u (rest.subset hu)).2 hm' hkind
    omega

theorem Headed.line_add_two_le {word : Terminal} {arms : List (Expr × List Stmt)}
    {ts headers : List Token} {t u : Token} {i j : Nat} (h : Headed word arms ts headers)
    (hts : ts.Pairwise Token.Before) (hij : i < j) (ht : headers[i]? = some t)
    (hu : headers[j]? = some u) : t.line + 2 ≤ u.line := by
  obtain ⟨hi, rfl⟩ := List.getElem?_eq_some_iff.mp ht
  obtain ⟨hj, rfl⟩ := List.getElem?_eq_some_iff.mp hu
  exact List.pairwise_iff_getElem.mp (h.pairwise hts) i j hi hj hij

end Scribe.Script
