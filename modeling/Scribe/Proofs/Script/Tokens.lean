import Scribe.Proofs.Outcome
import Scribe.Proofs.Text.Trim
import Scribe.Script.Lexer

/-!
# Where tokens come from

Every token of a script is a mark of its layout, or it stands in the code of one of its lines: as a
lexeme, or as the text after `from AI:`.
-/
namespace Scribe.Script
open Text

def Kind.ofWord : Kind → Bool
  | .keyword _ | .bool _ | .null | .identifier => true
  | _ => false

def Kind.ofSign : Kind → Bool
  | .arith _ | .compare _ | .assign => true
  | _ => false

theorem wordKind_ofWord (word : List Char) : (wordKind word).ofWord = true := by
  unfold wordKind reserved?
  split <;> rfl

theorem operator?_ofSign {cs : List Char} {x : Lexeme} (h : operator? cs = some x) :
    x.kind.ofSign = true := by
  unfold operator? at h
  split at h <;> cases h <;> rfl

theorem takeNumber_isPrefix (cs : List Char) : takeNumber cs <+: cs := by
  have hcs : cs.takeWhile isDigit ++ cs.dropWhile isDigit = cs := List.takeWhile_append_dropWhile
  unfold takeNumber
  dsimp only
  split
  · rename_i r hdrop
    split
    · exact List.takeWhile_prefix _
    · obtain ⟨z, hz⟩ : r.takeWhile isDigit <+: r := List.takeWhile_prefix _
      refine ⟨z, ?_⟩
      rw [List.append_assoc, List.cons_append, hz, ← hdrop]
      exact hcs
  · exact List.takeWhile_prefix _

theorem operator?_text {cs : List Char} {x : Lexeme} (h : operator? cs = some x) :
    x.text <+: cs ∧ x.width = x.text.length ∧ x.text ≠ [] ∧ ∀ d ∈ x.text, d ≠ '"' ∧ d ≠ ':' := by
  unfold operator? at h
  split at h
  all_goals cases h
  all_goals exact ⟨⟨_, rfl⟩, rfl, by simp, by decide⟩

inductive LexemeAt (c : Char) (r : List Char) : Lexeme → Prop
  | string {cs n} (hc : c = '"') (h : readString r = .ok (cs, n)) :
      LexemeAt c r ⟨.string, cs, n + 1⟩
  | mark {kind} (h : (c, kind) ∈ [(':', Kind.colon), ('(', .openParen), (')', .closeParen)]) :
      LexemeAt c r ⟨kind, [c], 1⟩
  | number (hd : isDigit c = true) :
      LexemeAt c r ⟨.number, takeNumber (c :: r), (takeNumber (c :: r)).length⟩
  | word {w} (hd : isDigit c = false) (hc : isWordChar c = true)
      (hw : w = (c :: r).takeWhile isWordChar) : LexemeAt c r ⟨wordKind w, w, w.length⟩
  | sign {x} (h : operator? (c :: r) = some x) : LexemeAt c r x

theorem lexemeAt_inv {c : Char} {r : List Char} {x : Lexeme} (h : lexemeAt c r = .ok x) :
    LexemeAt c r x := by
  unfold lexemeAt at h
  split at h
  · rename_i hc
    obtain ⟨⟨cs, n⟩, hread, rfl⟩ := Outcome.map_eq_ok.mp h
    exact .string (beq_iff_eq.mp hc) hread
  · split at h
    · rename_i hc
      cases h
      rw [← beq_iff_eq.mp hc]
      exact .mark (by simp [beq_iff_eq.mp hc])
    · split at h
      · rename_i hc
        cases h
        rw [← beq_iff_eq.mp hc]
        exact .mark (by simp [beq_iff_eq.mp hc])
      · split at h
        · rename_i hc
          cases h
          rw [← beq_iff_eq.mp hc]
          exact .mark (by simp [beq_iff_eq.mp hc])
        · split at h
          · rename_i hd
            cases h
            exact .number hd
          · split at h
            · rename_i hd hc
              cases h
              exact .word (by simpa using hd) hc rfl
            · split at h
              · rename_i hop
                cases h
                exact .sign hop
              · cases h

/-- What a lexeme can be. -/
theorem lexemeAt_cases {c : Char} {r : List Char} {x : Lexeme} (h : lexemeAt c r = .ok x) :
    x.kind ∈ [.string, .colon, .openParen, .closeParen] ∨
      isDigit c = true ∧ x.kind = .number ∧ x.text = takeNumber (c :: r) ∨
      x.kind.ofWord = true ∨ x.kind.ofSign = true := by
  cases lexemeAt_inv h with
  | string => simp
  | mark hmark =>
    simp only [List.mem_cons, Prod.mk.injEq, List.not_mem_nil, or_false] at hmark
    rcases hmark with ⟨-, rfl⟩ | ⟨-, rfl⟩ | ⟨-, rfl⟩ <;> simp
  | number hd => exact .inr (.inl ⟨hd, rfl, rfl⟩)
  | word => exact .inr (.inr (.inl (wordKind_ofWord _)))
  | sign hop => exact .inr (.inr (.inr (operator?_ofSign hop)))

inductive Token.InCode (code : List Char) (t : Token) : Prop
  | lexeme {c r x} (hs : c :: r <:+ code) (hx : lexemeAt c r = .ok x) (hk : t.kind = x.kind)
      (ht : t.lexeme = String.ofList x.text)
  | raw {r} (hs : r <:+ code) (hk : t.kind = .raw) (ht : t.lexeme = String.ofList (trim r))

theorem Token.InCode.of_suffix {code code' : List Char} {t : Token} (h : t.InCode code)
    (hs : code <:+ code') : t.InCode code' := by
  cases h with
  | lexeme hcs hx hk ht => exact .lexeme (hcs.trans hs) hx hk ht
  | raw hr hk ht => exact .raw (hr.trans hs) hk ht

theorem inCode_of_lexFrom {line : Nat} {recent : List Kind} {column skip : Nat} {cs : List Char}
    {ts : List Token} (h : lexFrom line recent column skip cs = .ok ts) :
    ∀ t ∈ ts, t.InCode cs := by
  fun_induction lexFrom line recent column skip cs generalizing ts with
  | case1 => cases h; simp
  | case2 recent column skip c r ih =>
    exact fun t ht => (ih h t ht).of_suffix (List.suffix_cons c r)
  | case3 recent column c r hc ih =>
    exact fun t ht => (ih h t ht).of_suffix (List.suffix_cons c r)
  | case4 => cases h
  | case5 recent column c r hc x hx token =>
    cases h
    intro t ht
    rcases List.mem_cons.mp ht with rfl | ht
    · exact .lexeme (List.suffix_refl _) hx rfl rfl
    · rw [List.mem_singleton.mp ht]
      exact .raw (List.suffix_cons c r) rfl rfl
  | case6 recent column c r hc x hx token hraw =>
    rename_i ih
    obtain ⟨us, hus, rfl⟩ := Outcome.map_eq_ok.mp h
    intro t ht
    rcases List.mem_cons.mp ht with rfl | ht
    · exact .lexeme (List.suffix_refl _) hx rfl rfl
    · exact (ih hus t ht).of_suffix (List.suffix_cons c r)

def Token.IsLayout (t : Token) : Prop :=
  t.kind = .newline ∨ t.kind = .indent ∨ t.kind = .dedent

instance (t : Token) : Decidable t.IsLayout := inferInstanceAs (Decidable (_ ∨ _ ∨ _))

theorem Token.InCode.not_isLayout {code : List Char} {t : Token} (h : t.InCode code) :
    ¬t.IsLayout := by
  rintro hl
  cases h with
  | lexeme _ hx hk _ =>
    rw [IsLayout, hk] at hl
    rcases lexemeAt_cases hx with hkind | ⟨-, hkind, -⟩ | hkind | hkind
    · rcases hl with hl | hl | hl <;> simp [hl] at hkind
    all_goals rcases hl with hl | hl | hl <;> rw [hl] at hkind <;> cases hkind
  | raw _ hk _ =>
    rw [IsLayout, hk] at hl
    rcases hl with hl | hl | hl <;> cases hl

/-- What a line that has code consists of. -/
theorem lexLine_eq_ok {line : Nat} {levels levels' : List Nat} {code : List Char}
    {ts : List Token} (h : lexLine line levels code = .ok (ts, levels')) :
    ∃ marks us, blockMarks line levels (code.takeWhile fun c => c == ' ' || c == '\t').length =
        .ok (marks, levels') ∧
      lexFrom line [] ((code.takeWhile fun c => c == ' ' || c == '\t').length + 1) 0
        (code.drop (code.takeWhile fun c => c == ' ' || c == '\t').length) = .ok us ∧
      ts = marks ++ us ++ [⟨.newline, "", line, code.length + 1⟩] := by
  simp only [lexLine] at h
  split at h
  · cases h
  · obtain ⟨⟨marks, after⟩, hmarks, h⟩ := Outcome.bind_eq_ok.mp h
    obtain ⟨us, hus, h⟩ := Outcome.bind_eq_ok.mp h
    cases h
    exact ⟨marks, us, hmarks, hus, rfl⟩

theorem kind_of_blockMarks {line indent : Nat} {levels levels' : List Nat}
    {marks : List Token} (h : blockMarks line levels indent = .ok (marks, levels')) :
    ∀ t ∈ marks, t.kind = .indent ∨ t.kind = .dedent := by
  simp only [blockMarks] at h
  split at h
  · cases h
    intro t ht
    rw [List.mem_singleton.mp ht]
    exact .inl rfl
  · split at h
    · cases h
      intro t ht
      rw [List.eq_of_mem_replicate ht]
      exact .inr rfl
    · cases h

theorem isLayout_of_blockMarks {line indent : Nat} {levels levels' : List Nat}
    {marks : List Token} (h : blockMarks line levels indent = .ok (marks, levels')) :
    ∀ t ∈ marks, t.IsLayout :=
  fun t ht => .inr (kind_of_blockMarks h t ht)

theorem tokens_of_lexLine {line : Nat} {levels levels' : List Nat} {code : List Char}
    {ts : List Token} (h : lexLine line levels code = .ok (ts, levels')) :
    ∀ t ∈ ts, t.IsLayout ∨ t.InCode code := by
  obtain ⟨marks, us, hmarks, hus, rfl⟩ := lexLine_eq_ok h
  intro t ht
  rcases List.mem_append.mp ht with ht | ht
  · rcases List.mem_append.mp ht with ht | ht
    · exact .inl (isLayout_of_blockMarks hmarks t ht)
    · exact .inr ((inCode_of_lexFrom hus t ht).of_suffix (List.drop_suffix _ _))
  · rw [List.mem_singleton.mp ht]
    exact .inl (.inl rfl)

theorem tokens_of_lexLines {line : Nat} {levels : List Nat} {texts : List (List Char)}
    {ts : List Token} (h : lexLines line levels texts = .ok ts) :
    ∀ t ∈ ts, t.IsLayout ∨ ∃ text ∈ texts, t.InCode (codeOf text) := by
  induction texts generalizing line levels ts with
  | nil =>
    cases h
    intro t ht
    rw [List.eq_of_mem_replicate ht]
    exact .inl (.inr (.inr rfl))
  | cons text rest ih =>
    simp only [lexLines] at h
    split at h
    · intro t ht
      exact (ih h t ht).imp_right fun ⟨u, hu, hc⟩ => ⟨u, by simp [hu], hc⟩
    · split at h
      · cases h
      · rename_i us levels' hline
        obtain ⟨vs, hvs, rfl⟩ := Outcome.map_eq_ok.mp h
        intro t ht
        rcases List.mem_append.mp ht with ht | ht
        · exact (tokens_of_lexLine hline t ht).imp_right fun hc => ⟨text, by simp, hc⟩
        · exact (ih hvs t ht).imp_right fun ⟨u, hu, hc⟩ => ⟨u, by simp [hu], hc⟩

/-- Every token of a script is a mark of its layout or stands in one of its lines. -/
theorem tokens_of_tokenize {source : List Char} {ts : List Token}
    (h : tokenize source = .ok ts) :
    ∀ t ∈ ts, t.IsLayout ∨ ∃ text ∈ lines source, t.InCode (codeOf text) :=
  tokens_of_lexLines h

end Scribe.Script
