import Mathlib.Data.List.Forall2
import Scribe.Instruction.Concat
import Scribe.Proofs.Instruction.QuotedConditions
import Scribe.Proofs.Script.Powers

/-!
# Concatenations

A term of a concatenation is classified by patterns of its own and read again as an operand of the
language. Each term becomes one operand, whatever stands in it, and the operands are joined from
the left.
-/
namespace Scribe.Script
open Text Instruction

def numberTree? : List Char → Option Expr
  | '-' :: digits => (Decimal.read? digits).map fun x => .neg (.lit (.number x))
  | digits => (Decimal.read? digits).map fun x => .lit (.number x)

/-- The operand that a term stands for: the text between its quotes, a number, a variable, or else
its text without the quotes and the punctuation around it. -/
def termTree? (term : List Char) : Option Expr :=
  let t := trim term
  if isWrapped t then some (.lit (.text (String.ofList (inner t))))
  else if isNumber t then numberTree? t
  else if isVariable t then some (.var (String.ofList t))
  else some (.lit (.text (String.ofList (payload t))))

/-- A label between quotes that does not end with a space, before a variable. -/
def TakesSpace (label value : List Char) : Prop :=
  isWrapped (trim label) = true ∧ isVariable (trim value) = true ∧ inner (trim label) ≠ [] ∧
    (inner (trim label)).getLast? ≠ some ' '

instance (label value : List Char) : Decidable (TakesSpace label value) :=
  inferInstanceAs (Decidable (_ ∧ _ ∧ _ ∧ _))

def NoKeyword (term : List Char) : Prop :=
  ∀ word, reserved? (String.ofList (lower (trim term))) ≠ some (.keyword word)

def keywords : List Keyword :=
  [.ai, .set, .fromWord, .neuro, .macroWord, .ifWord, .elifWord, .elseWord, .andWord, .orWord]

theorem mem_keywords (word : Keyword) : word ∈ keywords := by cases word <;> decide

instance (term : List Char) : Decidable (NoKeyword term) :=
  decidable_of_iff (∀ word ∈ keywords, _)
    ⟨fun h word => h word (mem_keywords word), fun h word _ => h word⟩

section Terms
variable {term : List Char}

theorem readsUnary_variable {w : List Char} (htrim : trim w = w) (hw : isVariable w = true)
    (hfree : ∀ word, wordKind w ≠ .keyword word) : ReadsUnary w (.var (String.ofList w)) := by
  rw [isVariable, Bool.and_eq_true, Bool.not_eq_true'] at hw
  obtain ⟨c, r, rfl, hword, hdigit, -⟩ := word_of_isName htrim hw.1
  rcases wordKind_cases (c :: r) with hkind | ⟨hliteral, -⟩ | ⟨-, word, hkind⟩
  · exact readsUnary_term (.var ⟨c, r, hword, hdigit, hkind⟩)
  · rw [hw.2] at hliteral
    cases hliteral
  · exact absurd hkind (hfree word)

theorem NoKeyword.wordKind (h : NoKeyword term) (word : Keyword) :
    wordKind (trim term) ≠ .keyword word := by
  intro hword
  have hkind := h word
  unfold Script.wordKind at hword
  cases hreserved : reserved? (String.ofList (lower (trim term))) with
  | none =>
    rw [hreserved] at hword
    cases hword
  | some kind =>
    rw [hreserved] at hword hkind
    exact hkind (congrArg some hword)

theorem termExpr_variable (h : isVariable (trim term) = true) : termExpr term = trim term := by
  have hname : isName (trim term) = true := by
    rw [isVariable, Bool.and_eq_true] at h
    exact h.1
  obtain ⟨c, r, hcs, hword, -, -⟩ := word_of_isName (trim_trim term) hname
  have hquote : isWrapped (trim term) = false := by
    have hc : isQuote c = false := by
      rw [Bool.eq_false_iff]
      intro hmark
      have hchar := hword c List.mem_cons_self
      rw [isWordChar_of_isQuote hmark] at hchar
      cases hchar
    simp [isWrapped, hcs, hc]
  simp [termExpr, hquote, h]

/-- A number is read with its sign. -/
theorem readsUnary_number {w : List Char} (htrim : trim w = w) (hw : isNumber w = true) :
    ∃ e, numberTree? w = some e ∧ ReadsUnary w e := by
  obtain ⟨n, rfl | rfl⟩ := numeral_of_isNumber htrim hw
  · refine ⟨_, ?_, readsUnary_term (.number n)⟩
    unfold numberTree?
    split
    · rename_i digits hdigits
      have hdigit := n.whole_digits n.first List.mem_cons_self
      rw [(List.cons_eq_cons.mp hdigits).1] at hdigit
      cases hdigit
    · rw [n.read?_text, Option.map_some]
      rfl
  · exact ⟨_, by rw [numberTree?, n.read?_text, Option.map_some], readsUnary_negated n⟩

/-- A term that is no keyword is written as the operand it stands for. -/
theorem readsUnary_termExpr (h : NoKeyword term) :
    ∃ e, termTree? term = some e ∧ ReadsUnary (termExpr term) e := by
  simp only [termTree?, termExpr]
  split
  · exact ⟨_, rfl, readsUnary_quote _⟩
  by_cases hnumber : isNumber (trim term) = true
  · simp only [hnumber, Bool.true_or, if_true]
    exact readsUnary_number (trim_trim term) hnumber
  by_cases hvariable : isVariable (trim term) = true
  · simp only [hnumber, hvariable, Bool.false_eq_true, Bool.or_true, if_true, if_false]
    exact ⟨_, rfl, readsUnary_variable (trim_trim term) hvariable h.wordKind⟩
  · simp only [hnumber, hvariable, Bool.false_eq_true, Bool.or_self, if_false]
    exact ⟨_, rfl, readsUnary_quote _⟩

end Terms

/-- What is joined may be taken for one element. -/
theorem join_cons_cons (s a b : List Char) (rest : List (List Char)) :
    join s (a :: b :: rest) = join s ((a ++ (s ++ b)) :: rest) := by
  cases rest with
  | nil => simp [join]
  | cons c rest => simp only [join, List.intercalate_cons_cons, List.append_assoc]

/-- Operands between plus signs are read as their sum from the left. -/
theorem piece_sum {line : Nat} {w : List Char} {e : Expr} {ws : List (List Char)} {es : List Expr}
    (hw : Piece line w (Derives (.expr .sum e))) (hrest : List.Forall₂ ReadsUnary ws es) :
    Piece line (join " + ".toList (w :: ws))
      (Derives (.expr .sum (es.foldl (Expr.arith .add) e))) := by
  induction hrest generalizing w e with
  | nil =>
    rw [join, List.intercalate_singleton]
    exact hw
  | @cons v x _ _ hv _ ih =>
    rw [join_cons_cons]
    refine ih ?_
    have hmore := Draft.piece_joined (lead_arith .add) (hv line)
    refine (hw.append hmore (Draft.follows_space _)).imp ?_
    rintro ts ⟨us, _, rfl, hus, t, vs, rfl, ht, hvs⟩
    exact .sumMore hus (.inl (Token.is_of_kind ht)) ht (.productOne hvs)

/-- A print of operands is read as the print of their sum. -/
theorem parse_sum {w : List Char} {e : Expr} {ws : List (List Char)} {es : List Expr}
    (hw : ReadsUnary w e) (hrest : List.Forall₂ ReadsUnary ws es) :
    parse (printExpr (join " + ".toList (w :: ws))) =
      .ok [.print 1 (es.foldl (Expr.arith .add) e)] :=
  parse_of_codeLine (Draft.codeLine_printed fun line =>
    (piece_sum ((hw line).imp fun _ h => .sumOne (.productOne h)) hrest).imp
      fun _ => Draft.orTest_of_sum)

theorem readsUnary_terms {terms : List (List Char)} (h : ∀ term ∈ terms, NoKeyword term) :
    ∃ es, terms.mapM termTree? = some es ∧ List.Forall₂ ReadsUnary (terms.map termExpr) es := by
  induction terms with
  | nil => exact ⟨[], rfl, .nil⟩
  | cons term terms ih =>
    obtain ⟨hterm, hterms⟩ := List.forall_mem_cons.mp h
    obtain ⟨e, he, hread⟩ := readsUnary_termExpr hterm
    obtain ⟨es, hes, hreads⟩ := ih hterms
    exact ⟨e :: es, by simp [List.mapM_cons, he, hes], .cons hread hreads⟩

theorem spacedLabel?_of_takesSpace {label value : List Char} (h : TakesSpace label value) :
    spacedLabel? label value = some (quote (inner (trim label) ++ [' '])) := by
  obtain ⟨hwrapped, hvariable, htext, hlast⟩ := h
  have hempty : (inner (trim label)).isEmpty = false := List.isEmpty_eq_false_iff.mpr htext
  simp [spacedLabel?, hwrapped, hvariable, hempty, hlast]

theorem spacedLabel?_eq_none {label value : List Char} (h : ¬TakesSpace label value) :
    spacedLabel? label value = none := by
  simp only [spacedLabel?]
  split
  · rename_i hboth
    rw [Bool.and_eq_true] at hboth
    refine if_neg fun htext => h ⟨hboth.1, hboth.2, ?_⟩
    simpa using htext
  · rfl

theorem concatExpr_spaced {label value : List Char} (h : TakesSpace label value) :
    concatExpr [label, value] =
      join " + ".toList [quote (inner (trim label) ++ [' ']), termExpr value] := by
  simp only [concatExpr, spacedLabel?_of_takesSpace h]

theorem concatExpr_plain {terms : List (List Char)}
    (h : ∀ label value, terms = [label, value] → ¬TakesSpace label value) :
    concatExpr terms = join " + ".toList (terms.map termExpr) := by
  simp only [concatExpr]
  congr 1
  split
  · rename_i label value
    rw [spacedLabel?_eq_none (h label value rfl)]
  · rfl

/-- A print of a concatenation is read as one sum, from the left, with one operand for each term.
Only where a label stands before a variable may it take a space at its end. -/
theorem parse_concatExpr {terms : List (List Char)} (hne : terms ≠ [])
    (h : ∀ term ∈ terms, NoKeyword term) :
    ((∀ label value, terms = [label, value] → ¬TakesSpace label value) →
      ∃ first rest, terms.mapM termTree? = some (first :: rest) ∧
        parse (printExpr (concatExpr terms)) =
          .ok [.print 1 (rest.foldl (Expr.arith .add) first)]) ∧
    ∀ label value, terms = [label, value] → TakesSpace label value →
      parse (printExpr (concatExpr terms)) =
        .ok [.print 1 (.arith .add (.lit (.text (String.ofList (inner (trim label) ++ [' ']))))
          (.var (String.ofList (trim value))))] := by
  constructor
  · intro hplain
    obtain ⟨es, hes, hreads⟩ := readsUnary_terms h
    rw [concatExpr_plain hplain]
    obtain ⟨term, more, rfl⟩ := List.exists_cons_of_ne_nil hne
    rw [List.map_cons] at hreads ⊢
    cases hreads with
    | @cons _ first _ rest hfirst hrest =>
      exact ⟨first, rest, hes, parse_sum hfirst hrest⟩
  · rintro label value rfl hspace
    have hvalue : NoKeyword value := h value (by simp)
    rw [concatExpr_spaced hspace, termExpr_variable hspace.2.1]
    exact parse_sum (readsUnary_quote _)
      (.cons (readsUnary_variable (trim_trim value) hspace.2.1 hvalue.wordKind) .nil)

/-- A label that takes a space. -/
theorem parse_concatExpr_label :
    (∀ term ∈ ["'Total:'".toList, "total".toList], NoKeyword term) ∧
    TakesSpace "'Total:'".toList "total".toList ∧
    parse (printExpr (concatExpr ["'Total:'".toList, "total".toList])) =
      .ok [.print 1 (.arith .add (.lit (.text "Total: ")) (.var "total"))] := by
  have hfree : ∀ term ∈ ["'Total:'".toList, "total".toList], NoKeyword term := by decide
  have hspace : TakesSpace "'Total:'".toList "total".toList := by decide
  exact ⟨hfree, hspace, (parse_concatExpr (List.cons_ne_nil _ _) hfree).2 _ _ rfl hspace⟩

end Scribe.Script
