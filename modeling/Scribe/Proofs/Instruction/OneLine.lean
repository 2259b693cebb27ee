import Scribe.Instruction.Template
import Scribe.Proofs.Instruction.Terms
import Scribe.Proofs.Pattern.Matches
import Scribe.Proofs.Text.OneLine

/-!
# Pieces of an instruction stay on one line

Whatever is cut out of an instruction of one line, or rewritten from it into an expression, has no
line end; a string literal has none in any case.
-/
namespace Scribe
open Text Pattern

theorem Script.oneLine_quote (cs : List Char) : OneLine (Script.quote cs) := by
  have hescape (c : Char) : OneLine (Script.escape c) := by
    unfold Script.escape
    split
    · decide
    · split
      · decide
      · split
        · decide
        · rename_i hc
          split
          · decide
          · simpa using hc
  have hbody : OneLine (cs.flatMap Script.escape) := by
    intro x hx
    obtain ⟨c, -, hc⟩ := List.mem_flatMap.mp hx
    exact hescape c x hc
  simpa [Script.quote] using hbody

variable {cs : List Char} {m : Match}

theorem Text.OneLine.group (h : OneLine cs) (hm : m.In cs) (n : Nat) : OneLine (m.group n) :=
  h.of_isInfix (hm.group_isInfix n)

theorem Text.OneLine.replace (h : OneLine cs) (p : Pattern) (new : String)
    (hnew : OneLine new.toList) : OneLine (p.replace new cs) :=
  forall_replace hnew h

theorem Text.OneLine.replaceAll (h : OneLine cs) (ops : List (Pattern × String))
    (hops : ∀ op ∈ ops, OneLine op.2.toList) :
    OneLine (ops.foldl (fun e (phrase, sign) => phrase.replace sign e) cs) := by
  induction ops generalizing cs with
  | nil => exact h
  | cons op ops ih =>
    exact ih (h.replace op.1 op.2 (hops op (by simp))) fun x hx => hops x (by simp [hx])

namespace Instruction

theorem inner_isInfix (cs : List Char) : inner cs <:+: cs :=
  (List.dropLast_prefix _).isInfix.trans (List.tail_suffix _).isInfix

theorem peel_isInfix (n : Nat) (cs : List Char) : peel n cs <:+: cs := by
  induction n generalizing cs with
  | zero => exact List.infix_refl cs
  | succ n ih =>
    unfold peel
    split
    · exact (ih _).trans ((trim_isInfix _).trans (inner_isInfix cs))
    · exact List.infix_refl cs

theorem unwrap_isInfix (cs : List Char) : unwrap cs <:+: cs :=
  (peel_isInfix _ _).trans (trim_isInfix cs)

theorem payload_isInfix (cs : List Char) : payload cs <:+: cs :=
  (trim_isInfix _).trans ((trimWhile_isInfix _ _).trans (unwrap_isInfix cs))

theorem quotedBody_isInfix (hm : m.In cs) : quotedBody m <:+: cs := by
  unfold quotedBody
  cases hg : m.group? 1 with
  | none => exact hm.group_isInfix 2
  | some g => exact hm.group?_isInfix hg

theorem firstQuoted?_isInfix {text : List Char} (h : firstQuoted? cs = some text) : text <:+: cs := by
  obtain ⟨m, hm, rfl⟩ := Option.map_eq_some_iff.mp h
  exact quotedBody_isInfix (search_in hm)

theorem oneLine_requote (h : OneLine cs) : OneLine (requote cs) :=
  forall_replaceWith (fun _ _ => Script.oneLine_quote _) h

theorem oneLine_literalSide (h : OneLine cs) (hm : m.In cs) : OneLine (literalSide m) := by
  have hside : OneLine (if isLiteralWord (m.group 2) then lower (m.group 2)
      else Script.quote (m.group 2)) := by
    split
    · exact (h.group hm 2).lower
    · exact Script.oneLine_quote _
  simp only [literalSide, oneLine_append, oneLine_cons]
  exact ⟨h.group hm 1, by decide, hside⟩

theorem oneLine_condition (h : OneLine cs) : OneLine (condition cs) := by
  have hstripped := ((h.trim).dropEndWhile fun c => c == ',' || c == ':').trim
  have hphrases := hstripped.replaceAll comparisonPhrases (by decide)
  have hequals := hphrases.replace lonelyEquals "==" (by decide)
  have hsides : OneLine (comparedWords.replaceWith literalSide _) :=
    forall_replaceWith (fun _ hm => oneLine_literalSide hequals hm) hequals
  exact (hsides.replace blanks1 " " (by decide)).trim

theorem cutAtLower_isInfix (marker : String) (cs : List Char) : cutAtLower marker cs <:+: cs := by
  unfold cutAtLower
  split
  · exact (trim_isInfix _).trans (List.take_prefix _ _).isInfix
  · exact List.infix_refl cs

theorem trimmed_dropEnd_isInfix (p : Char → Bool) (cs : List Char) :
    trim (dropEndWhile p cs) <:+: cs :=
  (trim_isInfix _).trans (dropEndWhile_isPrefix p cs).isInfix

theorem cleanOperand_isInfix (cs : List Char) : cleanOperand cs <:+: cs := by
  have hfirst : trim (dropEndWhile (· == ',') (trim cs)) <:+: cs :=
    (trimmed_dropEnd_isInfix _ _).trans (trim_isInfix cs)
  refine (trimmed_dropEnd_isInfix _ _).trans ((cutAtLower_isInfix _ _).trans ?_)
  split
  · rename_i m hm
    exact (trim_isInfix _).trans ((search_in hm).before_isInfix.trans hfirst)
  · exact hfirst

theorem oneLine_singleValue (h : OneLine cs) : OneLine (singleValue cs) := by
  have hvalue : OneLine (unwrap (payload cs)) :=
    h.of_isInfix ((unwrap_isInfix _).trans (payload_isInfix cs))
  simp only [singleValue]
  split
  · decide
  · split
    · exact hvalue
    · split
      · exact hvalue.lower
      · split
        · exact hvalue
        · exact Script.oneLine_quote _

theorem oneLine_powerProduct (h : OneLine cs) (exponent : Nat) :
    OneLine (powerProduct cs exponent) := by
  unfold powerProduct
  split
  · decide
  · exact oneLine_requote h
  · refine OneLine.join (by decide) fun piece hpiece => ?_
    rw [List.eq_of_mem_replicate hpiece]
    simpa using oneLine_requote h

theorem oneLine_arithmeticSigns (h : OneLine cs) : OneLine (arithmeticSigns cs) := by
  unfold arithmeticSigns
  split
  · exact h
  · exact h.replaceAll arithmeticWords (by decide)

theorem oneLine_operandExpr (h : OneLine cs) : OneLine (operandExpr cs) := by
  have hclean : OneLine (cleanOperand cs) := h.of_isInfix (cleanOperand_isInfix cs)
  unfold operandExpr
  simp only
  split
  · rename_i m hm
    exact oneLine_powerProduct (hclean.group (matchStart_in hm) 1).trim _
  · have hsigns := oneLine_arithmeticSigns hclean
    split
    · exact oneLine_requote hsigns
    · exact oneLine_singleValue hsigns

theorem oneLine_growFirst {c : Char} {pieces : List (List Char)} (hc : c ≠ '\n')
    (h : ∀ piece ∈ pieces, OneLine piece) : ∀ piece ∈ growFirst c pieces, OneLine piece := by
  cases pieces with
  | nil => simpa [growFirst] using hc
  | cons first rest =>
    rw [List.forall_mem_cons] at h
    exact List.forall_mem_cons.mpr ⟨oneLine_cons.mpr ⟨hc, h.1⟩, h.2⟩

theorem oneLine_piecesFrom (mark : Option Char) (h : OneLine cs) :
    ∀ piece ∈ piecesFrom mark cs, OneLine piece := by
  induction cs generalizing mark with
  | nil => simp [piecesFrom]
  | cons c r ih =>
    rw [oneLine_cons] at h
    rw [piecesFrom_cons]
    split
    · exact List.forall_mem_cons.mpr ⟨oneLine_nil, ih none h.2⟩
    · exact oneLine_growFirst h.1 (ih _ h.2)

theorem oneLine_splitTerms (h : OneLine cs) : ∀ term ∈ splitTerms cs, OneLine term := by
  intro term hterm
  obtain ⟨piece, hpiece, rfl⟩ := List.mem_map.mp (List.mem_filter.mp hterm).1
  exact (oneLine_piecesFrom none h piece hpiece).trim

theorem oneLine_termExpr (h : OneLine cs) : OneLine (termExpr cs) := by
  unfold termExpr
  simp only
  split
  · exact Script.oneLine_quote _
  · split
    · exact h.trim
    · exact Script.oneLine_quote _

theorem oneLine_concatExpr {terms : List (List Char)} (h : ∀ term ∈ terms, OneLine term) :
    OneLine (concatExpr terms) := by
  have hrendered : ∀ piece ∈ terms.map termExpr, OneLine piece := by
    intro piece hpiece
    obtain ⟨term, hterm, rfl⟩ := List.mem_map.mp hpiece
    exact oneLine_termExpr (h term hterm)
  apply OneLine.join (by decide)
  split
  · rename_i label value
    split
    · rename_i first hfirst
      have hquote : OneLine first := by
        simp only [spacedLabel?] at hfirst
        split at hfirst
        · split at hfirst
          · cases hfirst
            exact Script.oneLine_quote _
          · cases hfirst
        · cases hfirst
      have hvalue := oneLine_termExpr (h value (by simp))
      simpa using ⟨hquote, hvalue⟩
    · exact hrendered
  · exact hrendered

/-- The steps in which clauses are cut each leave a part of what they are given. -/
theorem assignedSource_parts (cs : List Char) : ∃ front kept, front <:+: cs ∧
    kept <:+: cleanOperand front ∧ assignedSource cs = if kept.isEmpty then ['0'] else kept := by
  cases hm : printClause.search cs with
  | none =>
    refine ⟨cs, _, List.infix_rfl, ?_, by simp only [assignedSource, hm]; rfl⟩
    split
    · exact (trim_isInfix _).trans (List.take_prefix _ _).isInfix
    · exact List.infix_rfl
  | some m =>
    refine ⟨m.before, _, (search_in hm).before_isInfix, ?_, by simp only [assignedSource, hm]; rfl⟩
    split
    · exact (trim_isInfix _).trans (List.take_prefix _ _).isInfix
    · exact List.infix_rfl

theorem oneLine_assignedSource (h : OneLine cs) : OneLine (assignedSource cs) := by
  obtain ⟨front, kept, hfront, hkept, hsource⟩ := assignedSource_parts cs
  rw [hsource]
  exact OneLine.ite (by decide)
    (h.of_isInfix (hkept.trans ((cleanOperand_isInfix front).trans hfront)))

theorem oneLine_aroundVariable {pre name post : List Char} (hname : OneLine name) :
    OneLine (aroundVariable pre name post) := by
  apply OneLine.join (by decide)
  intro piece hpiece
  simp only [List.mem_append] at hpiece
  rcases hpiece with (hpiece | hpiece) | hpiece
  · split at hpiece
    · cases hpiece
    · rw [List.mem_singleton.mp hpiece]
      exact Script.oneLine_quote _
  · rw [List.mem_singleton.mp hpiece]
    exact hname
  · split at hpiece
    · cases hpiece
    · rw [List.mem_singleton.mp hpiece]
      exact Script.oneLine_quote _

theorem oneLine_printTail? {name tail : List Char} (h : OneLine cs) (hname : OneLine name)
    (ht : printTail? cs name = some tail) : OneLine tail := by
  simp only [printTail?] at ht
  split at ht
  · cases ht
  · rename_i m hm
    have hin := findAll_in m (List.mem_of_getLast? hm)
    have hraw : OneLine (trim (dropEndWhile (fun c => c == '.' || c == '!') (trim m.after))) :=
      ((h.of_isInfix hin.after_isInfix).trim.dropEndWhile _).trim
    split at ht
    · cases ht
    · split at ht
      · rw [← Option.some.inj ht]
        exact oneLine_concatExpr (oneLine_splitTerms hraw)
      · split at ht
        · rw [← Option.some.inj ht]
          exact oneLine_aroundVariable hname
        · rw [← Option.some.inj ht]
          exact oneLine_operandExpr hraw

end Instruction
end Scribe
