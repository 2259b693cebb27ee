import Scribe.Proofs.Script.DraftReading

/-!
# What stands behind `from AI:`

The rest of a line behind `from AI:` is no code: it becomes an instruction or a prompt as it is
written, less a comment and the blanks around it. So it is kept exactly if it has neither, whatever
signs, keywords or quotes it has that open and do not close.
-/
namespace Scribe.Script
open Text

/-- Nothing is lost exactly if there is nothing to lose. -/
theorem Draft.tailOf_eq_self_iff (t : List Char) :
    tailOf t = t ↔ trim t = t ∧ stripComment t = t := by
  constructor
  · intro h
    obtain ⟨comment, hcomment, -⟩ := stripCommentFrom_rest false t
    have htrim := (trim_isInfix (stripComment t)).length_le
    rw [show trim (stripComment t) = t from h] at htrim
    have hstrip : stripComment t = t :=
      List.IsPrefix.eq_of_length_le ⟨comment, hcomment.symm⟩ htrim
    rw [tailOf, hstrip] at h
    exact ⟨h, hstrip⟩
  · rintro ⟨htrim, hstrip⟩
    rw [tailOf, hstrip, htrim]

/-- A text of one line behind `from AI:` is an instruction or a prompt without its comment and the
blanks around it; a prompt loses double quotes around it as well. An instruction is the text itself
exactly if the text has no comment and no blanks around it, and then so is a prompt that does not
stand in double quotes. -/
theorem tail_verbatim (x : Draft.Name) {t : List Char} (ht : OneLine t) :
    let instruction := parse ("macro from AI: ".toList ++ t)
    let question := parse ("set ".toList ++ (x.text ++ (" from AI: ".toList ++ t)))
    let kept := trim (stripComment t)
    instruction = .ok [.expand 1 (String.ofList kept)] ∧
      question = .ok [.ask 1 (String.ofList x.text) (String.ofList (unwrapPrompt kept))] ∧
      (instruction = .ok [.expand 1 (String.ofList t)] ↔ trim t = t ∧ stripComment t = t) ∧
      (trim t = t → stripComment t = t → (¬∃ body, t = '"' :: body ++ ['"']) →
        question = .ok [.ask 1 (String.ofList x.text) (String.ofList t)]) := by
  intro instruction question kept
  have hinstruction : instruction = .ok [.expand 1 (String.ofList kept)] :=
    parse_of_codeLine (Draft.codeLine_macro ht)
  have hquestion : question =
      .ok [.ask 1 (String.ofList x.text) (String.ofList (unwrapPrompt kept))] :=
    parse_of_codeLine (Draft.codeLine_prompt x ht)
  refine ⟨hinstruction, hquestion, ?_, fun htrim hstrip hbare => ?_⟩
  · rw [hinstruction, ← Draft.tailOf_eq_self_iff]
    simp only [Except.ok.injEq, List.cons.injEq, Stmt.expand.injEq, true_and, and_true,
      String.ofList_inj]
    rfl
  · have hkept : kept = t := (Draft.tailOf_eq_self_iff t).mpr ⟨htrim, hstrip⟩
    rw [hquestion, hkept, Draft.unwrapPrompt_bare ⟨⟨t, ht, htrim, hstrip⟩, hbare⟩]

/-- A text with a cross in quotes that do not close, a colon, a keyword and signs of no use. -/
theorem tail_verbatim_unclosed :
    let t := "if x: say \"50 # @ )".toList
    let x : Draft.Name := ⟨'x', [], by decide, by decide, by decide⟩
    OneLine t ∧ parse ("macro from AI: ".toList ++ t) = .ok [.expand 1 (String.ofList t)] ∧
      parse ("set ".toList ++ (x.text ++ (" from AI: ".toList ++ t))) =
        .ok [.ask 1 "x" (String.ofList t)] := by
  intro t x
  have ht : OneLine t := by decide
  obtain ⟨-, -, hinstruction, hquestion⟩ := tail_verbatim x ht
  have hbare : ¬∃ body, t = '"' :: body ++ ['"'] := by
    rintro ⟨body, hbody⟩
    cases congrArg List.head? hbody
  exact ⟨ht, hinstruction.mpr (by decide), hquestion (by decide) (by decide) hbare⟩

end Scribe.Script
