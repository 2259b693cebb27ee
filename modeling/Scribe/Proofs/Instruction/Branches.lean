import Scribe.Proofs.Instruction.Clauses
import Scribe.Proofs.Instruction.Totality

/-!
# Sentences that start with `if` are branches

The last correction of an intent looks at the word `if` alone, so a sentence that starts with it is
a branch whatever the classifier of intents says. It is expanded unless its count cannot be looked
up, and its script is the one of its arms.
-/
namespace Scribe.Instruction
open Text Pattern

variable {cs : List Char} {asked : Option Nat}

theorem refineForm_if (intent : Intent) {low : List Char} (h : "if ".toList.isPrefixOf low = true)
    (cs : List Char) (loopish : Bool) : refineForm intent low cs loopish = .branch := by
  unfold refineForm
  rw [h, Bool.true_or, Bool.true_or]
  rfl

theorem refineIntent_if (hcount : loopCount cs = .ok asked)
    (hif : "if ".toList.isPrefixOf (lower (trim cs)) = true) (intent : Intent) :
    refineIntent intent cs = .ok .branch := by
  obtain ⟨refined, hrefined⟩ := refineIntent_ok hcount intent
  have hbranch : refined = .branch := by
    unfold refineIntent at hrefined
    split at hrefined
    · cases hrefined
    · obtain ⟨looped, -, rfl⟩ := Outcome.map_eq_ok.mp hrefined
      exact refineForm_if _ hif cs _
  rw [hrefined, hbranch]

theorem resolveIntent_if (hcount : loopCount cs = .ok asked)
    (hif : "if ".toList.isPrefixOf (lower (trim cs)) = true) (label : Option String)
    (score threshold : Float) : resolveIntent label score cs threshold = .ok .branch := by
  obtain ⟨inferred, hinfer⟩ := inferIntent_ok hcount
  have hfallback : (inferIntent cs).bind (refineIntent · cs) = .ok .branch := by
    rw [hinfer]
    exact refineIntent_if hcount hif inferred
  unfold resolveIntent
  split
  · split
    · exact hfallback
    · exact refineIntent_if hcount hif _
  · exact hfallback

theorem lower_ifSentence (body : List Char) :
    "if ".toList.isPrefixOf (lower (ifSentence body)) = true := rfl

/-- A text without stray letters has no count that cannot be looked up. -/
theorem not_strayCount {t : List Char} (h : ∀ c ∈ t, isStray c = false) : ¬StrayCount t := by
  rintro ⟨-, -, word, hword, hstray⟩
  have hpart : word <:+: t := by
    unfold countedWord? at hword
    split at hword
    · rename_i m hm
      cases hword
      exact (search_in hm).group_isInfix 1
    · obtain ⟨m, hm, rfl⟩ := Option.map_eq_some_iff.mp hword
      exact (search_in hm).group_isInfix 1
  obtain ⟨c, hc, hcs⟩ := List.any_eq_true.mp hstray
  rw [h c (hpart.subset hc)] at hcs
  cases hcs

theorem unwrap_ifSentence (htrim : trim (ifSentence cs) = ifSentence cs) :
    unwrap (ifSentence cs) = ifSentence cs := by
  rw [unwrap, htrim]
  exact peel_of_not_wrapped rfl

/-- A sentence that starts with `if` is expanded into the script of its branches. -/
theorem ofAnswer_if (htrim : trim (ifSentence cs) = ifSentence cs)
    (hcount : ¬StrayCount (ifSentence cs)) {r : Rendering} (hr : renderBranch (ifSentence cs) = r)
    (hscript : (trim r.script).isEmpty = false) (threshold : Float) (answer : Expansion.Answer) :
    ∃ expansion, Expansion.ofAnswer threshold (String.ofList (ifSentence cs)) answer =
        .ok expansion ∧
      expansion.intent = .branch ∧ expansion.script = String.ofList r.script := by
  have hunwrap := unwrap_ifSentence htrim
  rw [← hunwrap, ← loopCount_error_iff, ← Outcome.exists_ok_iff] at hcount
  obtain ⟨asked, hasked⟩ := hcount
  have hintent := resolveIntent_if hasked (by rw [htrim]; exact lower_ifSentence cs) answer.label?
    answer.score threshold
  have hnamed : (trim (ifSentence cs)).isEmpty = false := by rw [htrim]; rfl
  have hrendered : Expansion.scriptFor .branch (ifSentence cs) = .ok r := by
    simp only [Expansion.scriptFor, hnamed, Bool.false_eq_true, if_false, render, hunwrap,
      renderBody, hr, Except.map, hscript]
  simp only [Expansion.ofAnswer, String.toList_ofList, hunwrap, hintent, hrendered, Except.map]
  exact ⟨_, rfl, rfl, rfl⟩

end Scribe.Instruction
