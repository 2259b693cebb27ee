import Scribe.Proofs.Instruction.Branches
import Scribe.Proofs.Instruction.Loops
import Scribe.Proofs.Instruction.Rendering
import Scribe.Proofs.Run.Fallback
import Scribe.Proofs.Script.Powers

/-!
# Assigning a quoted text

`Set v to 'w'` is an assignment by its words, unless they signal a role or a branch as well. Where
no clause is cut off the quoted text, the script assigns it as a single value, and what else the
text asks for follows on lines of its own.
-/
namespace Scribe.Instruction
open Text Pattern Script

structure Variable extends Draft.Name where
  named : isNameStart (foldCase first) = true

structure Quotation where
  text : List Char
  nonempty : text ≠ []
  oneLine : OneLine text
  unquoted : ∀ c ∈ text, isQuote c = false

def Quotation.quoted (w : Quotation) : List Char := '\'' :: (w.text ++ ['\''])

variable (v : Variable) (w : Quotation)

def setSentence : List Char := "Set ".toList ++ (v.text ++ (" to ".toList ++ w.quoted))

/-! ## The quoted text -/

namespace Quotation

theorem ne (c : Char) (hc : c ∈ w.text) : c ≠ '\'' ∧ c ≠ '"' := by
  have hquote := w.unquoted c hc
  rw [isQuote, Bool.or_eq_false_iff, beq_eq_false_iff_ne, beq_eq_false_iff_ne] at hquote
  exact hquote.symm

theorem getLast?_quoted : w.quoted.getLast? = some '\'' := by
  rw [quoted, ← List.cons_append, List.getLast?_concat]

theorem matchAt_quoted (before : List Char) : quotedText.matchAt before w.quoted =
    some ⟨before.reverse, w.quoted, [], [(1, w.text)]⟩ := by
  have hbody : (group 1 (some1 (noneOf "'")) ++ char '\'').run some
      ⟨some '\'', w.text ++ ['\''], []⟩ = some ⟨some '\'', [], [(1, w.text)]⟩ := by
    refine run_some1 w.nonempty (fun c hc => by simpa using (w.ne c hc).1) rfl ?_
    rw [cover_append]
    rfl
  have hrun : quotedText.run some ⟨before.head?, w.quoted ++ [], []⟩ =
      some ⟨some '\'', [], [(1, w.text)]⟩ := by
    rw [List.append_nil]
    refine run_or_left (p := char '\'' ++ group 1 (some1 (noneOf "'")) ++ char '\'') ?_
    exact (run_one (f := (· == '\'')) rfl).trans hbody
  have hmatch := matchAt_of_run hrun
  rwa [List.append_nil] at hmatch

theorem found_quoted : quotedText.found w.quoted = true := by
  rw [found, search_of_matchStart (w.matchAt_quoted [])]
  rfl

/-- No sign stands outside the quotes. -/
theorem hasOperator_quoted : hasOperator w.quoted = false := by
  have hgone : quotedText.replace "" w.quoted = [] := by
    have h := replaceFrom_matched (f := fun _ => "".toList) (u := w.quoted) (v := [])
      (by rw [List.append_nil]; exact w.matchAt_quoted []) rfl (List.cons_ne_nil _ _)
    rw [List.append_nil] at h
    exact h
  rw [hasOperator, hgone]
  rfl

/-- A power ends with digits. -/
theorem power_quoted : power.matchStart w.quoted = none := by
  rw [Option.eq_none_iff_forall_ne_some]
  intro m hm
  obtain ⟨e, hspan, -⟩ := matchAt_sound hm
  cases hspan with
  | @seq _ _ _ d _ hfront hend =>
    cases hfront with
    | @seq _ _ _ c _ hbase hdigits =>
      obtain ⟨u, hu, -⟩ := hbase.covered (only_true _)
      cases hdigits with
      | @group _ _ _ d hdigits =>
        obtain ⟨ds, hds, -⟩ := hdigits.covered (only_true _)
        obtain ⟨x, xs, rfl, hx⟩ := covers_digits hdigits hds
        have htext : w.quoted = u ++ (x :: xs ++ d.rest) := by
          rw [← hds]
          exact hu
        have hlast := w.getLast?_quoted
        cases hend with
        | atEnd hrest =>
          have hrest : d.rest = [] ∨ d.rest = ['\n'] := hrest
          rcases hrest with hrest | hrest <;> rw [htext, hrest] at hlast
          · rw [List.append_nil, List.getLast?_append,
              List.getLast?_eq_some_getLast (List.cons_ne_nil x xs)] at hlast
            have hdigit := hx _ (List.getLast_mem (List.cons_ne_nil x xs))
            rw [Option.some.inj hlast] at hdigit
            cases hdigit
          · rw [← List.append_assoc, List.getLast?_concat] at hlast
            cases hlast

def Uncut : Prop := assignedSource w.quoted = w.quoted

instance : Decidable w.Uncut := inferInstanceAs (Decidable (_ = _))

variable {w}

theorem trim_quoted : trim w.quoted = w.quoted :=
  trimWhile_eq_self rfl (by rw [getLast?_quoted]; rfl)

theorem cleanOperand_quoted (h : w.Uncut) : cleanOperand w.quoted = w.quoted := by
  obtain ⟨front, kept, hfront, hkept, hsource⟩ := assignedSource_parts w.quoted
  rw [h] at hsource
  split at hsource
  · cases hsource
  · have hclean := cleanOperand_isInfix front
    rw [← hsource] at hkept
    have hlength := Nat.le_trans hkept.length_le hclean.length_le
    rw [hfront.eq_of_length (Nat.le_antisymm hfront.length_le hlength)] at hkept hclean
    exact (hkept.eq_of_length (Nat.le_antisymm hkept.length_le hclean.length_le)).symm

theorem operandExpr_quoted (h : w.Uncut) :
    operandExpr (assignedSource w.quoted) = singleValue w.quoted := by
  rw [h]
  simp only [operandExpr, cleanOperand_quoted h, power_quoted, arithmeticSigns, found_quoted,
    hasOperator_quoted, if_true, Bool.false_eq_true, if_false]

/-! ### The value of the quoted text -/

theorem isWrapped_of_unquoted {cs : List Char} (h : ∀ c ∈ cs, isQuote c = false) :
    isWrapped cs = false := by
  have hhead : cs.head?.any isQuote = false := by
    cases hcs : cs.head? with
    | none => rfl
    | some c => exact h c (List.mem_of_head? hcs)
  rw [isWrapped, hhead, Bool.and_false, Bool.false_and]

theorem unwrap_unquoted {cs : List Char} (h : ∀ c ∈ cs, isQuote c = false) :
    unwrap cs = trim cs :=
  peel_of_not_wrapped (isWrapped_of_unquoted fun c hc => h c ((trim_isInfix cs).subset hc))

theorem unwrap_quoted : unwrap w.quoted = trim w.text := by
  have hwrapped : isWrapped w.quoted = true := by
    rw [isWrapped, getLast?_quoted]
    simp [quoted, isQuote]
  have hinner : inner w.quoted = w.text := List.dropLast_concat
  have hlength : w.quoted.length = w.text.length + 1 + 1 := by simp [quoted]
  rw [unwrap, trim_quoted, hlength, peel, if_pos hwrapped, hinner]
  exact peel_of_not_wrapped
    (isWrapped_of_unquoted fun c hc => w.unquoted c ((trim_isInfix _).subset hc))

def isDropped (c : Char) : Bool := "\"' .,!?…".toList.contains c

def kept (w : Quotation) : List Char := trim (trimWhile isDropped (trim w.text))

theorem valueOf_quoted : valueOf w.quoted = w.kept := by
  have hpayload : payload w.quoted = w.kept :=
    congrArg (fun cs => trim (trimWhile isDropped cs)) unwrap_quoted
  have hpart : w.kept <:+: w.text :=
    (trim_isInfix _).trans ((trimWhile_isInfix _ _).trans (trim_isInfix _))
  rw [valueOf, hpayload, unwrap_unquoted fun c hc => w.unquoted c (hpart.subset hc), kept,
    trim_trim]

/-- The whole text is kept exactly if nothing is dropped at its ends. -/
theorem kept_eq_text_iff : w.kept = w.text ↔
    ∀ c, w.text.head? = some c ∨ w.text.getLast? = some c →
      isBlank c = false ∧ isDropped c = false := by
  have hends (p : Char → Bool) : trimWhile p w.text = w.text ↔
      ∀ c, w.text.head? = some c ∨ w.text.getLast? = some c → p c = false := by
    have hany (o : Option Char) : o.any p = false ↔ ∀ c, o = some c → p c = false := by
      cases o <;> simp
    rw [trimWhile_eq_self_iff, hany, hany]
    exact ⟨fun h c hc => hc.elim (h.1 c) (h.2 c), fun h => ⟨fun c hc => h c (.inl hc),
      fun c hc => h c (.inr hc)⟩⟩
  rw [kept, trim_trimWhile_trim_eq_self_iff, trim, hends, hends]
  exact ⟨fun h c hc => ⟨h.1 c hc, h.2 c hc⟩, fun h => ⟨fun c hc => (h c hc).1,
    fun c hc => (h c hc).2⟩⟩

/-- A text that is assigned as it stands: nothing is dropped at its ends, and it is no number and
no literal word. -/
structure Verbatim (w : Quotation) : Prop where
  ends : ∀ c, w.text.head? = some c ∨ w.text.getLast? = some c →
    isBlank c = false ∧ isDropped c = false
  number : isNumber w.text = false
  literal : isLiteralWord w.text = false

end Quotation

/-! ## The intent -/

section Intent
variable {cs low : List Char} {intent refined : Intent} {loopish : Bool}

theorem inferIntent_ne_roleFlag (hrole : isRoleFlag cs = false)
    (h : inferIntent cs = .ok intent) : intent ≠ .roleFlag := by
  rintro rfl
  have hsignalled := firstSignalled_sound h (by decide)
  rw [Intent.isSignalled, hrole] at hsignalled
  cases hsignalled

theorem refineLoop_ne_roleFlag (hrole : isRoleFlag cs = false)
    (hinferred : inferIntent cs = .ok intent)
    (h : refineLoop intent low cs loopish = .ok refined) : refined ≠ .roleFlag := by
  unfold refineLoop at h
  split at h
  · cases h
    exact inferIntent_ne_roleFlag hrole hinferred
  · split at h
    · cases h
      decide
    · split at h
      · cases h
        decide
      · exact inferIntent_ne_roleFlag hrole h

/-- No form overrules an assignment in which there are neither two texts to join nor a branch. -/
theorem refineForm_assigned (hassigns : assignVerb.found cs = true)
    (hquoted : (allQuoted cs).length ≤ 1) (hif : "if ".toList.isPrefixOf low = false)
    (hwhen : whenForm.matchStart (trim cs) = none)
    (hbranch : (holds " else " low && holds "if " low) = false)
    (hintent : intent = .setVar ∨ intent = .arith) :
    refineForm intent low cs loopish = intent := by
  have htwo : decide (2 ≤ (allQuoted cs).length) = false := by
    rw [decide_eq_false_iff_not]
    omega
  have hconcat : (intent != .setVar && intent != .arith) = false := by
    rcases hintent with rfl | rfl <;> decide
  simp only [refineForm, hassigns, htwo, hif, hwhen, hbranch, hconcat, Bool.and_false,
    Bool.not_true, Bool.false_and, Option.isSome_none, Bool.or_false, Bool.false_eq_true, if_false]

end Intent

/-- What an assignment by its words must not ask for as well: a count that cannot be looked up, a
role, a branch, or a formula with words of its own. -/
structure Steady : Prop where
  counted : ¬StrayCount (setSentence v w)
  plain : isRoleFlag (setSentence v w) = false
  straight : (holds " else " (lower (setSentence v w)) && holds "if " (lower (setSentence v w))) =
    false
  formless : assignsArithmetic (setSentence v w) = true →
    scaledForm.search (setSentence v w) = none ∧ subtractForm.search (setSentence v w) = none

section Sentence
variable {v w}

theorem trim_setSentence : trim (setSentence v w) = setSentence v w := by
  refine trimWhile_eq_self rfl ?_
  simp only [setSentence, List.getLast?_append, Quotation.getLast?_quoted, Option.some_or]
  decide

theorem unwrap_setSentence : unwrap (setSentence v w) = setSentence v w := by
  rw [unwrap, trim_setSentence]
  exact peel_of_not_wrapped (by simp [isWrapped, setSentence, isQuote])

/-- No quote stands in front of the quoted text. -/
theorem ne_of_front : ∀ c ∈ "Set ".toList ++ (v.text ++ " to ".toList), c ≠ '\'' ∧ c ≠ '"' := by
  have hname : ∀ c ∈ v.text, c ≠ '\'' ∧ c ≠ '"' := by
    intro c hc
    have hword := v.word c hc
    constructor <;> rintro rfl <;> revert hword <;> decide
  exact List.forall_mem_append.mpr ⟨by decide, List.forall_mem_append.mpr ⟨hname, by decide⟩⟩

theorem setSentence_eq :
    setSentence v w = ("Set ".toList ++ (v.text ++ " to ".toList)) ++ w.quoted := by
  simp [setSentence]

theorem allQuoted_setSentence : allQuoted (setSentence v w) = [w.text] := by
  have hfront : quotedText.Unmatched [] ("Set ".toList ++ (v.text ++ " to ".toList))
      (w.quoted ++ []) := unmatched_of_unquoted _ _ ne_of_front _ _
  have hquoted := w.matchAt_quoted (("Set ".toList ++ (v.text ++ " to ".toList)).reverse ++ [])
  rw [← List.append_nil w.quoted] at hquoted
  have hfind := findFrom_matched hquoted (List.append_nil _) (List.cons_ne_nil _ _)
  rw [setSentence_eq, allQuoted, findAll, ← List.append_nil w.quoted, findFrom_unmatched hfront,
    hfind]
  rfl

/-- Without a usable answer of the classifier the words make it an assignment. -/
theorem resolveIntent_setSentence (h : Steady v w) {label : Option String}
    {score threshold : Float} (hu : isUnusable label score threshold = true) :
    resolveIntent label score (setSentence v w) threshold =
      .ok (if assignsArithmetic (setSentence v w) then .arith else .setVar) := by
  have hcount := h.counted
  rw [← unwrap_setSentence, ← loopCount_error_iff, ← Outcome.exists_ok_iff] at hcount
  obtain ⟨asked, hasked⟩ := hcount
  obtain ⟨inferred, hinferred⟩ := inferIntent_ok hasked
  obtain ⟨refined, hrefined⟩ := refineIntent_ok hasked inferred
  rw [Run.resolveIntent_of_isUnusable hu, hinferred]
  refine hrefined.trans (congrArg Except.ok ?_)
  unfold refineIntent at hrefined
  split at hrefined
  · cases hrefined
  · rename_i loopish hloopish
    obtain ⟨looped, hlooped, rfl⟩ := Outcome.map_eq_ok.mp hrefined
    have hrole := refineLoop_ne_roleFlag h.plain hinferred hlooped
    have hassigned : refineAssignment looped (lower (trim (setSentence v w))) (setSentence v w) =
        if assignsArithmetic (setSentence v w) then .arith else .setVar := by
      have hstart : (assignStart.matchStart (lower (trim (setSentence v w)))).isSome = true := by
        rw [trim_setSentence]
        rfl
      rw [refineAssignment, h.plain, hstart, bne_iff_ne.mpr hrole]
      rfl
    rw [hassigned, trim_setSentence]
    refine refineForm_assigned rfl (by rw [allQuoted_setSentence]; exact Nat.le_refl 1) rfl
      (by rw [trim_setSentence]; rfl) h.straight ?_
    split
    · exact .inr rfl
    · exact .inl rfl

/-! ## The script -/

def assignedTail : Pattern := blanks ++ (equalsOrTo ++ (blanks ++ group 2 (some1 inLine)))

theorem run_assignedTail (g : List (Nat × List Char)) (b : Option Char) :
    assignedTail.run some ⟨b, " ".toList ++ ("to".toList ++ (" ".toList ++ w.quoted)), g⟩ =
      some ⟨some '\'', [], (2, w.quoted) :: g⟩ := by
  have hline : ∀ c ∈ w.quoted, (c != '\n') = true := by
    intro c hc
    rcases List.mem_cons.mp hc with rfl | hc
    · decide
    · rcases List.mem_append.mp hc with hc | hc
      · exact bne_iff_ne.mpr (w.oneLine c hc)
      · rw [List.mem_singleton.mp hc]
        decide
  have hquoted : (group 2 (some1 inLine)).run some ⟨some ' ', w.quoted, g⟩ =
      some ⟨some '\'', [], (2, w.quoted) :: g⟩ := by
    have hcover := cover_append 2 w.quoted [] (some ' ') (some '\'') g g
    have hrun : (some1 inLine).run (fun d => some (Cursor.cover ⟨some ' ', w.quoted, g⟩ 2 d))
        ⟨some ' ', w.quoted ++ [], g⟩ = some ⟨some '\'', [], (2, w.quoted) :: g⟩ := by
      refine run_some1 (List.cons_ne_nil _ _) hline rfl ?_
      rw [List.append_nil] at hcover
      rw [w.getLast?_quoted]
      exact congrArg some hcover
    rwa [List.append_nil] at hrun
  have hto : (edge ++ (word "to" ++ (edge ++ (blanks ++ group 2 (some1 inLine))))).run some
      ⟨some ' ', "to".toList ++ (" ".toList ++ w.quoted), g⟩ =
        some ⟨some '\'', [], (2, w.quoted) :: g⟩ := by
    rw [run_append, run_edge rfl, run_append, run_word rfl, run_append, run_edge rfl, run_append]
    exact run_many (by decide) rfl hquoted
  rw [assignedTail, run_append]
  refine run_many (r := "to".toList ++ (" ".toList ++ w.quoted)) (by decide) rfl ?_
  exact (run_or_right (p := char '=') (run_one_eq_none rfl)).trans hto

/-- The name is the first group of the form, the quoted text its second one. -/
theorem search_setSentence : setForm.search (setSentence v w) =
    some ⟨[], setSentence v w, [], [(2, w.quoted), (1, v.text)]⟩ := by
  have hrest : ∀ c ∈ v.rest, isWordChar c = true := fun c hc => v.word c (List.mem_cons_of_mem _ hc)
  have hfirst : isBlank v.first = false := isBlank_of_isWordChar (v.word _ List.mem_cons_self)
  have hname : (group 1 anyName ++ assignedTail).run some
      ⟨some ' ', v.text ++ (" ".toList ++ ("to".toList ++ (" ".toList ++ w.quoted))), []⟩ =
        some ⟨some '\'', [], [(2, w.quoted), (1, v.text)]⟩ := by
    have htail := run_assignedTail (w := w) [(1, v.text)] (v.rest.getLast?.or (some v.first))
    rw [← cover_append 1 v.text _ (some ' ') _ [] []] at htail
    exact (run_one (f := fun c => isNameStart (foldCase c)) v.named).trans
      (run_many (r := " ".toList ++ _) hrest rfl htail)
  have hsteps : (edge ++ (word "set" ++ (blanks1 ++ (group 1 anyName ++ assignedTail)))).run some
      ⟨none, setSentence v w, []⟩ = some ⟨some '\'', [], [(2, w.quoted), (1, v.text)]⟩ := by
    rw [run_append, run_edge rfl, run_append]
    refine (run_word (w := "Set".toList) (s := "set") rfl).trans ?_
    rw [run_append]
    exact run_some1 (w := " ".toList) (by decide) (by decide) hfirst hname
  have hrun : setForm.run some ⟨none, setSentence v w ++ [], []⟩ =
      some ⟨some '\'', [], [(2, w.quoted), (1, v.text)]⟩ := by
    rw [List.append_nil]
    exact hsteps
  have hmatch : setForm.matchStart _ = _ := matchAt_of_run hrun
  rw [List.append_nil] at hmatch
  exact search_of_matchStart hmatch

/-- What follows the assignment: a second one, unless the first is taken as arithmetic, and what
the text asks to print. -/
def following (v : Variable) (w : Quotation) : List (List Char) :=
  let cs := setSentence v w
  let second :=
    match secondAssignment? cs v.text with
    | some (name, source) => [setLine name (operandExpr source)]
    | none => []
  (if assignsArithmetic cs then [] else second) ++
    printLines cs v.text (printClause.found cs || mentionsPrint cs)

theorem assignment?_setSentence : assignment? (setSentence v w) =
    some ⟨v.text, assignedSource w.quoted,
      printClause.found (setSentence v w) || mentionsPrint (setSentence v w)⟩ := by
  rw [assignment?, trim_setSentence, assignmentForms, List.findSome?_cons, search_setSentence]
  rfl

def assignedScript (v : Variable) (w : Quotation) : List Char :=
  joinLines (setLine v.text (singleValue w.quoted) :: following v w)

theorem renderBody_setSentence (h : Steady v w) (huncut : w.Uncut) :
    renderBody (if assignsArithmetic (setSentence v w) then .arith else .setVar) (setSentence v w) =
      .ok ⟨assignedScript v w, []⟩ := by
  have hoperand := Quotation.operandExpr_quoted huncut
  cases harith : assignsArithmetic (setSentence v w) with
  | true =>
    obtain ⟨hscaled, hsubtract⟩ := h.formless harith
    simp only [if_true, renderBody, renderArith, hscaled, hsubtract, assignment?_setSentence,
      hoperand, assignedScript, following, harith, List.nil_append]
  | false =>
    have hassigns : assignVerb.found (setSentence v w) = true := rfl
    simp only [Bool.false_eq_true, if_false, renderBody, renderSetVar, hassigns, Bool.not_true,
      Bool.and_false, assignment?_setSentence, hoperand, assignedScript, following, harith]
    rfl

theorem ofAnswer_setSentence (h : Steady v w) (huncut : w.Uncut) {threshold : Float}
    {answer : Expansion.Answer} (hu : isUnusable answer.label? answer.score threshold = true) :
    ∃ expansion, Expansion.ofAnswer threshold (String.ofList (setSentence v w)) answer =
        .ok expansion ∧
      expansion.usedFallback = true ∧ expansion.script = String.ofList (assignedScript v w) := by
  have hintent := resolveIntent_setSentence h hu
  have hnamed : (trim (setSentence v w)).isEmpty = false := by rw [trim_setSentence]; rfl
  have hnonblank : (trim (assignedScript v w)).isEmpty = false := by
    unfold assignedScript
    cases following v w with
    | nil => exact isEmpty_trim_cons (c := 's') (by decide) _
    | cons l ls => exact isEmpty_trim_cons (c := 's') (by decide) _
  have hscript : Expansion.scriptFor
      (if assignsArithmetic (setSentence v w) then .arith else .setVar) (setSentence v w) =
        .ok ⟨assignedScript v w, []⟩ := by
    simp only [Expansion.scriptFor, hnamed, Bool.false_eq_true, if_false, render,
      unwrap_setSentence, renderBody_setSentence h huncut, Except.map, hnonblank]
  simp only [Expansion.ofAnswer, String.toList_ofList, unwrap_setSentence, hintent, hscript,
    Except.map, hu]
  exact ⟨_, rfl, rfl, rfl⟩

/-! ## What follows -/

inductive Spares (name : List Char) : List Char → Prop
  | print {e} (he : OneLine e) : Spares name (printExpr e)
  | set {other e} (hword : IsWord other) (hother : other ≠ name) (he : OneLine e) :
      Spares name (setLine other e)

theorem Spares.oneLine {name l : List Char} (h : Spares name l) : OneLine l := by
  cases h with
  | print he => exact (PlainLine.print he).oneLine
  | set hword _ he => exact (PlainLine.set hword he).oneLine

theorem secondAssignment?_ne {cs first name source : List Char}
    (h : secondAssignment? cs first = some (name, source)) : name ≠ first := by
  simp only [secondAssignment?] at h
  split at h
  · cases h
  · split at h
    · cases h
    · rename_i hne
      obtain ⟨rfl, -⟩ := Prod.mk.inj (Option.some.inj h)
      rintro heq
      exact hne (by simp [heq])

theorem spares_printLines {cs name : List Char} (h : OneLine cs) (hname : OneLine name)
    (prints : Bool) : ∀ l ∈ printLines cs name prints, Spares name l := by
  intro l hl
  simp only [printLines] at hl
  split at hl
  · rw [List.mem_singleton.mp hl]
    refine .print (OneLine.ite hname ?_)
    cases htail : printTail? cs name with
    | none => simp
    | some tail => exact oneLine_printTail? h hname htail
  · cases hl

/-- Nothing behind the assignment assigns to its variable. -/
theorem spares_following : ∀ l ∈ following v w, Spares v.text l := by
  have hone : OneLine (setSentence v w) := by
    simp only [setSentence, Quotation.quoted, oneLine_append, oneLine_cons]
    exact ⟨by decide, v.word.oneLine, by decide, by decide, w.oneLine, by decide, by decide⟩
  intro l hl
  simp only [following] at hl
  rcases List.mem_append.mp hl with hl | hl
  · split at hl
    · cases hl
    · split at hl
      · rename_i name source hsecond
        obtain ⟨hname, hsource⟩ := secondAssignment?_sound hone hsecond
        rw [List.mem_singleton.mp hl]
        exact .set hname (secondAssignment?_ne hsecond) (oneLine_operandExpr hsource)
      · cases hl
  · exact spares_printLines hone v.word.oneLine _ l hl

end Sentence

end Scribe.Instruction
