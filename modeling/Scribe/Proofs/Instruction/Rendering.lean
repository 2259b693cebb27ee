import Scribe.Instruction.Expansion
import Scribe.Proofs.Instruction.TemplateLines
import Scribe.Proofs.Outcome

/-!
# Every renderer writes template lines

For an instruction of one line each renderer gives a script that is made of template lines: the
pieces it puts into a line have no line end, and the names it assigns to are words.
-/
namespace Scribe.Instruction
open Text Pattern

variable {cs : List Char}

theorem templated_renderLoop {r : Rendering} (h : renderLoop cs = .ok r) : r.Templated := by
  unfold renderLoop at h
  cases hcount : loopCount cs with
  | error e => rw [hcount] at h; cases h
  | ok asked =>
    rw [hcount] at h
    cases h
    refine ⟨_, ?_, rfl⟩
    induction (clampCount (asked.getD 1)).toNat with
    | zero => exact .nil
    | succ n ih => exact .plain (plainLine_printText _) ih

theorem oneLine_role? {value : List Char} (h : OneLine cs) (hv : role? cs = some value) :
    OneLine value := by
  simp only [role?] at hv
  split at hv
  · rename_i text hq
    cases hv
    exact h.of_isInfix (firstQuoted?_isInfix hq)
  · split at hv
    · rename_i text hnamed
      cases hv
      obtain ⟨m, hm, hvalue⟩ := Option.bind_eq_some_iff.mp hnamed
      split at hvalue
      · cases hvalue
      · cases hvalue
        exact h.group (search_in hm) 1
    · obtain ⟨m, hm, rfl⟩ := Option.map_eq_some_iff.mp hv
      exact h.trim.group (search_in hm) 1

theorem templated_renderRole (h : OneLine cs) : (renderRole cs).Templated := by
  have hvalue : OneLine ((role? cs).getD "user".toList) := by
    cases hv : role? cs with
    | none => decide
    | some value => exact oneLine_role? h hv
  refine templated_line (.set (by decide) ?_) _
  exact OneLine.ite (Script.oneLine_quote _) (oneLine_singleValue hvalue)

theorem oneLine_branchClause? {test message : List Char} (h : OneLine cs)
    (hc : branchClause? cs = some (test, message)) : OneLine test := by
  have hpart : OneLine (trim (dropEndWhile (fun c => c == ',' || c == ';') (trim cs))) :=
    ((h.trim).dropEndWhile _).trim
  simp only [branchClause?] at hc
  split at hc
  · cases hc
  · rename_i m hfound
    have hin : m.In (trim (dropEndWhile (fun c => c == ',' || c == ';') (trim cs))) := by
      split at hfound
      · rename_i hm
        cases hfound
        exact matchStart_in hm
      · exact matchStart_in hfound
    split at hc
    · cases hc
    · rw [← (Prod.mk.inj (Option.some.inj hc)).1]
      exact oneLine_condition (hpart.group hin 1)

theorem template_armLines {parts ls : List (List Char)} (first : Bool)
    (hparts : ∀ part ∈ parts, OneLine part) (h : armLines first parts = .ok ls) : Template ls := by
  induction parts generalizing first ls with
  | nil =>
    cases h
    exact .nil
  | cons part rest ih =>
    simp only [armLines] at h
    split at h
    · cases h
    · rename_i test message hclause
      cases hmore : armLines false rest with
      | error part' => rw [hmore] at h; cases h
      | ok more =>
        rw [hmore] at h
        cases h
        refine .arm ?_ (oneLine_branchClause? (hparts part (by simp)) hclause)
          (Script.oneLine_quote message) (ih false (fun x hx => hparts x (by simp [hx])) hmore)
        cases first
        · exact .inr rfl
        · exact .inl rfl

theorem templated_renderArms {head : List Char} (cs otherwise : List Char) (h : OneLine head) :
    (renderArms cs head otherwise).Templated := by
  have hparts : ∀ part ∈ (elifCut.split head).filter fun part => !(trim part).isEmpty,
      OneLine part := by
    intro part hpart
    exact forall_split h part (List.mem_filter.mp hpart).1
  simp only [renderArms]
  split
  · exact templated_echo cs _
  · exact templated_echo cs _
  · rename_i ls _ hls
    refine ⟨_, (template_armLines true hparts hls).append ?_, rfl⟩
    split
    · exact .nil
    · exact .lastArm (Script.oneLine_quote otherwise) .nil

theorem templated_renderWhen {m : Match} (h : OneLine cs) (hm : m.In cs) (notes : List String) :
    Rendering.Templated ⟨renderWhen m, notes⟩ := by
  have htest : OneLine (m.group 2 ++ " == ".toList ++
      if isNumber (m.group 3) || isLiteralWord (m.group 3) then m.group 3
      else Script.quote (m.group 3)) := by
    simp only [oneLine_append]
    exact ⟨⟨h.group hm 2, by decide⟩, OneLine.ite (h.group hm 3) (Script.oneLine_quote _)⟩
  refine ⟨_, .arm (.inl rfl) htest (h.group hm 1) .nil, ?_⟩
  change renderWhen m = _
  rw [show renderWhen m = "if ".toList ++ m.group 2 ++ " == ".toList ++
    (if isNumber (m.group 3) || isLiteralWord (m.group 3) then m.group 3
      else Script.quote (m.group 3)) ++ ":\n    ".toList ++ printExpr (m.group 1) from rfl]
  simp [joinLines, join]

theorem templated_renderBranch (h : OneLine cs) : (renderBranch cs).Templated := by
  simp only [renderBranch]
  split
  · rename_i m hm
    exact templated_renderWhen h.trim (matchStart_in hm) _
  · split
    · exact templated_echo cs _
    · apply templated_renderArms
      refine OneLine.of_isInfix ?_ (dropFront_isInfix _ _)
      have helse := h.replace (edge ++ word "otherwise" ++ edge) "else" (by decide)
      have hwords := helse.replace (edge ++ word "else" ++ blanks1 ++ word "if" ++ edge) "elif"
        (by decide)
      cases hfound : elseForm.matchStart (trim _) with
      | none => exact hwords.trim
      | some m => exact (hwords.trim.group (matchStart_in hfound) 1).trim

theorem markOfComment_cases (cs : List Char) :
    markOfComment cs = "#".toList ∨ markOfComment cs = "//".toList := by
  unfold markOfComment
  split
  · rename_i m hm
    have hmark : commentMark.Covers fun g => g = "#".toList ∨ g = "//".toList :=
      covers_or (fun _ _ _ h hg => .inr (covers_exactly _ h hg))
        fun _ _ _ h hg => .inl (covers_char _ h hg)
    have hgroup : (edge ++ word "using" ++ blanks1 ++ group 1 commentMark).GroupIn 1
        fun g => g = "#".toList ∨ g = "//".toList := by
      refine ⟨by simp, fun _ => hmark, ?_⟩
      simp [commentMark]
    exact search_group hgroup (.inr (.inl rfl)) hm
  · split
    · split
      · exact .inr rfl
      · exact .inl rfl
    · exact .inr rfl
    · exact .inl rfl

theorem oneLine_dropMark (mark : String) (h : OneLine cs) : OneLine (dropMark mark cs) := by
  unfold dropMark
  exact OneLine.ite (h.drop _).trim h

theorem oneLine_commentText (h : OneLine cs) : OneLine (commentText cs) := by
  simp only [commentText]
  split
  · simp
  · rename_i text hcomment
    have htext : OneLine text := by
      split at hcomment
      · rename_i quoted hq
        cases hcomment
        exact h.of_isInfix (firstQuoted?_isInfix hq)
      · obtain ⟨m, hm, rfl⟩ := Option.map_eq_some_iff.mp hcomment
        exact h.group (search_in hm) 1
    have hfront := htext.of_isInfix ((dropFront_isInfix (usingMark ++ blanks ++ saysClause) _).trans
      (unwrap_isInfix text))
    have husing := hfront.replace (edge ++ usingMark ++ many inLine ++ atEnd) "" (by decide)
    have hlater := husing.replace laterPrint "" (by decide)
    exact oneLine_dropMark _ (oneLine_dropMark _ hlater.trim)

theorem templated_lines {ls : List (List Char)} (h : Template ls) (notes : List String) :
    Rendering.Templated ⟨joinLines ls, notes⟩ := ⟨ls, h, rfl⟩

theorem template_commentLines (h : OneLine cs) : Template (commentLines cs).1 := by
  simp only [commentLines]
  split
  · split
    · exact .nil
    · exact .single (.comment (markOfComment_cases cs) (oneLine_commentText h))
  · exact .nil

theorem template_messageLines (h : OneLine cs) : Template (messageLines cs) := by
  simp only [messageLines]
  split
  · exact .nil
  · rename_i m hm
    have hmessage := h.of_isInfix ((payload_isInfix _).trans ((search_in hm).group_isInfix 1))
    split
    · exact .nil
    · apply Template.single
      split
      · exact .print hmessage
      · exact plainLine_printText _

theorem oneLine_shownVariable? {name : List Char} (h : OneLine cs)
    (hname : shownVariable? cs = some name) : OneLine name := by
  obtain ⟨form, -, hform⟩ := List.exists_of_findSome?_eq_some hname
  obtain ⟨m, hm, hvar⟩ := Option.bind_eq_some_iff.mp hform
  split at hvar
  · rw [← Option.some.inj hvar]
    exact h.group (search_in hm) 1
  · cases hvar

theorem templated_renderDisplay (h : OneLine cs) : (renderDisplay cs).Templated := by
  simp only [renderDisplay]
  split
  · exact templated_line (plainLine_printText _) _
  · split
    · exact templated_line (plainLine_printText _) _
    · split
      · rename_i name hname
        exact templated_line (.print (oneLine_shownVariable? h.trim hname)) _
      · have hlines := (template_commentLines h).append (template_messageLines h)
        split
        · exact templated_echo cs _
        · exact templated_lines hlines _

theorem assignmentForms_name : ∀ form ∈ assignmentForms, form.GroupIn 1 IsWord ∧ form.HasGroup 1 := by
  simp [assignmentForms, setForm, createForm, storeForm, looseForm, equalsOrTo]

theorem assignment?_sound {a : Assignment} (h : OneLine cs) (ha : assignment? cs = some a) :
    IsWord a.target ∧ OneLine a.source := by
  obtain ⟨m, hfound, rfl⟩ := Option.map_eq_some_iff.mp ha
  obtain ⟨form, hform, hm⟩ := List.exists_of_findSome?_eq_some hfound
  obtain ⟨hword, hhas⟩ := assignmentForms_name form hform
  have hsource := oneLine_assignedSource (h.trim.group (search_in hm) 2)
  dsimp only
  exact ⟨search_group hword hhas hm, hsource⟩

theorem secondAssignment?_sound {first name source : List Char} (h : OneLine cs)
    (hsecond : secondAssignment? cs first = some (name, source)) :
    IsWord name ∧ OneLine source := by
  simp only [secondAssignment?] at hsecond
  split at hsecond
  · cases hsecond
  · rename_i m hm
    split at hsecond
    · cases hsecond
    · obtain ⟨hname, hsource⟩ := Prod.mk.inj (Option.some.inj hsecond)
      have hform : secondForm.GroupIn 1 IsWord := by simp [secondForm]
      rw [← hname, ← hsource]
      exact ⟨search_group hform (by simp [secondForm]) hm,
        ((h.group (search_in hm) 2).trim.dropEndWhile _).trim⟩

theorem namedTarget?_word {name : List Char} (hname : namedTarget? cs = some name) :
    IsWord name := by
  simp only [namedTarget?] at hname
  split at hname
  · cases hname
  · rename_i m hm
    split at hname
    · cases hname
    · have hform : targetForm.GroupIn 1 IsWord := by simp [targetForm]
      rw [← Option.some.inj hname]
      exact search_group hform (by simp [targetForm]) hm

theorem target_word (cs : List Char) : IsWord ((namedTarget? cs).getD defaultTarget) := by
  cases hname : namedTarget? cs with
  | none => decide
  | some name => exact namedTarget?_word hname

theorem template_printLines {name : List Char} (h : OneLine cs) (hname : IsWord name)
    (prints : Bool) : Template (printLines cs name prints) := by
  simp only [printLines]
  split
  · refine .single (.print (OneLine.ite hname.oneLine ?_))
    cases htail : printTail? cs name with
    | none => simp
    | some tail => exact oneLine_printTail? h hname.oneLine htail
  · exact .nil

theorem templated_assignment {a : Assignment} (h : OneLine cs) (ha : assignment? cs = some a)
    {second : List (List Char)} (hsecond : Template second) (notes : List String) :
    Rendering.Templated ⟨joinLines (setLine a.target (operandExpr a.source) :: second ++
      printLines cs a.target a.prints), notes⟩ := by
  obtain ⟨htarget, hsource⟩ := assignment?_sound h ha
  exact templated_lines (.plain (.set htarget (oneLine_operandExpr hsource))
    (hsecond.append (template_printLines h htarget _))) notes

theorem templated_renderSetVar (h : OneLine cs) : (renderSetVar cs).Templated := by
  simp only [renderSetVar]
  split
  · exact templated_renderDisplay h
  · split
    · exact templated_echo cs _
    · rename_i a ha
      apply templated_assignment h ha
      split
      · rename_i name source hsecond
        obtain ⟨hname, hsource⟩ := secondAssignment?_sound h hsecond
        exact .single (.set hname (oneLine_operandExpr hsource))
      · exact .nil

theorem oneLine_computed? {e : List Char} (h : OneLine cs) (he : computed? cs = some e) :
    OneLine e := by
  have hsigns : ∀ form ∈ verbForms, OneLine form.2.toList := by decide
  simp only [computed?] at he
  split at he
  · rename_i byVerb hverb
    rw [← Option.some.inj he]
    obtain ⟨form, hform, hfound⟩ := List.exists_of_findSome?_eq_some hverb
    obtain ⟨m, hm, hexpr⟩ := Option.map_eq_some_iff.mp hfound
    rw [← hexpr]
    simp only [oneLine_append]
    exact ⟨⟨h.group (search_in hm) 1, hsigns form hform⟩, h.group (search_in hm) 2⟩
  · obtain ⟨m, hm, hexpr⟩ := Option.bind_eq_some_iff.mp he
    split at hexpr
    · rw [← Option.some.inj hexpr]
      exact oneLine_operandExpr (h.group (search_in hm) 1)
    · cases hexpr

theorem templated_storeComputed {e : List Char} (h : OneLine cs) (he : OneLine e) :
    (storeComputed cs e).Templated := by
  have htarget := target_word cs
  exact templated_lines (.plain (.set htarget he) (template_printLines h htarget _)) _

theorem scaledForm_name : scaledForm.GroupIn 3 IsWord ∧ scaledForm.HasGroup 3 := by
  simp [scaledForm, noneOf]

theorem templated_renderArith (h : OneLine cs) : (renderArith cs).Templated := by
  simp only [renderArith]
  split
  · rename_i m hm
    have hin := search_in hm
    have htarget : IsWord (m.group 3) := search_group scaledForm_name.1 scaledForm_name.2 hm
    refine templated_lines (.plain (.set htarget ?_) (template_printLines h htarget _)) _
    simp only [List.cons_append, oneLine_cons, oneLine_append]
    exact ⟨by decide, ⟨oneLine_operandExpr (h.group hin 1), by decide⟩, h.group hin 2⟩
  · split
    · rename_i m hm
      have hin := search_in hm
      have hdifference : OneLine (m.group 2 ++ " - ".toList ++ m.group 1) := by
        simp only [oneLine_append]
        exact ⟨⟨h.group hin 2, by decide⟩, h.group hin 1⟩
      apply templated_storeComputed h
      split
      · rename_i d hd
        refine OneLine.ite hdifference ?_
        rw [List.cons_append, List.cons_append, oneLine_cons, oneLine_append, oneLine_append]
        exact ⟨by decide, ⟨hdifference, by decide⟩, h.group (search_in hd) 1⟩
      · exact hdifference
    · split
      · rename_i a ha
        exact templated_assignment h ha .nil _
      · split
        · rename_i e he
          exact templated_storeComputed h (oneLine_computed? h he)
        · exact templated_renderSetVar h

theorem oneLine_plusTerms? {terms : List (List Char)} (h : OneLine cs)
    (ht : plusTerms? cs = some terms) : ∀ term ∈ terms, OneLine term := by
  simp only [plusTerms?] at ht
  split at ht
  · cases ht
  · rename_i m hm
    split at ht
    · cases ht
    · rw [← Option.some.inj ht]
      exact oneLine_splitTerms ((h.group (search_in hm) 1).trim.dropEndWhile _)

theorem oneLine_joinedNames? {e : List Char} (h : OneLine cs) (he : joinedNames? cs = some e) :
    OneLine e := by
  obtain ⟨m, hm, hexpr⟩ := Option.bind_eq_some_iff.mp he
  have hin := matchStart_in hm
  split at hexpr
  · rw [← Option.some.inj hexpr]
    simp only [oneLine_append]
    exact ⟨⟨h.group hin 1, by decide⟩, h.group hin 2⟩
  · cases hexpr

theorem templated_storeJoined {e : List Char} (he : OneLine e) :
    (storeJoined cs e).Templated := by
  simp only [storeJoined]
  split
  · exact templated_line (.print he) _
  · rename_i target htarget
    have hword := namedTarget?_word htarget
    refine templated_lines (.plain (.set hword he) ?_) _
    split
    · exact .single (.print hword.oneLine)
    · exact .nil

theorem templated_renderConcat (h : OneLine cs) : (renderConcat cs).Templated := by
  simp only [renderConcat]
  split
  · rename_i terms hterms
    exact templated_line (.print (oneLine_concatExpr (oneLine_plusTerms? h hterms))) _
  · split
    · rename_i e he
      exact templated_storeJoined (oneLine_joinedNames? h he)
    · split
      · apply templated_storeJoined
        simp only [oneLine_append]
        refine ⟨⟨Script.oneLine_quote _, ?_⟩, Script.oneLine_quote _⟩
        split <;> decide
      · have htarget := target_word cs
        refine templated_lines (.plain (.set htarget (Script.oneLine_quote _)) ?_) _
        split
        · exact .single (.print htarget.oneLine)
        · exact .nil
      · exact templated_renderSetVar h

theorem templated_renderBody {r : Rendering} (intent : Intent) (h : OneLine cs)
    (hr : renderBody intent cs = .ok r) : r.Templated := by
  cases intent with
  | loop => exact templated_renderLoop hr
  | branch => exact Except.ok.inj hr ▸ templated_renderBranch h
  | arith => exact Except.ok.inj hr ▸ templated_renderArith h
  | concat => exact Except.ok.inj hr ▸ templated_renderConcat h
  | roleFlag => exact Except.ok.inj hr ▸ templated_renderRole h
  | docPrint => exact Except.ok.inj hr ▸ templated_renderDisplay h
  | setVar => exact Except.ok.inj hr ▸ templated_renderSetVar h
  | bridge => exact Except.ok.inj hr ▸ templated_echo cs _
  | unknown => exact Except.ok.inj hr ▸ templated_echo cs _

/-- A template writes at least one line, and template lines only. -/
theorem render_lines {intent : Intent} {r : Rendering} (h : OneLine cs)
    (hr : render intent cs = .ok r) : ∃ ls, Template ls ∧ ls ≠ [] ∧ r.script = joinLines ls := by
  have hecho (notes : List String) :
      ∃ ls, Template ls ∧ ls ≠ [] ∧ (⟨echo (unwrap cs), notes⟩ : Rendering).script = joinLines ls :=
    ⟨[echo (unwrap cs)], .single (plainLine_printText _), by simp, by simp [joinLines, join]⟩
  obtain ⟨body, hbody, rfl⟩ := Outcome.map_eq_ok.mp hr
  obtain ⟨ls, hls, hscript⟩ := templated_renderBody intent (h.of_isInfix (unwrap_isInfix cs)) hbody
  split
  · exact hecho _
  · rename_i hblank
    refine ⟨ls, hls, ?_, hscript⟩
    rintro rfl
    exact hblank (by rw [hscript]; rfl)

theorem scriptFor_lines {intent : Intent} {r : Rendering} (h : OneLine cs)
    (hr : Expansion.scriptFor intent cs = .ok r) :
    ∃ ls, Template ls ∧ ls ≠ [] ∧ r.script = joinLines ls := by
  unfold Expansion.scriptFor at hr
  split at hr
  · cases hr
    exact ⟨[echo cs], .single (plainLine_printText _), by simp, by simp [joinLines, join]⟩
  · exact render_lines h hr

/-- Whatever the classifier answers, the script for an instruction of one line is made of template
lines. -/
theorem ofAnswer_lines {threshold : Float} {instruction : String} {answer : Expansion.Answer}
    {expansion : Expansion} (hone : OneLine instruction.toList)
    (h : Expansion.ofAnswer threshold instruction answer = .ok expansion) :
    ∃ ls, Template ls ∧ ls ≠ [] ∧ expansion.script.toList = joinLines ls := by
  simp only [Expansion.ofAnswer] at h
  split at h
  · cases h
  · obtain ⟨r, hr, rfl⟩ := Outcome.map_eq_ok.mp h
    obtain ⟨ls, hls, hne, hscript⟩ := scriptFor_lines (hone.of_isInfix (unwrap_isInfix _)) hr
    exact ⟨ls, hls, hne, by rw [String.toList_ofList, hscript]⟩

end Scribe.Instruction
