import Scribe.Proofs.Instruction.QuotedAssignments
import Scribe.Proofs.Run.Echo
import Scribe.Proofs.Run.Visits
import Scribe.Proofs.Script.LineShapes

/-!
# Quoted texts in variables

A quoted text that is assigned by the words of an instruction is stripped of blanks and punctuation
at its ends, and what is left becomes a number or a literal word if it reads as one. So the variable
holds the text itself only if none of this applies to it.
-/
namespace Scribe

namespace Script
open Text Instruction

/-- The value of a quoted text: what is kept of it, unless that is a number or a literal word. -/
theorem readsAs_quoted (w : Quotation) : ∃ (e : Expr) (value : Value),
    ReadsAs (singleValue w.quoted) e ∧ (∀ b, evaluate b e = .ok value) ∧
    ∀ t, value = .text t ↔
      t = String.ofList w.kept ∧ isNumber w.kept = false ∧ isLiteralWord w.kept = false := by
  have hquote : w.quoted.any isQuote = true := rfl
  have hvalue : singleValue w.quoted = if w.kept.isEmpty then quote []
      else if isNumber w.kept then w.kept
      else if isLiteralWord w.kept then lower w.kept
      else quote w.kept := by
    simp only [singleValue_eq, hquote, Bool.not_true, Bool.and_false, Bool.false_eq_true, if_false,
      Quotation.valueOf_quoted]
  have htext (cs : List Char) (t : String) :
      Value.text (String.ofList cs) = .text t ↔ t = String.ofList cs := by
    rw [Value.text.injEq, eq_comm]
  rw [hvalue]
  split
  · rename_i hempty
    refine ⟨_, _, readsAs_quote [], fun b => rfl, fun t => ?_⟩
    rw [htext, List.isEmpty_iff.mp hempty]
    exact ⟨fun h => ⟨h, by decide, by decide⟩, fun h => h.1⟩
  split
  · rename_i hnumber
    have htrim : trim w.kept = w.kept := trim_trim _
    obtain ⟨n, hn | hn⟩ := numeral_of_isNumber htrim hnumber
    · rw [hn]
      exact ⟨_, .number n.value, readsAs_term (.number n), fun b => rfl, by simp [← hn, hnumber]⟩
    · rw [hn]
      exact ⟨_, .number (-n.value), readsAs_negated n, fun b => rfl, by simp [← hn, hnumber]⟩
  split
  · rename_i hliteral
    obtain ⟨value, hvalue, hreads⟩ := readsAs_literalWord hliteral
    exact ⟨.lit value, value, hreads, fun b => rfl, fun t => by simp [hvalue t, hliteral]⟩
  · rename_i hnumber hliteral
    refine ⟨_, _, readsAs_quote _, fun b => rfl, fun t => ?_⟩
    rw [htext]
    simp [hnumber, hliteral]

/-- The text itself is the value exactly if it is assigned as it stands. -/
theorem verbatim_iff {w : Quotation} {value : Value}
    (h : ∀ t, value = .text t ↔
      t = String.ofList w.kept ∧ isNumber w.kept = false ∧ isLiteralWord w.kept = false) :
    value = .text (String.ofList w.text) ↔ w.Verbatim := by
  rw [h, String.ofList_inj, eq_comm]
  constructor
  · rintro ⟨hkept, hnumber, hliteral⟩
    rw [hkept] at hnumber hliteral
    exact ⟨Quotation.kept_eq_text_iff.mp hkept, hnumber, hliteral⟩
  · intro hv
    have hkept := Quotation.kept_eq_text_iff.mpr hv.ends
    rw [hkept]
    exact ⟨rfl, hv.number, hv.literal⟩

def Stmt.Spares (name : String) : Stmt → Prop
  | .print .. => True
  | .assign _ other _ => other ≠ name
  | _ => False

section Lines
variable {name l : List Char} {ls : List (List Char)} {line : Nat} {ts : List Token} {s s' : State}

/-- A line that spares a name files one statement, which spares the name as well. -/
theorem reads_spared (h : Spares name l) (hr : s.Ready)
    (hl : lexLines line [] (l :: ls) = .ok ts) (hs : s.Reads ts s') :
    ∃ stmt vs, stmt.Spares (String.ofList name) ∧ lexLines (line + 1) [] ls = .ok vs ∧
      State.Reads ⟨s.frames, s.settle.done ++ [stmt], .next⟩ vs s' := by
  cases h with
  | @print e =>
    obtain ⟨y, hcode, hy⟩ := codeOf_front (w := "neuro".toList) (by decide) (by decide) e
    obtain ⟨marks, levels', s₀, s₁, us, vs, n, hmarks, hm, hus, hn, hline, hvs, hrest⟩ :=
      reads_markedLine hcode (by decide) (by decide) (noWordAhead hy) hl hs
    cases hmarks
    cases hm
    obtain ⟨k, x, rfl⟩ := reads_printLine hr rfl (not_isLayout_of_lexFrom hus) hn hline
    have hstmt : (Stmt.print k x).Spares (String.ofList name) := trivial
    exact ⟨_, vs, hstmt, hvs, hrest⟩
  | @set other e hword hother =>
    obtain ⟨y, hcode, hy⟩ := codeOf_setLine hword e
    obtain ⟨marks, levels', s₀, s₁, us, vs, n, hmarks, hm, hus, hn, hline, hvs, hrest⟩ :=
      reads_markedLine hcode (by decide) (by decide) rfl hl hs
    cases hmarks
    cases hm
    obtain ⟨k, x, rfl⟩ := reads_assignment hword hy hus hr rfl hn hline
    have hstmt : (Stmt.assign k (String.ofList other) x).Spares (String.ofList name) :=
      fun heq => hother (String.ofList_inj.mp heq)
    exact ⟨_, vs, hstmt, hvs, hrest⟩

/-- So do all lines together. -/
theorem reads_allSpared (h : ∀ l ∈ ls, Spares name l) (hr : s.Ready)
    (hl : lexLines line [] ls = .ok ts) (hs : s.Reads ts s') :
    ∃ body, (∀ stmt ∈ body, stmt.Spares (String.ofList name)) ∧ s'.frames = s.frames ∧
      s'.settle.done = s.settle.done ++ body := by
  induction ls generalizing line s ts with
  | nil =>
    cases hl
    cases hs
    exact ⟨[], by simp⟩
  | cons l ls ih =>
    obtain ⟨stmt, vs, hstmt, hvs, hrest⟩ := reads_spared (h l (by simp)) hr hl hs
    have hready : State.Ready ⟨s.frames, s.settle.done ++ [stmt], .next⟩ := trivial
    obtain ⟨body, hbody, hframes, hdone⟩ := ih (fun l hl => h l (by simp [hl])) hready hvs hrest
    refine ⟨stmt :: body, List.forall_mem_cons.mpr ⟨hstmt, hbody⟩, hframes, ?_⟩
    rw [hdone]
    exact List.append_assoc _ _ _

end Lines

/-- An assignment in front of lines that spare its variable is the first statement of the program,
and no other statement assigns to its variable. -/
theorem parse_assigned (x : Draft.Name) {w : List Char} {e : Expr} (hw : ReadsAs w e)
    {ls : List (List Char)} (hls : ∀ l ∈ ls, Spares x.text l) {p : Program}
    (hp : parse (joinLines (setLine x.text w :: ls)) = .ok p) :
    ∃ body, p = .assign 1 (String.ofList x.text) e :: body ∧
      ∀ stmt ∈ body, stmt.Spares (String.ofList x.text) := by
  obtain ⟨ts, s, htokens, hread, hfinish⟩ := reads_of_parse hp
  have hcode := Draft.codeLine_assigned x hw
  rw [← setLine_append] at hcode
  have hone : ∀ l ∈ setLine x.text w :: ls, OneLine l :=
    List.forall_mem_cons.mpr ⟨hcode.oneLine, fun l hl => (hls l hl).oneLine⟩
  rw [tokenize, lines_joinLines hone (List.cons_ne_nil _ _)] at htokens
  obtain ⟨us, n, hus, hn, hlex⟩ := hcode.lexLines 1 0 ls
  have hlex : lexLines 1 [] (setLine x.text w :: ls) = _ := hlex
  rw [hlex] at htokens
  obtain ⟨vs, hvs, rfl⟩ := Outcome.map_eq_ok.mp htokens
  obtain ⟨s₁, hfirst, hrest⟩ := hread.of_append
  have hsimple : State.initial.Reads (us ++ [n])
      ⟨[], [.assign 1 (String.ofList x.text) e], .next⟩ := hus.reads State.initial n trivial hn
  rw [State.Reads, hsimple] at hfirst
  cases hfirst
  have hready : State.Ready ⟨[], [.assign 1 (String.ofList x.text) e], .next⟩ := trivial
  obtain ⟨body, hbody, hframes, hdone⟩ := reads_allSpared hls hready hvs hrest
  refine ⟨body, ?_, hbody⟩
  simp only [State.finish, hdone] at hfinish
  split at hfinish <;> cases hfinish
  · rfl
  · rfl

end Script

namespace Run
open Script Instruction Text

variable {σ : Type} {h : Host σ} {k : String → Int → Exec σ Unit} {origin : Option Int}

def Session.get? (name : String) (s : Session σ) : Option Value := s.machine.bindings.get? name

theorem keeps_spared {name : String} {body : List Stmt} (hb : ∀ stmt ∈ body, stmt.Spares name) :
    Task.Keeps (Session.get? name) (execBlock h k origin body) := by
  have hsame {α : Type} {t : Exec σ α} (ht : t.Keeps Session.machine) :
      t.Keeps (Session.get? name) := fun s => congrArg (fun m => m.bindings.get? name) (ht s)
  induction body with
  | nil =>
    rw [execBlock]
    exact .pure ()
  | cons stmt rest ih =>
    have hrest := ih fun stmt hs => hb stmt (by simp [hs])
    have hstmt := hb stmt (by simp)
    rw [execBlock]
    refine Task.Keeps.bind ?_ fun _ => hrest
    cases stmt with
    | print line e => exact hsame keeps_print
    | assign line other e =>
      rw [execStmt]
      refine (hsame (keeps_valueOf? h _ e)).bind fun value s => ?_
      change (s.machine.bindings.set other _).get? name = s.machine.bindings.get? name
      rw [Bindings.get?_set, if_neg (Ne.symm hstmt)]
    | ask | select | expand | choose => exact hstmt.elim

/-- An assignment in front of statements that spare its variable decides what the variable holds. -/
theorem get?_assigned {name : String} {line : Nat} {e : Expr} {value : Value} {body : List Stmt}
    (he : ∀ b, evaluate b e = .ok value) (hb : ∀ stmt ∈ body, stmt.Spares name) (s : Session σ) :
    (execBlock h k origin (.assign line name e :: body) s).2.machine.bindings.get? name =
      some value := by
  rw [execBlock, Task.bind_of_ok (execStmt_assign (he _))]
  refine (keeps_spared hb _).trans ?_
  exact (Bindings.get?_set _ _ _ _).trans (if_pos rfl)

theorem usedFallback_of_ofAnswer {threshold : Float} {instruction : String}
    {answer : Expansion.Answer} {expansion : Expansion}
    (hx : Expansion.ofAnswer threshold instruction answer = .ok expansion) :
    expansion.usedFallback = isUnusable answer.label? answer.score threshold := by
  simp only [Expansion.ofAnswer] at hx
  split at hx
  · cases hx
  · obtain ⟨r, -, rfl⟩ := Outcome.map_eq_ok.mp hx
    rfl

/-- What `Set v to 'w'` binds where the words of the instruction decide. Its script assigns one
value: the text without the blanks and the punctuation at its ends, or a number or a literal word
if that is what is left. So the variable holds the text as it stands exactly if it has neither
blanks nor punctuation at its ends and is neither a number nor a literal word. If what else the text
asks for makes a script that cannot be read, nothing is bound. -/
theorem assigned_text {h : Host σ}
    {classify : Option (String → String → Task σ (Except ClassifierError Verdict))}
    {modelPath : String} {least : Float} {trace : String → String → Task σ Unit}
    (hexpand : h.expand = expandWith classify modelPath least trace)
    {v : Variable} {w : Quotation} (hsteady : Steady v w) (huncut : w.Uncut) :
    let instruction := String.ofList (setSentence v w)
    ∃ value : Value,
      (∀ t, value = .text t ↔
        t = String.ofList w.kept ∧ isNumber w.kept = false ∧ isLiteralWord w.kept = false) ∧
      (value = .text (String.ofList w.text) ↔ w.Verbatim) ∧
      (∀ threshold answer, isUnusable answer.label? answer.score threshold = true →
        ∃ expansion, Expansion.ofAnswer threshold instruction answer = .ok expansion ∧
          expansion.usedFallback = true ∧
          expansion.script = String.ofList (assignedScript v w)) ∧
      (following v w = [] → ∃ p, parse (assignedScript v w) = .ok p) ∧
      ∀ (s : Session σ) (expansion : Expansion) (w' : σ),
        h.expand instruction s.world = (.ok expansion, w') → expansion.usedFallback = true →
        ∀ allowance line,
          let after := (execExpand h (allowance + 1) instruction line s).2.machine.bindings
          (∀ p, parse (assignedScript v w) = .ok p →
            after.get? (String.ofList v.text) = some value) ∧
          ∀ fault, parse (assignedScript v w) = .error fault → after = s.machine.bindings := by
  intro instruction
  obtain ⟨e, value, hreads, hvalue, htext⟩ := readsAs_quoted w
  refine ⟨value, htext, verbatim_iff htext, fun threshold answer hu => ?_, fun hnone => ?_, ?_⟩
  · exact ofAnswer_setSentence hsteady huncut hu
  · rw [assignedScript, hnone, joinLines, join, List.intercalate_singleton]
    exact ⟨_, parse_setLine v.toName hreads⟩
  · intro s expansion w' hx hfallback allowance line after
    have hscript : expansion.script.toList = assignedScript v w := by
      have hx := hx
      rw [hexpand] at hx
      obtain ⟨answer, hanswer⟩ := ofAnswer_of_expandWith hx
      rw [usedFallback_of_ofAnswer hanswer] at hfallback
      obtain ⟨expansion', hsame, -, hscript⟩ := ofAnswer_setSentence hsteady huncut hfallback
      rw [hanswer] at hsame
      cases hsame
      rw [hscript, String.toList_ofList]
    constructor
    · intro p hp
      obtain ⟨body, rfl, hbody⟩ := parse_assigned v.toName hreads spares_following hp
      rw [← hscript] at hp
      change (execExpand h (allowance + 1) instruction line s).2.machine.bindings.get? _ = _
      rw [execExpand_read hx hp]
      exact get?_assigned hvalue hbody _
    · intro fault hfault
      rw [← hscript] at hfault
      exact (emitsItself_rejected hx hfault allowance line).2

/-- The mark at the end of the text is lost. -/
theorem assigned_text_mark :
    let h := host { modelPath := "" } classifyByModel
    let start : Session (Stage Cache) := ⟨{}, ⟨⟨{}, {}⟩, [.buffer []]⟩⟩
    (execExpand h 1 "Set x to 'hi!'" 1 start).2.machine.bindings.get? "x" = some (.text "hi") := by
  intro h start
  let v : Variable := ⟨⟨'x', [], by decide, by decide, by decide⟩, by decide⟩
  let w : Quotation := ⟨"hi!".toList, by decide, by decide, by decide⟩
  have hsteady : Steady v w := ⟨not_strayCount (by decide +kernel), by decide +kernel,
    by decide +kernel, fun harith => absurd harith (by decide +kernel)⟩
  have huncut : w.Uncut := by decide +kernel
  have hsentence : "Set x to 'hi!'" = String.ofList (setSentence v w) := by decide +kernel
  have hname : "x" = String.ofList v.text := by decide
  have hnone : following v w = [] := by decide +kernel
  obtain ⟨value, htext, -, hexpanded, hread, hran⟩ :=
    assigned_text (h := h) (host_expand { modelPath := "" } classifyByModel) hsteady huncut
  obtain ⟨p, hp⟩ := hread hnone
  obtain ⟨expansion, hanswer, hfallback, -⟩ := hexpanded defaultThreshold .absent rfl
  obtain ⟨w', hx⟩ : ∃ w', h.expand (String.ofList (setSentence v w)) start.world =
      (.ok expansion, w') := by
    rw [show h.expand = _ from host_expand _ _]
    exact expandWith_ok (fun _ _ => .pure ()) rfl hanswer
  have hbound := (hran start expansion w' hx hfallback 0 1).1 p hp
  have hhi : value = .text "hi" :=
    (htext "hi").mpr ⟨by decide +kernel, by decide +kernel, by decide +kernel⟩
  rw [Nat.zero_add] at hbound
  rw [hsentence, hname, ← hhi]
  exact hbound

end Run
end Scribe
