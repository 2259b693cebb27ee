import Scribe.Proofs.Run.Diagnostics
import Scribe.Proofs.Script.Headers

/-!
# Lines that conditions are reported on

A choice tries its conditions in order up to the first that holds, and one that has no value counts
as one that does not hold. The choice has a single line, that of its first header, and the errors
of all its conditions are reported there: that of the first condition on the line on which it is
written, those of the others above their lines.
-/
namespace Scribe.Run
open Script Text

variable {σ κ : Type}

/-- The conditions that are evaluated, up to the first that holds, each with the session it is
evaluated in. -/
def tried (h : Host σ) (line : Int) : List (Expr × List Stmt) → Session σ →
    List (Expr × Session σ)
  | [], _ => []
  | (condition, _) :: rest, s =>
    (condition, s) :: Exec.afterwards (valueOf? h line condition)
      (fun value s => if value.any Value.truthy then [] else tried h line rest s) s

section Tried
variable {h : Host σ} {line : Int} {arms : List (Expr × List Stmt)} {s : Session σ}

theorem conditionNotices_eq : conditionNotices h line arms s =
    (tried h line arms s).flatMap fun x => valueNotices line x.1 x.2 := by
  induction arms generalizing s with
  | nil => rfl
  | cons arm rest ih =>
    obtain ⟨condition, body⟩ := arm
    rw [conditionNotices, tried, List.flatMap_cons, Exec.afterwards_flatMap]
    congr 2
    funext value s'
    split
    · rfl
    · exact ih

/-- The conditions are tried in order, and none is left out before the last that is tried. -/
theorem arm_of_tried {j : Nat} {x : Expr × Session σ} (hj : (tried h line arms s)[j]? = some x) :
    ∃ body, arms[j]? = some (x.1, body) := by
  induction arms generalizing s j with
  | nil => cases hj
  | cons arm rest ih =>
    obtain ⟨condition, body⟩ := arm
    rw [tried] at hj
    cases j with
    | zero =>
      cases hj
      exact ⟨body, rfl⟩
    | succ j =>
      rw [List.getElem?_cons_succ] at hj
      unfold Exec.afterwards at hj
      split at hj
      · dsimp only at hj
        split at hj
        · cases hj
        · exact ih hj
      · cases hj

theorem report_of_tried {j : Nat} {x : Expr × Session σ} {error : EvalError}
    (hj : (tried h line arms s)[j]? = some x)
    (he : evaluate x.2.machine.bindings x.1 = .error error) :
    .report "EvalError" line error.message ∈ conditionNotices h line arms s := by
  rw [conditionNotices_eq]
  refine List.mem_flatMap.mpr ⟨x, List.mem_of_getElem? hj, ?_⟩
  rw [valueNotices, he]
  exact List.mem_singleton.mpr rfl

end Tried

/-- The first header stands on the line of the choice, and all others are written below it. -/
theorem origin_of_header (script : List Char) {tokens ts headers : List Token} {header : Token}
    {arms : List (Expr × List Stmt)} {line j first written : Nat}
    (htokens : tokenize (modernize script).1 = .ok tokens) (hts : ts.Sublist tokens)
    (hheaded : Headed .ifWord arms ts headers) (hline : 1 ≤ line)
    (hhead : headers.head?.map Token.line = some line) (hheader : headers[j]? = some header)
    (hfirst : (modernize script).2[line - 1]? = some first)
    (hwritten : (modernize script).2[header.line - 1]? = some written) :
    (j = 0 → first = written) ∧ (0 < j → first < written) := by
  obtain ⟨t, ht, rfl⟩ := Option.map_eq_some_iff.mp hhead
  rw [List.head?_eq_getElem?] at ht
  refine ⟨?_, fun hpos => ?_⟩
  · rintro rfl
    obtain rfl : t = header := Option.some.inj (ht.symm.trans hheader)
    exact Option.some.inj (hfirst.symm.trans hwritten)
  · have horder := (pairwise_lexLines htokens).sublist hts
    have hapart := hheaded.line_add_two_le horder hpos ht hheader
    have hindex : t.line - 1 + 2 ≤ header.line - 1 := by omega
    exact lineMap_lt script hindex hfirst hwritten

/-- The report of a failed evaluation names the line of the script that its line comes from. -/
theorem report_of_notice {c : Config} {classify : Classify κ} {sinks rest : List Sink}
    {source : List Char} {w w' : World κ} {report : Report} {message : String}
    {line k : Nat} (hrun : run c classify sinks source w = (.ok (report, rest), w'))
    (hnotice : .report "EvalError" line message ∈
      runNotices (host c classify) (modernize (preprocess source)).1
        ((modernize (preprocess source)).2.map Int.ofNat)
        ⟨(interpreter c (.buffer [] :: sinks)).machine,
          ⟨w, (interpreter c (.buffer [] :: sinks)).sinks⟩⟩)
    (hline : 1 ≤ line) (hk : (modernize (preprocess source)).2[line - 1]? = some k) :
    s!"❌ EvalError on line {(k : Int)}: {message}" ∈ report.output := by
  rw [output_of_run hrun (buffered_run c classify sinks source w)]
  refine List.mem_map.mpr ⟨_, hnotice, ?_⟩
  rw [Notice.text, sourceLine_of_entry hline (by rw [List.getElem?_map, hk]; rfl)]
  rfl

/-- The errors of the conditions of a choice are reported on the line of its first header, so on
the line on which it is written for the first condition, and above it for all others. -/
theorem conditions_reported_on_first_header (c : Config) (classify : Classify κ)
    (sinks : List Sink) (source : List Char) (w : World κ) {program : Program} {line : Nat}
    {arms : List (Expr × List Stmt)} {last : Option (List Stmt)} {s : Session (Stage κ)} :
    let script := preprocess source
    let text := (modernize script).1
    let lineMap := (modernize script).2
    let numbers := lineMap.map Int.ofNat
    let h := host c classify
    let i := interpreter c (.buffer [] :: sinks)
    let start : Session (Stage κ) := ⟨i.machine, ⟨w, i.sinks⟩⟩
    let allowance := h.maxDepth.toNat
    parse text = .ok program →
    (.choose line arms last, s) ∈
      visitsBlock h (execExpand h allowance) none program (start.started numbers) →
    ∃ (tokens us headers : List Token) (first : Nat),
      tokenize text = .ok tokens ∧ us <:+: tokens ∧ Headed .ifWord arms us headers ∧
      headers.length = arms.length ∧ (∀ header ∈ headers, header.StandsIn text) ∧
      lineMap[line - 1]? = some first ∧
      ownNotices h (expandNotices h allowance) none (.choose line arms last, s) =
        (tried h line arms s).flatMap (fun x => valueNotices line x.1 x.2) ∧
      ∀ j condition s' error, (tried h line arms s)[j]? = some (condition, s') →
        evaluate s'.machine.bindings condition = .error error →
        ∃ header body written, headers[j]? = some header ∧ arms[j]? = some (condition, body) ∧
          lineMap[header.line - 1]? = some written ∧
          .report "EvalError" line error.message ∈ runNotices h text numbers start ∧
          (∀ report rest w', run c classify sinks source w = (.ok (report, rest), w') →
            s!"❌ EvalError on line {(first : Int)}: {error.message}" ∈ report.output) ∧
          (j = 0 → first = written) ∧ (0 < j → first < written) := by
  intro script text lineMap numbers h i start allowance hp hv
  obtain ⟨tokens, htokens, hd⟩ := derives_of_parse hp
  obtain ⟨ts, hts, hstmt⟩ := hd.of_has (occurs_of_visits hv)
  obtain ⟨us, vs, headers, rfl, hheaded, hhead⟩ := headed_of_choose hstmt
  have hus : us <:+: tokens := (List.prefix_append us vs).isInfix.trans hts
  have hline : 1 ≤ line ∧ line ≤ (lines text).length := line_of_parse hp (occurs_of_visits hv)
  obtain ⟨first, hfirst⟩ := exists_entry script hline
  refine ⟨tokens, us, headers, first, htokens, hus, hheaded, hheaded.length,
    hheaded.standsIn htokens hus.subset, hfirst, conditionNotices_eq,
    fun j condition s' error hj he => ?_⟩
  obtain ⟨body, harm⟩ := arm_of_tried hj
  have hlt : j < headers.length := by
    rw [hheaded.length]
    exact (List.getElem?_eq_some_iff.mp harm).1
  obtain ⟨header, hheader⟩ : ∃ header, headers[j]? = some header :=
    ⟨_, List.getElem?_eq_getElem hlt⟩
  have hmem : header ∈ tokens := hus.subset (hheaded.subset (List.mem_of_getElem? hheader))
  obtain ⟨written, hwritten⟩ := exists_entry script (line_of_tokenize htokens header hmem)
  have hnotice : .report "EvalError" line error.message ∈ runNotices h text numbers start := by
    rw [runNotices, hp]
    exact List.mem_flatMap.mpr ⟨_, hv, report_of_tried hj he⟩
  exact ⟨header, body, written, hheader, harm, hwritten, hnotice,
    fun report rest w' hrun => report_of_notice hrun hnotice hline.1 hfirst,
    origin_of_header script htokens hus.sublist hheaded hline.1 hhead hheader hfirst hwritten⟩

/-- The second condition has no value. It is written on the third line. -/
theorem conditions_reported_on_first_header_elif :
    let source := "if false:\n    neuro \"a\"\nelif -\"b\":\n    neuro \"c\"".toList
    let arms : List (Expr × List Stmt) :=
      [(.lit (.bool false), [.print 2 (.lit (.text "a"))]),
        (.neg (.lit (.text "b")), [.print 4 (.lit (.text "c"))])]
    parse (modernize (preprocess source)).1 = .ok [.choose 1 arms none] ∧
      (∃ header written : Nat, (modernize (preprocess source)).2[header - 1]? = some written ∧
        1 < written) ∧
      ∀ report rest w', run {} classifyByModel [] source ⟨{}, {}⟩ = (.ok (report, rest), w') →
        "❌ EvalError on line 1: cannot negate 'b'" ∈ report.output := by
  intro source arms
  have hp : parse (modernize (preprocess source)).1 = .ok [.choose 1 arms none] := rfl
  obtain ⟨tokens, us, headers, first, -, -, -, -, -, hfirst, -, hall⟩ :=
    conditions_reported_on_first_header {} classifyByModel [] source ⟨{}, {}⟩ hp (.head _)
  have hone : first = 1 := (Option.some.inj hfirst).symm
  obtain ⟨header, body, written, -, -, hwritten, -, hreport, -, habove⟩ :=
    hall 1 (.neg (.lit (.text "b"))) _ (.cannotNegate (.text "b")) rfl rfl
  rw [hone] at hreport habove
  exact ⟨hp, ⟨header.line, written, hwritten, habove (by decide)⟩, hreport⟩

end Scribe.Run
