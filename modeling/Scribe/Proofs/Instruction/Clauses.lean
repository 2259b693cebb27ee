import Scribe.Instruction.Template.Branch
import Scribe.Proofs.Instruction.Conditions

/-!
# The clauses of a branch

The condition of a clause reaches to the first verb that displays, and its message from there to
the end.
-/
namespace Scribe.Instruction
open Text Pattern

/-- A pattern whose first group is as short as what follows allows cuts a text at the first place
where what follows fits. -/
theorem matchStart_cut {p q : Pattern} {f : Char → Bool} {x : Char} {w r : List Char}
    {d : Option Char} {g : List (Nat × List Char)}
    (hp : ∀ c : Cursor, p.run some c = (atStart ++ (group 1 (lazySome1 (one f)) ++ q)).run some c)
    (hf : ∀ c ∈ x :: w, f c = true)
    (hnone : ∀ u y v, w = u ++ y :: v →
      ∀ g, q.run some ⟨(x :: u).getLast?, y :: (v ++ r), g⟩ = none)
    (hq : q.run some ⟨(x :: w).getLast?, r, [(1, x :: w)]⟩ = some ⟨d, [], g⟩) :
    p.matchStart (x :: w ++ r) = some ⟨[], x :: w ++ r, [], g⟩ := by
  have hgroup : (group 1 (lazySome1 (one f)) ++ q).run some ⟨none, x :: w ++ r, []⟩ =
      some ⟨d, [], g⟩ := by
    refine run_lazySome1 hf (fun u y v huv => hnone u y v huv _) ?_
    rw [cover_append 1 (x :: w) r none]
    exact hq
  have hrun : p.run some ⟨[].head?, x :: w ++ r ++ [], []⟩ = some ⟨d, [], g⟩ := by
    rw [List.append_nil]
    exact (hp _).trans hgroup
  have hmatch := matchAt_of_run hrun
  rwa [List.append_nil] at hmatch

def branchVerbs : List String := ["say", "print", "output", "show", "display", "echo"]

def clauseTail : Pattern :=
  blanks ++ (opt (oneOf ",:") ++ (blanks ++ (opt (word "then" ++ blanks1) ++ (edge ++
    (branchVerb ++ (blanks1 ++ (group 2 (lazySome1 anything) ++ atEnd)))))))

def isClauseGap (c : Char) : Prop :=
  isBlank c = true ∨ c ∈ [',', ':'] ∨ foldCase c ∈ "then".toList

instance : DecidablePred isClauseGap :=
  fun c => inferInstanceAs
    (Decidable (isBlank c = true ∨ c ∈ [',', ':'] ∨ foldCase c ∈ "then".toList))

theorem opens_clauseTail : Opens isClauseGap branchVerbs clauseTail := by
  have hverb : Opens isClauseGap branchVerbs (edge ++ (branchVerb ++ (blanks1 ++
      (group 2 (lazySome1 anything) ++ atEnd)))) :=
    opens_words (by unfold OfLetters; decide) (closes_blanks1.append _)
  have hblank : blanks.Only isClauseGap := fun c hc => .inl hc
  refine (((hverb.front ?_).front hblank).front ?_).front hblank
  · exact ⟨⟨only_word fun c hc => .inr (.inr hc), hblank, hblank⟩, trivial⟩
  · exact ⟨fun c hc => .inr (.inl (List.contains_iff_mem.mp hc)), trivial⟩

/-- The rest of a line is taken by a group in front of the end. -/
theorem run_to_end {x : Char} {w : List Char} (hline : ∀ c ∈ x :: w, c ≠ '\n') (n : Nat)
    (b : Option Char) (g : List (Nat × List Char)) :
    (group n (lazySome1 anything) ++ atEnd).run some ⟨b, x :: w, g⟩ =
      some ⟨(x :: w).getLast?, [], (n, x :: w) :: g⟩ := by
  have hstop (d : Cursor) (hd : d.rest ≠ [] ∧ ∀ c ∈ d.rest, c ≠ '\n') :
      atEnd.run some (Cursor.cover ⟨b, x :: w, g⟩ n d) = none := by
    have hne : d.rest ≠ ['\n'] := by
      intro heq
      exact hd.2 '\n' (by rw [heq]; simp) rfl
    simp [run, Cursor.cover, hd.1, hne]
  have hend : atEnd.run some (Cursor.cover ⟨b, x :: w, g⟩ n ⟨(x :: w).getLast?, [], g⟩) =
      some ⟨(x :: w).getLast?, [], (n, x :: w) :: g⟩ := by
    have hcover := cover_append n (x :: w) [] b (x :: w).getLast? g g
    rw [List.append_nil] at hcover
    rw [hcover]
    rfl
  have hrun := run_lazySome1 (k := fun d => atEnd.run some (Cursor.cover ⟨b, x :: w, g⟩ n d))
    (b := b) (r := []) (fun _ _ => rfl) (fun u y v huv => hstop _ ⟨List.cons_ne_nil _ _, ?_⟩) hend
  · rwa [List.append_nil] at hrun
  · intro c hc
    have hmem : c ∈ y :: v := by simpa using hc
    refine hline c (List.mem_cons_of_mem x ?_)
    rw [huv]
    exact List.mem_append_right u hmem

/-- The verb `say` and a message end a clause. -/
theorem clauseTail_say {m : PlainWord} {b : Option Char} (g : List (Nat × List Char)) :
    ∃ d, clauseTail.run some ⟨b, " say ".toList ++ m.text, g⟩ = some ⟨d, [], (2, m.text) :: g⟩ := by
  have hblank : m.text.head?.any isBlank = false := m.isBlank_first
  have hmessage := run_to_end (x := m.first) (w := m.rest)
    (m.forall_text (by decide)) 2 (some ' ') g
  have hspace : (blanks1 ++ (group 2 (lazySome1 anything) ++ atEnd)).run some
      ⟨some 'y', [' '] ++ m.text, g⟩ = some _ :=
    run_some1 (w := [' ']) (k := (group 2 (lazySome1 anything) ++ atEnd).run some) (by simp)
      (by decide) hblank hmessage
  have hverb : (edge ++ (branchVerb ++ (blanks1 ++ (group 2 (lazySome1 anything) ++ atEnd)))).run
      some ⟨some ' ', "say".toList ++ (' ' :: m.text), g⟩ = some _ :=
    (run_edge rfl).trans (run_or_left ((run_word rfl).trans hspace))
  refine ⟨m.text.getLast?, ?_⟩
  rw [clauseTail, run_append]
  refine run_many (w := [' ']) (r := "say ".toList ++ m.text) (by decide) rfl ?_
  rw [run_append]
  refine run_opt_none rfl ?_
  rw [run_append]
  refine run_many (w := []) nofun rfl ?_
  rw [run_append]
  exact run_opt_none rfl hverb

/-- A clause is cut at its first verb. -/
theorem verbClause_say {c : List Char} (hne : c ≠ []) (hlacks : Lacks branchVerbs c)
    (hlast : ∀ z, c.getLast? = some z → ¬isClauseGap z) (m : PlainWord) :
    verbClause.matchStart (c ++ (" say ".toList ++ m.text)) =
      some ⟨[], c ++ (" say ".toList ++ m.text), [], [(2, m.text), (1, c)]⟩ := by
  obtain ⟨x, w, rfl⟩ := List.exists_cons_of_ne_nil hne
  have hverbs : OfLetters branchVerbs := by unfold OfLetters; decide
  obtain ⟨d, htail⟩ := clauseTail_say (m := m) (b := (x :: w).getLast?) [(1, x :: w)]
  refine matchStart_cut (q := clauseTail) (fun _ => rfl) (fun _ _ => rfl) (fun u y v huv g => ?_) htail
  have hcut : x :: w = (x :: u) ++ y :: v := by rw [huv, List.cons_append]
  have hnone := opens_clauseTail.run_eq_none hverbs hlacks (.inr hlast)
    (v := " say ".toList ++ m.text) nofun hcut some none
  rw [Option.or_none] at hnone
  exact hnone g

/-- A text that ends with a plain word has nothing to drop at its end. -/
theorem dropEndWhile_plain {p : Char → Bool} (m : PlainWord) (hp : ∀ c ∈ m.text, p c = false)
    (u : List Char) : dropEndWhile p (u ++ m.text) = u ++ m.text :=
  dropEndWhile_eq_self (m.getLast?_any hp u)

theorem trim_plain {u : List Char} (hne : u ≠ []) (hu : u.head?.any isBlank = false)
    (m : PlainWord) : trim (u ++ m.text) = u ++ m.text := by
  obtain ⟨x, w, rfl⟩ := List.exists_cons_of_ne_nil hne
  exact trimWhile_eq_self hu (m.getLast?_any (m.forall_text (by decide)) _)

theorem branchClause?_say {c : List Char} (hne : c ≠ []) (hc : c.head?.any isBlank = false)
    (hlacks : Lacks branchVerbs c) (hlast : ∀ z, c.getLast? = some z → ¬isClauseGap z)
    (m : PlainWord) (hcondition : (condition c).isEmpty = false) :
    branchClause? (c ++ (" say ".toList ++ m.text)) = some (condition c, m.text) := by
  have hne' : c ++ " say ".toList ≠ [] := by simp
  have hc' : (c ++ " say ".toList).head?.any isBlank = false := by
    obtain ⟨x, w, rfl⟩ := List.exists_cons_of_ne_nil hne
    exact hc
  have htrim := trim_plain hne' hc' m
  have hdrop := dropEndWhile_plain (p := fun c => c == ',' || c == ';') m
    (m.forall_text (by decide)) (c ++ " say ".toList)
  rw [List.append_assoc] at htrim hdrop
  have hgroup : (Match.mk [] (c ++ (" say ".toList ++ m.text)) [] [(2, m.text), (1, c)]).group 1 =
      c := rfl
  rw [branchClause?, htrim, hdrop, htrim, verbClause_say hne hlacks hlast]
  dsimp only
  rw [hgroup, hcondition]
  exact congrArg (fun message => some (condition c, message)) m.payload_text

def elseTail : Pattern :=
  opt (oneOf ",;") ++ (blanks ++ (edge ++ (word "else" ++ (edge ++ (opt (oneOf ",:") ++ (blanks ++
    (opt (word "then" ++ blanks1) ++ (opt (branchVerb ++ blanks1) ++ group 2 (some1 anything)))))))))

def isArmGap (c : Char) : Prop := isBlank c = true ∨ c ∈ [',', ';']

instance : DecidablePred isArmGap :=
  fun c => inferInstanceAs (Decidable (isBlank c = true ∨ c ∈ [',', ';']))

/-- A plain word is no gap. -/
theorem not_isArmGap {u : List Char} (m : PlainWord) {z : Char}
    (h : (u ++ m.text).getLast? = some z) : ¬isArmGap z :=
  m.forall_text (P := fun c => ¬isArmGap c) (by decide) z (m.mem_of_getLast? h)

theorem opens_elseTail : Opens isArmGap ["else"] elseTail := by
  have helse : Opens isArmGap ["else"] (edge ++ (word "else" ++ (edge ++ (opt (oneOf ",:") ++
      (blanks ++ (opt (word "then" ++ blanks1) ++ (opt (branchVerb ++ blanks1) ++
        group 2 (some1 anything)))))))) :=
    opens_word (by unfold OfLetters; decide) (closes_edge.append _)
  have hblank : blanks.Only isArmGap := fun c hc => .inl hc
  have hmark : (opt (oneOf ",;")).Only isArmGap :=
    ⟨fun c hc => .inr (List.contains_iff_mem.mp hc), trivial⟩
  exact (helse.front hblank).front hmark

theorem elseForm_run (c : Cursor) : elseForm.run some c =
    (atStart ++ (group 1 (lazySome1 anything) ++ (opt elseTail ++ atEnd))).run some c := rfl

theorem ofLetters_else : OfLetters ["else"] := by
  unfold OfLetters
  decide

theorem elseTail_early {x y : Char} {w u v r : List Char} (hlacks : Lacks ["else"] (x :: w))
    (hlast : r = [] ∨ ∀ z, (x :: w).getLast? = some z → ¬isArmGap z) (hr : ¬OpenStart r)
    (hend : y :: (v ++ r) ≠ ['\n']) (hcut : w = u ++ y :: v) (g : List (Nat × List Char)) :
    (opt elseTail ++ atEnd).run some ⟨(x :: u).getLast?, y :: (v ++ r), g⟩ = none := by
  have hwhole : x :: w = (x :: u) ++ y :: v := by rw [hcut, List.cons_append]
  have hnone := opens_elseTail.run_eq_none ofLetters_else hlacks hlast hr hwhole
    (atEnd.run some) none g
  rw [Option.or_none] at hnone
  have hmore : (y :: (v ++ r) == ['\n']) = false := beq_eq_false_iff_ne.mpr hend
  rw [run_append]
  refine (run_or_right hnone).trans ?_
  simp only [run, List.isEmpty_cons, hmore, Bool.or_false, Bool.false_eq_true, if_false]

/-- A text without `else` is left as a whole. -/
theorem elseForm_absent {c : List Char} (hne : c ≠ []) (hlacks : Lacks ["else"] c)
    (hline : OneLine c) : elseForm.matchStart c = some ⟨[], c, [], [(1, c)]⟩ := by
  obtain ⟨x, w, rfl⟩ := List.exists_cons_of_ne_nil hne
  have hend : (opt elseTail ++ atEnd).run some ⟨(x :: w).getLast?, [], [(1, x :: w)]⟩ =
      some ⟨(x :: w).getLast?, [], [(1, x :: w)]⟩ := by
    rw [run_append]
    exact run_opt_none (opens_elseTail.run_nil ofLetters_else _ _ _) rfl
  have hcut := matchStart_cut (r := []) (w := w) elseForm_run (fun _ _ => rfl) (fun u y v huv g => ?_) hend
  · rwa [List.append_nil] at hcut
  · refine elseTail_early hlacks (.inl rfl) nofun (fun heq => ?_) huv g
    obtain ⟨rfl, -⟩ := List.cons_eq_cons.mp heq
    exact hline '\n' (by rw [huv]; simp) rfl

/-- The word `else`, the verb `say` and a message end the arms. -/
theorem elseTail_say {m : PlainWord} {b : Option Char} (g : List (Nat × List Char)) :
    (opt elseTail ++ atEnd).run some ⟨b, ", else say ".toList ++ m.text, g⟩ =
      some ⟨m.text.getLast?.or (some ' '), [], (2, m.text) :: g⟩ := by
  have hblank : m.text.head?.any isBlank = false := m.isBlank_first
  have hmessage : (group 2 (some1 anything)).run (atEnd.run some) ⟨some ' ', m.text, g⟩ =
      some ⟨m.text.getLast?.or (some ' '), [], (2, m.text) :: g⟩ := by
    have hend : atEnd.run some (Cursor.cover ⟨some ' ', m.text ++ [], g⟩ 2
        ⟨m.text.getLast?.or (some ' '), [], g⟩) =
        some ⟨m.text.getLast?.or (some ' '), [], (2, m.text) :: g⟩ := by
      rw [cover_append]
      rfl
    have hrun := run_some1 (w := m.text) (f := fun _ => true) (b := some ' ')
      (k := fun d => atEnd.run some (Cursor.cover ⟨some ' ', m.text ++ [], g⟩ 2 d))
      (List.cons_ne_nil _ _) (fun _ _ => rfl) rfl hend
    rwa [List.append_nil] at hrun
  generalize (⟨m.text.getLast?.or (some ' '), [], (2, m.text) :: g⟩ : Cursor) = done at hmessage ⊢
  have hverb : (opt (branchVerb ++ blanks1) ++ group 2 (some1 anything)).run (atEnd.run some)
      ⟨some ' ', "say".toList ++ (' ' :: m.text), g⟩ = some done := by
    rw [run_append]
    refine run_opt_some ?_
    rw [run_append]
    exact run_or_left ((run_word rfl).trans
      (run_some1 (w := [' ']) (by simp) (by decide) hblank hmessage))
  have helse : (edge ++ (opt (oneOf ",:") ++ (blanks ++ (opt (word "then" ++ blanks1) ++
      (opt (branchVerb ++ blanks1) ++ group 2 (some1 anything)))))).run (atEnd.run some)
      ⟨some 'e', " say ".toList ++ m.text, g⟩ = some done := by
    rw [run_append, run_edge rfl, run_append]
    refine run_opt_none rfl ?_
    rw [run_append]
    refine run_many (w := [' ']) (r := "say ".toList ++ m.text) (by decide) rfl ?_
    rw [run_append]
    exact run_opt_none rfl hverb
  rw [run_append]
  refine run_opt_some ?_
  rw [elseTail, run_append]
  refine run_opt_some ((run_one rfl).trans ?_)
  rw [run_append]
  refine run_many (w := [' ']) (r := "else".toList ++ (" say ".toList ++ m.text)) (by decide) rfl ?_
  rw [run_append, run_edge rfl, run_append]
  exact (run_word rfl).trans helse

/-- An arm without a condition is cut off. -/
theorem elseForm_say {c : List Char} (hne : c ≠ []) (hlacks : Lacks ["else"] c)
    (hlast : ∀ z, c.getLast? = some z → ¬isArmGap z) (m : PlainWord) :
    elseForm.matchStart (c ++ (", else say ".toList ++ m.text)) =
      some ⟨[], c ++ (", else say ".toList ++ m.text), [], [(2, m.text), (1, c)]⟩ := by
  obtain ⟨x, w, rfl⟩ := List.exists_cons_of_ne_nil hne
  have hapart : ¬OpenStart (", else say ".toList ++ m.text) := Bool.false_ne_true
  refine matchStart_cut elseForm_run (fun _ _ => rfl) (fun u y v huv g => ?_) (elseTail_say _)
  exact elseTail_early hlacks (.inr hlast) hapart (by simp) huv g

theorem opens_elifCut : Opens isArmGap ["elif"] elifCut := by
  have helif : Opens isArmGap ["elif"] (edge ++ (word "elif" ++ (edge ++ blanks))) :=
    opens_word (by unfold OfLetters; decide) (closes_edge.append _)
  have hblank : blanks.Only isArmGap := fun c hc => .inl hc
  have hmark : (opt (oneOf ",;")).Only isArmGap :=
    ⟨fun c hc => .inr (List.contains_iff_mem.mp hc), trivial⟩
  simp only [elifCut, opens_assoc]
  exact (helif.front hblank).front hmark

/-- A single arm has two lines. -/
theorem renderArms_single {cs arm test message : List Char} (harm : Lacks ["elif"] arm)
    (hne : (trim arm).isEmpty = false) (hclause : branchClause? arm = some (test, message)) :
    renderArms cs arm [] =
      ⟨joinLines ["if ".toList ++ test ++ [':'], "    ".toList ++ printText message], []⟩ := by
  have hnone := opens_elifCut.unmatched (by unfold OfLetters; decide) harm (v := []) (.inl rfl)
    nofun []
  have hsplit : elifCut.split (arm ++ []) = [arm ++ []] := splitFrom_unmatched hnone rfl
  rw [List.append_nil] at hsplit
  simp [renderArms, hsplit, hne, armLines, hclause, Except.map]

def ifSentence (body : List Char) : List Char := 'I' :: 'f' :: ' ' :: body

theorem ifSentence_ne_nil (body : List Char) : ifSentence body ≠ [] := List.cons_ne_nil _ _

theorem ifSentence_append (a b : List Char) : ifSentence a ++ b = ifSentence (a ++ b) := rfl

section Sentences
variable {y : Char} {w : List Char}

theorem lacks_ifSentence {ss : List String} {body : List Char} (hbody : Lacks ss body)
    (hif : ∀ s ∈ ss, ['i', 'f'] ≠ s.toList) : Lacks ss (ifSentence body) :=
  Lacks.between (x := ['I', 'f']) (g := [' ']) (lacks_word (by decide) hif) hbody (by simp)
    (by decide)

/-- A message of one plain word behind the verb `say`. -/
theorem lacks_say {ss : List String} (m : PlainWord) (hss : ss ⊆ steeringWords)
    (hsay : "say" ∉ ss) : Lacks ss ("say ".toList ++ m.text) :=
  Lacks.between (x := "say".toList) (g := [' ']) (lacks_spelled (by decide) hsay)
    (m.lacks.mono hss) (by simp) (by decide)

theorem otherwise_kept {cs : List Char} (h : Lacks ["otherwise"] cs) :
    (edge ++ word "otherwise" ++ edge).replace "else" cs = cs := by
  have hletters : OfLetters ["otherwise"] := by unfold OfLetters; decide
  have hopens : Opens (fun _ => False) ["otherwise"] (edge ++ word "otherwise" ++ edge) := by
    rw [opens_assoc]
    exact opens_word hletters closes_edge
  exact replace_of_lacks hopens hletters h "else"

theorem opens_elseIf : Opens (fun _ => False) ["else"]
    (edge ++ word "else" ++ blanks1 ++ word "if" ++ edge) := by
  simp only [opens_assoc]
  exact opens_word ofLetters_else (closes_blanks1.append (word "if" ++ edge))

theorem elseIf_kept {cs : List Char} (h : Lacks ["else"] cs) :
    (edge ++ word "else" ++ blanks1 ++ word "if" ++ edge).replace "elif" cs = cs :=
  replace_of_lacks opens_elseIf ofLetters_else h _

/-- A single `else` in front of a verb is no `else if`. -/
theorem elseIf_kept_say {cs : List Char} (h : Lacks ["else"] cs) (m : PlainWord) :
    (edge ++ word "else" ++ blanks1 ++ word "if" ++ edge).replace "elif"
      (cs ++ (", else say ".toList ++ m.text)) = cs ++ (", else say ".toList ++ m.text) := by
  have hcomma : Lacks ["else"] (cs ++ [',']) :=
    Lacks.between (y := []) (g := [',']) h (lacks_apart nofun) (by simp) (by decide)
  have hrest : Lacks ["else"] ("lse say ".toList ++ m.text) :=
    Lacks.between (x := "lse".toList) (g := [' ']) (lacks_spelled (by decide) (by decide))
      (lacks_say m (by decide) (by decide)) (by simp) (by decide)
  have htext : cs ++ (", else say ".toList ++ m.text) =
      cs ++ [','] ++ (' ' :: 'e' :: ("lse say ".toList ++ m.text)) := by simp
  refine replaceWith_of_unmatched ?_
  rw [htext]
  refine .append (opens_elseIf.unmatched ofLetters_else hcomma (.inr fun _ _ => id) ?_ []) ?_
  · exact Bool.false_ne_true
  rw [List.reverse_append]
  exact .cons rfl (.cons rfl (opens_elseIf.unmatched ofLetters_else hrest (.inl rfl) nofun _))

theorem whenForm_if (cs : List Char) : whenForm.matchStart (ifSentence cs) = none := rfl

/-- The arms of a sentence are what follows the word `if`. -/
theorem dropFront_if (hy : isBlank y = false) :
    (word "if" ++ blanks1).dropFront (ifSentence (y :: w)) = y :: w := by
  have hrun : (word "if" ++ blanks1).run some ⟨none, "If".toList ++ ([' '] ++ y :: w), []⟩ =
      some ⟨some ' ', y :: w, []⟩ :=
    (run_word rfl).trans (run_some1 (w := [' ']) (by simp) (by decide) hy rfl)
  have hmatch : (word "if" ++ blanks1).matchAt [] ("If ".toList ++ y :: w) =
      some ⟨[], "If ".toList, y :: w, []⟩ := matchAt_of_run hrun
  have hstart : (word "if" ++ blanks1).matchStart (ifSentence (y :: w)) =
      some ⟨[], "If ".toList, y :: w, []⟩ := hmatch
  rw [dropFront, hstart]

theorem trim_ifSentence (body : List Char) (m : PlainWord) :
    trim (ifSentence (body ++ m.text)) = ifSentence (body ++ m.text) :=
  trim_plain (ifSentence_ne_nil body) rfl m

/-- The arms of a sentence, and what stands behind its `else`. -/
theorem renderBranch_of_found {cs : List Char} {found : Match}
    (htrim : trim (ifSentence cs) = ifSentence cs)
    (hotherwise : Lacks ["otherwise"] (ifSentence cs))
    (helseIf : (edge ++ word "else" ++ blanks1 ++ word "if" ++ edge).replace "elif"
      (ifSentence cs) = ifSentence cs)
    (hfound : elseForm.matchStart (ifSentence cs) = some found)
    (hhead : trim (found.group 1) = ifSentence (y :: w)) (hy : isBlank y = false) :
    renderBranch (ifSentence cs) =
      renderArms (ifSentence cs) (y :: w) (((found.group? 2).map payload).getD []) := by
  rw [renderBranch, htrim, whenForm_if]
  dsimp only
  rw [otherwise_kept hotherwise, helseIf, htrim, hfound]
  have hstart : ((word "if" ++ blank).matchStart (ifSentence (y :: w))).isNone = false := rfl
  simp only [Option.map_some, Option.getD_some, Option.bind_some, hhead, hstart,
    Bool.false_eq_true, if_false, dropFront_if hy]

variable {u : List Char} {m m' : PlainWord}

/-- A sentence without `else` has no other arms than those of its body. -/
theorem renderBranch_arms (hu : u.head? = some y) (hy : isBlank y = false)
    (hlacks : Lacks ["else", "otherwise"] (u ++ m.text)) (hline : OneLine (u ++ m.text)) :
    renderBranch (ifSentence (u ++ m.text)) =
      renderArms (ifSentence (u ++ m.text)) (u ++ m.text) [] := by
  obtain ⟨w, rfl⟩ := List.head?_eq_some_iff.mp hu
  have hall := lacks_ifSentence hlacks (by decide)
  have helse : Lacks ["else"] (ifSentence (y :: w ++ m.text)) := hall.mono (by decide)
  have hif : OneLine ['I', 'f', ' '] := by decide
  have hsentence : OneLine (ifSentence (y :: w ++ m.text)) := oneLine_append.mpr ⟨hif, hline⟩
  have htrim := trim_ifSentence (y :: w) m
  exact renderBranch_of_found htrim (hall.mono (by decide)) (elseIf_kept helse)
    (elseForm_absent (ifSentence_ne_nil _) helse hsentence) htrim hy

/-- The arm without a condition prints the message behind `else`. -/
theorem renderBranch_else (hu : u.head? = some y) (hy : isBlank y = false)
    (hlacks : Lacks ["else", "otherwise"] (u ++ m.text)) :
    renderBranch (ifSentence (u ++ m.text ++ (", else say ".toList ++ m'.text))) =
      renderArms (ifSentence (u ++ m.text ++ (", else say ".toList ++ m'.text)))
        (u ++ m.text) m'.text := by
  obtain ⟨w, rfl⟩ := List.head?_eq_some_iff.mp hu
  have hall := lacks_ifSentence hlacks (by decide)
  have helse : Lacks ["else"] (ifSentence (y :: w ++ m.text)) := hall.mono (by decide)
  have hwhole := trim_ifSentence (y :: w ++ m.text ++ ", else say ".toList) m'
  rw [List.append_assoc] at hwhole
  have hlast : ∀ z, (ifSentence (y :: w ++ m.text)).getLast? = some z → ¬isArmGap z :=
    fun z hz => not_isArmGap (u := 'I' :: 'f' :: ' ' :: y :: w) m hz
  have hsay : Lacks ["otherwise"] ("else say ".toList ++ m'.text) :=
    Lacks.between (x := "else".toList) (g := [' ']) (lacks_spelled (by decide) (by decide))
      (lacks_say m' (by decide) (by decide)) (by simp) (by decide)
  have hotherwise : Lacks ["otherwise"]
      (ifSentence (y :: w ++ m.text) ++ (", else say ".toList ++ m'.text)) :=
    Lacks.between (g := [',', ' ']) (hall.mono (by decide)) hsay (by simp) (by decide)
  have hkept := elseIf_kept_say helse m'
  have hfound := elseForm_say (ifSentence_ne_nil _) helse hlast m'
  rw [ifSentence_append] at hotherwise hkept hfound
  have hrender := renderBranch_of_found hwhole hotherwise hkept hfound
    (trim_ifSentence (y :: w) m) hy
  have hmessage : ([(2, m'.text), (1, ifSentence (y :: w ++ m.text))].lookup 2).map payload =
      some m'.text := congrArg some m'.payload_text
  rwa [Match.group?, hmessage] at hrender

end Sentences

end Scribe.Instruction
