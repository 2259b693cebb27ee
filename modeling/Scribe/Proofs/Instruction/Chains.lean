import Scribe.Proofs.Instruction.Clauses

/-!
# Chains of branches

A chain of arms is written as one sentence: each arm compares a variable with a number and has a
message of one word, and a last arm may have a message only. The sentence is cut at its `elif` and
`else`, so its script has two lines for every arm, in their order.
-/
namespace Scribe.Instruction
open Text Pattern Script

structure Digits where
  first : Char
  rest : List Char
  digits : ∀ c ∈ first :: rest, c.isDigit = true

def Digits.text (k : Digits) : List Char := k.first :: k.rest

/-- An arm of a chain: its condition compares a variable with a number, and its message is one
word. -/
structure Arm where
  subject : PlainWord
  op : Comparison
  number : Digits
  message : PlainWord

def Arm.condition (a : Arm) : List Char := compared a.subject.text a.op a.number.text

def Arm.text (a : Arm) : List Char := a.condition ++ (" say ".toList ++ a.message.text)

def chain (a : Arm) : List Arm → List Char
  | [] => a.text
  | b :: rest => a.text ++ (", elif ".toList ++ chain b rest)

def chainBody (a : Arm) (rest : List Arm) : Option PlainWord → List Char
  | none => chain a rest
  | some m => chain a rest ++ (", else say ".toList ++ m.text)

def chainSentence (a : Arm) (rest : List Arm) (last : Option PlainWord) : List Char :=
  ifSentence (chainBody a rest last)

namespace Digits
variable (k : Digits)

theorem forall_text {P : Char → Prop}
    (h : ∀ n : Fin 128, (Char.ofNat n).isDigit = true → P (Char.ofNat n)) : ∀ c ∈ k.text, P c := by
  intro c hc
  have hdigit := k.digits c hc
  have hascii : c.toNat < 128 := by
    simp only [Char.isDigit, Bool.and_eq_true, decide_eq_true_eq, UInt32.le_iff_toNat_le] at hdigit
    exact Nat.lt_of_le_of_lt hdigit.2 (by decide)
  exact forall_ascii (P := fun c => c.isDigit = true → P c) h hascii hdigit

theorem isDigit_text : ∀ c ∈ k.text, isDigit c = true := k.forall_text (by decide)

theorem getLast?_text : ∃ c ∈ k.text, k.text.getLast? = some c :=
  ⟨_, List.getLast_mem (List.cons_ne_nil _ _), List.getLast?_eq_some_getLast _⟩

end Digits

section Words
variable {ss : List String}

theorem Arm.lacks_condition (a : Arm) (hss : ss ⊆ steeringWords) : Lacks ss a.condition := by
  have hletters : OfLetters ss := fun s hs => ofLetters_steeringWords s (hss hs)
  have hsep : ∀ c ∈ ' ' :: (a.op.symbol.toList ++ [' ']), isWordChar c = false := by
    cases a.op <;> decide
  have h := Lacks.between (a.subject.lacks.mono hss) (lacks_digits a.number.isDigit_text hletters)
    (by simp) hsep
  simpa [Arm.condition, compared] using h

theorem Arm.lacks_text (a : Arm) (hss : ss ⊆ steeringWords) (hsay : "say" ∉ ss) : Lacks ss a.text :=
  Lacks.between (g := [' ']) (a.lacks_condition hss) (lacks_say a.message hss hsay) (by simp)
    (by decide)

theorem lacks_chain (hss : ss ⊆ steeringWords) (hsay : "say" ∉ ss) (helif : "elif" ∉ ss) (a : Arm)
    (rest : List Arm) : Lacks ss (chain a rest) := by
  induction rest generalizing a with
  | nil => exact a.lacks_text hss hsay
  | cons b rest ih =>
    have hmore : Lacks ss ("elif ".toList ++ chain b rest) :=
      Lacks.between (x := "elif".toList) (g := [' ']) (lacks_spelled (by decide) helif) (ih b)
        (by simp) (by decide)
    exact Lacks.between (g := [',', ' ']) (a.lacks_text hss hsay) hmore (by simp) (by decide)

end Words

namespace Arm
variable (a : Arm)

/-- The condition of an arm is rewritten to itself. -/
theorem condition_kept : Instruction.condition a.condition = a.condition := by
  have hname : isNameStart a.number.first = false :=
    a.number.forall_text (P := fun c => isNameStart c = false) (by decide) _ (by simp [Digits.text])
  obtain ⟨c, hc, hlast⟩ := a.number.getLast?_text
  have hmark : c ≠ ',' ∧ c ≠ ':' :=
    a.number.forall_text (P := fun c => c ≠ ',' ∧ c ≠ ':') (by decide) c hc
  exact condition_compared a.subject.text_ne_nil (a.subject.forall_text (by decide))
    (a.number.forall_text (by decide)) hname ⟨c, hlast, hmark⟩
    (a.lacks_condition comparisonHeads_steering)

/-- An arm is cut into its condition and its message. -/
theorem clause : branchClause? a.text = some (a.condition, a.message.text) := by
  obtain ⟨c, hc, hlast⟩ := a.number.getLast?_text
  have hgap : ∀ z, a.condition.getLast? = some z → ¬isClauseGap z := by
    intro z hz
    rw [condition, compared, List.getLast?_append, List.getLast?_cons, List.getLast?_append,
      List.getLast?_cons, hlast] at hz
    obtain rfl : c = z := by simpa using hz
    exact a.number.forall_text (P := fun c => ¬isClauseGap c) (by decide) c hc
  have hverbs : Lacks branchVerbs a.condition := a.lacks_condition (by decide)
  have hsay := branchClause?_say (c := a.condition) (List.cons_ne_nil _ _) a.subject.isBlank_first
    hverbs hgap a.message
  rw [a.condition_kept] at hsay
  exact hsay rfl

end Arm

/-- The word `elif` is cut out with its comma. -/
theorem elifCut_matched {c : List Char} (hc : c.head?.any isBlank = false) (before : List Char) :
    elifCut.matchAt before (", elif ".toList ++ c) =
      some ⟨before.reverse, ", elif ".toList, c, []⟩ := by
  have hend : (edge ++ blanks).run some ⟨some 'f', [' '] ++ c, []⟩ = some ⟨some ' ', c, []⟩ := by
    rw [run_append, run_edge rfl]
    exact run_many (by decide) hc rfl
  have hrun : (opt (oneOf ",;") ++ (blanks ++ (edge ++ (word "elif" ++ (edge ++ blanks))))).run some
      ⟨before.head?, ", elif ".toList ++ c, []⟩ = some ⟨some ' ', c, []⟩ := by
    rw [run_append]
    refine run_opt_some ((run_one rfl).trans ?_)
    rw [run_append]
    refine run_many (w := [' ']) (r := "elif".toList ++ ([' '] ++ c)) (by decide) rfl ?_
    rw [run_append, run_edge rfl, run_append]
    exact (run_word rfl).trans hend
  exact matchAt_of_run hrun

theorem head_chain (a : Arm) (rest : List Arm) : (chain a rest).head? = some a.subject.first := by
  cases rest <;> rfl

/-- A chain is cut into its arms. -/
theorem split_chain (a : Arm) (rest : List Arm) :
    elifCut.split (chain a rest) = (a :: rest).map Arm.text := by
  suffices hfrom : ∀ before,
      elifCut.splitFrom before 0 (chain a rest) = (a :: rest).map Arm.text from hfrom []
  have helif : OfLetters ["elif"] := by unfold OfLetters; decide
  have hlacks (a : Arm) : Lacks ["elif"] a.text := a.lacks_text (by decide) (by decide)
  induction rest generalizing a with
  | nil =>
    intro before
    have hnone := opens_elifCut.unmatched helif (hlacks a) (v := []) (.inl rfl) nofun before
    have hsplit := splitFrom_unmatched hnone rfl
    rwa [List.append_nil] at hsplit
  | cons b rest ih =>
    intro before
    have hfirst : (chain b rest).head?.any isBlank = false := by
      rw [head_chain]
      exact b.subject.isBlank_first
    have hletter : ∀ z, a.text.getLast? = some z → ¬isArmGap z := fun z hz =>
      not_isArmGap (u := a.condition ++ " say ".toList) a.message (by rwa [List.append_assoc])
    have hnone := opens_elifCut.unmatched helif (hlacks a) (v := ", elif ".toList ++ chain b rest)
      (.inr hletter) Bool.false_ne_true before
    have hrest := splitFrom_matched (elifCut_matched hfirst (a.text.reverse ++ before)) rfl
      (List.cons_ne_nil _ _)
    rw [ih b] at hrest
    have hsplit := splitFrom_unmatched hnone hrest
    rwa [List.append_nil] at hsplit

def Arm.lines (first : Bool) (a : Arm) : List (List Char) :=
  [(if first then "if ".toList else "elif ".toList) ++ a.condition ++ [':'],
    "    ".toList ++ printText a.message.text]

def linesOfArms (first : Bool) : List Arm → List (List Char)
  | [] => []
  | a :: rest => a.lines first ++ linesOfArms false rest

def linesOfLast : Option PlainWord → List (List Char)
  | none => []
  | some m => ["else:".toList, "    ".toList ++ printText m.text]

theorem armLines_arms (first : Bool) (arms : List Arm) :
    armLines first (arms.map Arm.text) = .ok (linesOfArms first arms) := by
  induction arms generalizing first with
  | nil => rfl
  | cons a rest ih =>
    rw [List.map_cons, armLines, a.clause]
    dsimp only
    rw [ih]
    rfl

theorem renderArms_chain (cs : List Char) (a : Arm) (rest : List Arm) (otherwise : List Char) :
    renderArms cs (chain a rest) otherwise =
      ⟨joinLines (linesOfArms true (a :: rest) ++ if otherwise.isEmpty then []
        else ["else:".toList, "    ".toList ++ printText otherwise]), []⟩ := by
  have hkept : ((a :: rest).map Arm.text).filter (fun part => !(trim part).isEmpty) =
      (a :: rest).map Arm.text := by
    rw [List.filter_eq_self]
    intro part hpart
    obtain ⟨b, -, rfl⟩ := List.mem_map.mp hpart
    rw [Arm.text, Arm.condition, compared, PlainWord.text, List.cons_append, List.cons_append,
      isEmpty_trim_cons b.subject.isBlank_first]
    rfl
  rw [renderArms, split_chain, hkept, armLines_arms]
  rfl

/-- A chain ends with a message. -/
theorem chain_ends (a : Arm) (rest : List Arm) :
    ∃ (u : List Char) (m : PlainWord), chain a rest = u ++ m.text ∧
      u.head? = some a.subject.first := by
  induction rest generalizing a with
  | nil => exact ⟨a.condition ++ " say ".toList, a.message, (List.append_assoc _ _ _).symm, rfl⟩
  | cons b rest ih =>
    obtain ⟨u, m, hu, -⟩ := ih b
    refine ⟨a.text ++ (", elif ".toList ++ u), m, ?_, rfl⟩
    rw [chain, hu, List.append_assoc, List.append_assoc]

/-- The characters of a chain are ASCII characters of one line. -/
theorem ascii_chain (a : Arm) (rest : List Arm) :
    ∀ c ∈ chain a rest, c.toNat < 128 ∧ c ≠ '\n' := by
  have hword (x : PlainWord) : ∀ c ∈ x.text, c.toNat < 128 ∧ c ≠ '\n' := x.forall_text (by decide)
  have harm (a : Arm) : ∀ c ∈ a.text, c.toNat < 128 ∧ c ≠ '\n' := by
    have hsymbol : ∀ c ∈ a.op.symbol.toList, c.toNat < 128 ∧ c ≠ '\n' := by cases a.op <;> decide
    have hcondition : ∀ c ∈ a.condition, c.toNat < 128 ∧ c ≠ '\n' :=
      List.forall_mem_append.mpr ⟨hword _, List.forall_mem_cons.mpr ⟨by decide,
        List.forall_mem_append.mpr ⟨hsymbol, List.forall_mem_cons.mpr ⟨by decide,
          a.number.forall_text (by decide)⟩⟩⟩⟩
    exact List.forall_mem_append.mpr ⟨hcondition, List.forall_mem_append.mpr ⟨by decide, hword _⟩⟩
  induction rest generalizing a with
  | nil => exact harm a
  | cons b rest ih =>
    exact List.forall_mem_append.mpr ⟨harm a, List.forall_mem_append.mpr ⟨by decide, ih b⟩⟩

theorem ascii_chainSentence (a : Arm) (rest : List Arm) (last : Option PlainWord) :
    ∀ c ∈ chainSentence a rest last, c.toNat < 128 := by
  have hchain : ∀ c ∈ chain a rest, c.toNat < 128 := fun c hc => (ascii_chain a rest c hc).1
  have hbody : ∀ c ∈ chainBody a rest last, c.toNat < 128 := by
    cases last with
    | none => exact hchain
    | some m =>
      exact List.forall_mem_append.mpr ⟨hchain, List.forall_mem_append.mpr ⟨by decide,
        m.forall_text (by decide)⟩⟩
  have hif : ∀ c ∈ ['I', 'f', ' '], c.toNat < 128 := by decide
  exact List.forall_mem_append.mpr ⟨hif, hbody⟩

theorem trim_chainSentence (a : Arm) (rest : List Arm) (last : Option PlainWord) :
    trim (chainSentence a rest last) = chainSentence a rest last := by
  cases last with
  | none =>
    obtain ⟨u, m, hu, -⟩ := chain_ends a rest
    rw [chainSentence, chainBody, hu]
    exact trim_ifSentence u m
  | some m =>
    rw [chainSentence, chainBody, ← List.append_assoc]
    exact trim_ifSentence _ m

/-- The script of a chain. -/
theorem renderBranch_chain (a : Arm) (rest : List Arm) (last : Option PlainWord) :
    renderBranch (chainSentence a rest last) =
      ⟨joinLines (linesOfArms true (a :: rest) ++ linesOfLast last), []⟩ := by
  have hlacks : Lacks ["else", "otherwise"] (chain a rest) :=
    lacks_chain (by decide) (by decide) (by decide) a rest
  have hline : OneLine (chain a rest) := fun c hc => (ascii_chain a rest c hc).2
  obtain ⟨u, m, hu, hhead⟩ := chain_ends a rest
  cases last with
  | none =>
    rw [chainSentence, chainBody]
    rw [hu] at hlacks hline ⊢
    rw [renderBranch_arms hhead a.subject.isBlank_first hlacks hline, ← hu, renderArms_chain]
    rfl
  | some m' =>
    rw [chainSentence, chainBody]
    rw [hu] at hlacks ⊢
    rw [renderBranch_else hhead a.subject.isBlank_first hlacks, ← hu, renderArms_chain]
    rfl

end Scribe.Instruction
