import Scribe.Proofs.Instruction.Chains
import Scribe.Proofs.Script.DraftReading

/-!
# Reading the script of a chain

The script of a chain is one choice: it has an arm for every arm of the chain, whose condition is
the comparison as it was written, and the last arm if there is one. Every block prints one message.
-/
namespace Scribe

namespace Instruction
open Script

def Digits.value (k : Digits) : Float := (Decimal.read? k.text).getD 0.0

def Arm.test (a : Arm) : Expr :=
  .compare (.var (String.ofList a.subject.text)) [(a.op, .lit (.number a.number.value))]

def messageBlock (line : Nat) (m : PlainWord) : List Stmt :=
  [.print line (.lit (.text (String.ofList m.text)))]

def armTrees (line : Nat) : List Arm → List (Expr × List Stmt)
  | [] => []
  | a :: rest => (a.test, messageBlock (line + 1) a.message) :: armTrees (line + 2) rest

def Arm.holds (b : Bindings) (a : Arm) : Bool :=
  compareValues a.op (b.get (String.ofList a.subject.text)) (.number a.number.value)

theorem evaluate_test (b : Bindings) (a : Arm) : evaluate b a.test = .ok (.bool (a.holds b)) := by
  simp only [Arm.test, evaluate, evaluateChain, Arm.holds, bind, Except.bind]
  cases compareValues a.op (b.get (String.ofList a.subject.text)) (.number a.number.value) <;> rfl

def chainProgram (a : Arm) (rest : List Arm) (last : Option PlainWord) : Program :=
  let arms := a :: rest
  [.choose 1 (armTrees 1 arms) (last.map (messageBlock (2 * arms.length + 2)))]

end Instruction

namespace Script
open Text Instruction Draft

variable {d line : Nat}

def numeral (k : Digits) : Numeral where
  first := k.first
  whole := k.rest
  part := []
  whole_digits := k.isDigit_text
  part_digits := nofun

theorem numeral_text (k : Digits) : (numeral k).text = k.text := List.append_nil _

theorem numeral_value (k : Digits) : (numeral k).value = k.value := by
  rw [Numeral.value, numeral_text]
  rfl

theorem piece_arm (a : Arm) (line : Nat) :
    Piece line a.condition (Derives (.expr .orTest a.test)) := by
  have hrest : Piece line (Comparisons.one a.op (.number (numeral a.number))).text _ :=
    Comparisons.piece _
  have h := piece_comparison (piece_name a.subject.name) hrest
  simp only [Comparisons.text, Term.text, numeral_text, Comparisons.trees, Term.tree,
    numeral_value] at h
  exact h

def messageDraft (m : PlainWord) : Block := .one (.print (.string (String.ofList m.text)))

theorem lines_messageDraft (m : PlainWord) :
    indented (messageDraft m).lines = ["    ".toList ++ printText m.text] :=
  congrArg (fun text => ["    ".toList ++ ("neuro ".toList ++ quote text)]) String.toList_ofList

theorem trees_messageDraft (m : PlainWord) (line : Nat) :
    (messageDraft m).trees line = messageBlock line m := rfl

theorem laid_message (m : PlainWord) (d line : Nat) :
    Laid d line (messageDraft m).lines (Derives (.stmts (messageBlock line m))) :=
  (messageDraft m).laid d line

theorem linesOfArms_cons (first : Bool) (a : Arm) (rest : List Arm) (ls : List (List Char)) :
    linesOfArms first (a :: rest) ++ ls =
      ((if first then "if ".toList else "elif ".toList) ++ (a.condition ++ [':'])) ::
        indented (messageDraft a.message).lines ++ (linesOfArms false rest ++ ls) := by
  rw [lines_messageDraft, linesOfArms, Arm.lines, List.append_assoc, List.append_assoc]

theorem starts_rest (rest : List Arm) (last : Option PlainWord) :
    Starts (linesOfArms false rest ++ linesOfLast last) := by
  cases rest with
  | cons a rest =>
    rw [linesOfArms_cons]
    exact .inr ⟨_, _, _, rfl, codeLine_elif (piece_arm a)⟩
  | nil =>
    cases last with
    | none => exact .inl rfl
    | some m => exact .inr ⟨_, _, _, rfl, codeLine_else⟩

/-- The further arms and the last one. -/
theorem laid_rest (rest : List Arm) (last : Option PlainWord) (d line : Nat) :
    Laid d line (linesOfArms false rest ++ linesOfLast last) fun ts => ∃ vs ws,
      ts = vs ++ ws ∧ Derives (.elifs (armTrees line rest)) vs ∧
        Derives (.otherwise (last.map (messageBlock (line + 2 * rest.length + 1)))) ws := by
  induction rest generalizing line with
  | nil =>
    cases last with
    | none => exact laid_nil.imp fun ts hts => ⟨[], [], hts, .elifNil, .elseNone⟩
    | some m =>
      have hlines : linesOfArms false [] ++ linesOfLast (some m) =
          "else:".toList :: indented (messageDraft m).lines := by
        rw [lines_messageDraft]
        rfl
      rw [hlines]
      refine (Laid.under codeLine_else (laid_block (laid_message m (d + 1) (line + 1)))).imp ?_
      rintro ts ⟨_, n, us, rfl, ⟨t, m, rfl, ht, hm⟩, hn, hus⟩
      exact ⟨[], _, rfl, .elifNil, .elseSome ht hm hn hus⟩
  | cons a rest ih =>
    rw [linesOfArms_cons]
    refine (laid_arm (codeLine_elif (piece_arm a)) (laid_message a.message (d + 1) (line + 1))
      (ih (line + 2)) (starts_rest rest last)).imp ?_
    rintro ts ⟨_, n, us, _, rfl, ⟨t, cs, m, rfl, ht, -, hcs, hm⟩, hn, hus, vs, ws, rfl, hvs, hws⟩
    have hlength : line + 2 * (a :: rest).length + 1 = line + 2 + 2 * rest.length + 1 := by
      rw [List.length_cons]
      omega
    rw [hlength]
    exact ⟨t :: cs ++ m :: n :: us ++ vs, ws, by simp,
      .elifCons (Token.is_of_kind ht) hcs hm hn hus hvs, hws⟩

/-- The script of a chain is read as one choice. -/
theorem parse_chain (a : Arm) (rest : List Arm) (last : Option PlainWord) :
    parse (joinLines (linesOfArms true (a :: rest) ++ linesOfLast last)) =
      .ok (chainProgram a rest last) := by
  rw [linesOfArms_cons]
  refine parse_of_laid (laid_one ((laid_arm (codeLine_if (piece_arm a))
    (laid_message a.message 1 2) (laid_rest rest last 0 3) (starts_rest rest last)).imp ?_))
    (List.cons_ne_nil _ _)
  rintro ts ⟨_, n, us, _, rfl, ⟨t, cs, m, rfl, ht, hline, hcs, hm⟩, hn, hus, vs, ws, rfl, hvs, hws⟩
  have h := Derives.choose (Token.is_of_kind ht) hcs hm hn hus hvs hws
  have hlength : 3 + 2 * rest.length + 1 = 2 * (a :: rest).length + 2 := by
    rw [List.length_cons]
    omega
  have htokens : t :: cs ++ [m] ++ n :: (us ++ (vs ++ ws)) =
      t :: cs ++ m :: n :: us ++ vs ++ ws := by simp
  rw [hline, hlength] at h
  rw [htokens]
  exact h

end Script
end Scribe
