import Scribe.Proofs.Instruction.OneLine
import Scribe.Proofs.Pattern.Words
import Scribe.Proofs.Script.LineTokens

/-!
# The lines that templates write

Every script that a template writes is made of a few kinds of lines: a line that prints, a line
that assigns to a name, a comment, and arms, each a header with one printing line below it. No
piece of the instruction can change the kind of a line.
-/
namespace Scribe

namespace Pattern
open Text

@[simp] theorem covers_anyName : anyName.Covers IsWord :=
  fun _ _ _ h hcs => (covers_startedName h hcs).2

end Pattern

namespace Instruction
open Text Pattern

theorem printExpr_eq (e : List Char) : printExpr e = "neuro ".toList ++ e := rfl

theorem setLine_eq (name e : List Char) :
    setLine name e = "set ".toList ++ name ++ " = ".toList ++ e := rfl

inductive PlainLine : List Char → Prop
  | print {e} (he : OneLine e) : PlainLine (printExpr e)
  | set {name e} (hname : IsWord name) (he : OneLine e) : PlainLine (setLine name e)
  | comment {mark text} (hmark : mark = "#".toList ∨ mark = "//".toList) (ht : OneLine text) :
      PlainLine (mark ++ ' ' :: text)

inductive Template : List (List Char) → Prop
  | nil : Template []
  | plain {l ls} (hl : PlainLine l) (rest : Template ls) : Template (l :: ls)
  | arm {front test e ls} (hfront : front = "if ".toList ∨ front = "elif ".toList)
      (ht : OneLine test) (he : OneLine e) (rest : Template ls) :
      Template ((front ++ test ++ [':']) :: ("    ".toList ++ printExpr e) :: ls)
  | lastArm {e ls} (he : OneLine e) (rest : Template ls) :
      Template ("else:".toList :: ("    ".toList ++ printExpr e) :: ls)

theorem Template.append {ls ms : List (List Char)} (hls : Template ls) (hms : Template ms) :
    Template (ls ++ ms) := by
  induction hls with
  | nil => exact hms
  | plain hl _ ih => exact .plain hl ih
  | arm hfront ht he _ ih => exact .arm hfront ht he ih
  | lastArm he _ ih => exact .lastArm he ih

theorem Template.single {l : List Char} (hl : PlainLine l) : Template [l] := .plain hl .nil

theorem PlainLine.oneLine {l : List Char} (h : PlainLine l) : OneLine l := by
  cases h with
  | print he =>
    rw [printExpr_eq, oneLine_append]
    exact ⟨by decide, he⟩
  | set hname he =>
    simp only [setLine_eq, oneLine_append]
    exact ⟨⟨⟨by decide, hname.oneLine⟩, by decide⟩, he⟩
  | comment hmark ht =>
    rw [oneLine_append, oneLine_cons]
    rcases hmark with rfl | rfl
    · exact ⟨by decide, by decide, ht⟩
    · exact ⟨by decide, by decide, ht⟩

theorem Template.oneLine {ls : List (List Char)} (h : Template ls) : ∀ l ∈ ls, OneLine l := by
  have hbody {e : List Char} (he : OneLine e) : OneLine ("    ".toList ++ printExpr e) := by
    rw [oneLine_append]
    exact ⟨by decide, (PlainLine.print he).oneLine⟩
  induction h with
  | nil => simp
  | plain hl _ ih => exact List.forall_mem_cons.mpr ⟨hl.oneLine, ih⟩
  | arm hfront ht he _ ih =>
    refine List.forall_mem_cons.mpr ⟨?_, List.forall_mem_cons.mpr ⟨hbody he, ih⟩⟩
    simp only [oneLine_append]
    rcases hfront with rfl | rfl
    · exact ⟨⟨by decide, ht⟩, by decide⟩
    · exact ⟨⟨by decide, ht⟩, by decide⟩
  | lastArm he _ ih =>
    exact List.forall_mem_cons.mpr ⟨by decide, List.forall_mem_cons.mpr ⟨hbody he, ih⟩⟩

def Rendering.Templated (r : Rendering) : Prop := ∃ ls, Template ls ∧ r.script = joinLines ls

theorem templated_line {l : List Char} (hl : PlainLine l) (notes : List String) :
    Rendering.Templated ⟨l, notes⟩ :=
  ⟨[l], .single hl, by simp [joinLines, join]⟩

theorem plainLine_printText (message : List Char) : PlainLine (printText message) :=
  .print (Script.oneLine_quote message)

theorem templated_echo (cs : List Char) (notes : List String) :
    Rendering.Templated ⟨echo cs, notes⟩ :=
  templated_line (plainLine_printText _) notes

end Instruction
end Scribe
