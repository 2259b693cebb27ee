import Scribe.Instruction.Template.Assign
import Scribe.Instruction.Template.Branch

/-!
# The script for an intent
-/
namespace Scribe.Instruction
open Text

def renderBody (intent : Intent) (cs : List Char) : Except UnknownCount Rendering :=
  match intent with
  | .loop => renderLoop cs
  | .branch => .ok (renderBranch cs)
  | .arith => .ok (renderArith cs)
  | .concat => .ok (renderConcat cs)
  | .roleFlag => .ok (renderRole cs)
  | .docPrint => .ok (renderDisplay cs)
  | .setVar => .ok (renderSetVar cs)
  | .bridge => .ok ⟨echo cs, []⟩
  | .unknown => .ok ⟨echo cs, []⟩

/-- Writes the script that an instruction asks for; a blank script is replaced by the echo. -/
def render (intent : Intent) (cs : List Char) : Except UnknownCount Rendering :=
  let body := unwrap cs
  (renderBody intent body).map fun r =>
    if (trim r.script).isEmpty then ⟨echo body, r.notes ++ ["empty template output, echoed"]⟩ else r

end Scribe.Instruction
