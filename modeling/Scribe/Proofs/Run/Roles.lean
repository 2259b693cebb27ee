import Scribe.Proofs.Run.Visits
import Scribe.Proofs.Script.SingleValues

/-!
# Roles are constants

Whatever text names a role, the script for it is one line that gives `role` a constant. A name,
which would be read as a variable, and a reserved word, which would not be read at all, are put in
quotes; any other value is read as a constant as it stands.
-/
namespace Scribe

namespace Instruction
open Text Script

def roleSide (value : List Char) : List Char :=
  if isVariable (singleValue value) then quote (singleValue value) else singleValue value

theorem renderRole_script (cs : List Char) :
    (renderRole cs).script = setLine "role".toList (roleSide ((role? cs).getD "user".toList)) := rfl

theorem readsConstant_roleSide (value : List Char) : ReadsConstant (roleSide value) := by
  unfold roleSide
  split
  · exact (readsAs_quote _).constant trivial
  · rename_i hvariable
    obtain hconstant | ⟨hname, -, hliteral, hvalue⟩ := singleValue_cases value
    · exact hconstant
    · -- A name that is left without quotes would be a variable.
      rw [hvalue, isVariable, hname, hliteral] at hvariable
      exact absurd rfl hvariable

theorem render_roleFlag (cs : List Char) : render .roleFlag cs = .ok (renderRole (unwrap cs)) := by
  have hnonblank : (trim (renderRole (unwrap cs)).script).isEmpty = false :=
    isEmpty_trim_cons (c := 's') (by decide) _
  simp [render, renderBody, Except.map, hnonblank]

theorem parse_roleFlag (cs : List Char) :
    ∃ e : Expr, e.IsConstant ∧ parse (renderRole cs).script = .ok [.assign 1 "role" e] := by
  obtain ⟨e, he, hreads⟩ := readsConstant_roleSide ((role? cs).getD "user".toList)
  refine ⟨e, he, ?_⟩
  rw [renderRole_script]
  exact parse_setLine ⟨'r', "ole".toList, by decide, by decide, by decide⟩ hreads

end Instruction

namespace Run
open Script Instruction

/-- The script for a role is read as one assignment of a constant to `role`. Running it emits
nothing, changes no other variable and leaves all else as it is. -/
theorem role_constant (cs : List Char) :
    ∃ r e value, render .roleFlag cs = .ok r ∧ parse r.script = .ok [.assign 1 "role" e] ∧
      e.IsConstant ∧ (∀ b, evaluate b e = .ok value) ∧
      ∀ (σ : Type) (h : Host σ) (depth : Int) (origin : Option Int) (s : Session σ),
        execute h depth origin [.assign 1 "role" e] s =
          (.ok (), ⟨{ s.machine with bindings := s.machine.bindings.set "role" value }, s.world⟩) ∧
        ∀ name, (s.machine.bindings.set "role" value).get? name =
          if name = "role" then some value else s.machine.bindings.get? name := by
  obtain ⟨e, he, hparse⟩ := parse_roleFlag (unwrap cs)
  obtain ⟨value, hvalue⟩ := he.value
  refine ⟨_, e, value, render_roleFlag cs, hparse, he, hvalue, fun σ h depth origin s => ⟨?_, ?_⟩⟩
  · rw [execute, execBlock, Task.bind_of_ok (execStmt_assign (hvalue _))]
    rfl
  · exact fun name => Bindings.get?_set _ _ _ _

end Run
end Scribe
