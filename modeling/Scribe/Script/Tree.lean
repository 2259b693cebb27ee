import Scribe.Script.Token
import Scribe.Value

/-!
# Script trees

Comparisons, conjunctions and disjunctions are flat chains. Every statement knows the line it
starts on.
-/
namespace Scribe.Script

inductive Expr where
  | lit (value : Value)
  | var (name : String)
  | arith (op : Arith) (left right : Expr)
  | neg (operand : Expr)
  | compare (first : Expr) (rest : List (Comparison × Expr))
  | all (operands : List Expr)
  | any (operands : List Expr)
  /-- A node of some other kind, which has no value. -/
  | foreign (kind : String)
deriving Inhabited

inductive Stmt where
  | print (line : Nat) (expr : Expr)
  | assign (line : Nat) (name : String) (expr : Expr)
  | ask (line : Nat) (name prompt : String)
  | select (line : Nat) (path : Expr)
  | expand (line : Nat) (instruction : String)
  | choose (line : Nat) (arms : List (Expr × List Stmt)) (otherwise : Option (List Stmt))
deriving Inhabited

def Stmt.line : Stmt → Nat
  | print line _ => line
  | assign line .. => line
  | ask line .. => line
  | select line _ => line
  | expand line _ => line
  | choose line .. => line

abbrev Program := List Stmt

end Scribe.Script
