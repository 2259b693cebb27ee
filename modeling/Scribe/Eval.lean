import Scribe.Bindings
import Scribe.Script.Tree
import Scribe.Text.Quoted

/-!
# Evaluation of expressions

Arithmetic is numeric when both operands read as numbers; otherwise `+` joins what they display
and every other operator is an error. Comparison is numeric between two numbers and compares
folded texts otherwise. Chains, conjunctions and disjunctions stop as soon as the answer is
known. Expressions of any depth are evaluated: a limit on the depth of recursion is not modelled.
-/
namespace Scribe
open Script

inductive EvalError where
  | cannotApply (op : Arith) (left right : Value)
  | divisionByZero
  | moduloByZero
  | cannotNegate (operand : Value)
  | unsupported (kind : String)
deriving DecidableEq

def Script.Arith.symbol : Arith → String
  | .add => "+"
  | .sub => "-"
  | .mul => "*"
  | .div => "/"
  | .mod => "%"

def EvalError.message : EvalError → String
  | cannotApply op left right =>
    let a := Text.quoted left.display
    let b := Text.quoted right.display
    s!"cannot apply '{op.symbol}' to {a} and {b}"
  | divisionByZero => "division by zero"
  | moduloByZero => "modulo by zero"
  | cannotNegate operand =>
    let a := Text.quoted operand.display
    s!"cannot negate {a}"
  | unsupported kind => s!"unsupported expression {kind}"

def arithNumbers (op : Arith) (a b : Float) : Except EvalError Value :=
  match op with
  | .add => .ok (.number (a + b))
  | .sub => .ok (.number (a - b))
  | .mul => .ok (.number (a * b))
  | .div => if b == 0.0 then .error .divisionByZero else .ok (.number (a / b))
  | .mod =>
    if b == 0.0 then .error .moduloByZero
    else if a.isInf then .ok (.number (0.0 / 0.0))
    else .ok (.number (Decimal.remainder a b))

def arithmetic (op : Arith) (left right : Value) : Except EvalError Value :=
  match left.toNumber?, right.toNumber? with
  | some a, some b => arithNumbers op a b
  | _, _ =>
    if op == .add then .ok (.text (left.display ++ right.display))
    else .error (.cannotApply op left right)

def compareNumbers (op : Comparison) (a b : Float) : Bool :=
  match op with
  | .eq => a == b
  | .ne => a != b
  | .lt => a < b
  | .gt => b < a
  | .le => a ≤ b
  | .ge => b ≤ a

def compareTexts (op : Comparison) (a b : String) : Bool :=
  match op with
  | .eq => a == b
  | .ne => a != b
  | .lt => a < b
  | .gt => b < a
  | .le => !decide (b < a)
  | .ge => !decide (a < b)

def compareValues (op : Comparison) (left right : Value) : Bool :=
  match left.toNumber?, right.toNumber? with
  | some a, some b => compareNumbers op a b
  | _, _ => compareTexts op left.fold right.fold

mutual

def evaluate (b : Bindings) : Expr → Except EvalError Value
  | .lit value => .ok value
  | .var name => .ok (b.get name)
  | .arith op left right => do
    let x ← evaluate b left
    let y ← evaluate b right
    arithmetic op x y
  | .neg operand => do
    let value ← evaluate b operand
    match value.toNumber? with
    | some x => .ok (.number (-x))
    | none => .error (.cannotNegate value)
  | .compare first rest => do
    let value ← evaluate b first
    return .bool (← evaluateChain b value rest)
  | .all operands => return .bool (← evaluateAll b operands)
  | .any operands => return .bool (← evaluateAny b operands)
  | .foreign kind => .error (.unsupported kind)

def evaluateChain (b : Bindings) (left : Value) : List (Comparison × Expr) → Except EvalError Bool
  | [] => .ok true
  | (op, operand) :: rest => do
    let right ← evaluate b operand
    if compareValues op left right then evaluateChain b right rest else return false

def evaluateAll (b : Bindings) : List Expr → Except EvalError Bool
  | [] => .ok true
  | operand :: rest => do
    let value ← evaluate b operand
    if value.truthy then evaluateAll b rest else return false

def evaluateAny (b : Bindings) : List Expr → Except EvalError Bool
  | [] => .ok false
  | operand :: rest => do
    let value ← evaluate b operand
    if value.truthy then return true else evaluateAny b rest

end

end Scribe
