import Scribe.Script.Lexer
import Scribe.Script.Tree

/-!
# From tokens to a tree

The reader takes one token at a time. Its state holds the blocks that are open, the statements
finished so far and where in a statement it stands; of an expression under way it holds, for
each open parenthesis, the operators that still wait for their right operand. A token that fits
nowhere is reported together with all that would have fitted. Blocks and parentheses may nest to
any depth: a limit on the depth of recursion is not modelled.
-/
namespace Scribe.Script

/-- The operators of one parenthesis level that wait for their right operand, from the weakest
to the strongest. -/
structure Pending where
  ors : List Expr := []
  ands : List Expr := []
  chain : Option (Expr × List (Comparison × Expr) × Comparison) := none
  sum : Option (Expr × Arith) := none
  product : Option (Expr × Arith) := none
  minus : Nat := 0

namespace Pending

def negate : Nat → Expr → Expr
  | 0, e => e
  | n + 1, e => .neg (negate n e)

def joinArith : Option (Expr × Arith) → Expr → Expr
  | none, e => e
  | some (left, op), e => .arith op left e

def productWith (p : Pending) (e : Expr) : Expr :=
  joinArith p.product e

def sumWith (p : Pending) (e : Expr) : Expr :=
  joinArith p.sum (p.productWith e)

def comparisonWith (p : Pending) (e : Expr) : Expr :=
  match p.chain with
  | none => p.sumWith e
  | some (first, rest, op) => .compare first (rest ++ [(op, p.sumWith e)])

def andWith (p : Pending) (e : Expr) : Expr :=
  match p.ands with
  | [] => p.comparisonWith e
  | ands => .all (ands ++ [p.comparisonWith e])

def close (p : Pending) (e : Expr) : Expr :=
  match p.ors with
  | [] => p.andWith e
  | ors => .any (ors ++ [p.andWith e])

def pushMul (p : Pending) (e : Expr) (op : Arith) : Pending :=
  { p with product := some (p.productWith e, op) }

def pushAdd (p : Pending) (e : Expr) (op : Arith) : Pending :=
  { p with sum := some (p.sumWith e, op), product := none }

def pushCompare (p : Pending) (e : Expr) (op : Comparison) : Pending :=
  let chain :=
    match p.chain with
    | none => (p.sumWith e, [], op)
    | some (first, rest, last) => (first, rest ++ [(last, p.sumWith e)], op)
  { p with chain := some chain, sum := none, product := none }

def pushAnd (p : Pending) (e : Expr) : Pending :=
  { ors := p.ors, ands := p.ands ++ [p.comparisonWith e] }

def pushOr (p : Pending) (e : Expr) : Pending :=
  { ors := p.ors ++ [p.andWith e] }

end Pending

/-- An `if` statement under way: its line, and the arms whose blocks are closed. -/
structure Chain where
  line : Nat
  arms : List (Expr × List Stmt)

/-- An open block: the statements before the `if` it belongs to, that `if`, and the condition of
the arm, or none for the last arm. -/
structure Frame where
  before : List Stmt
  chain : Chain
  condition : Option Expr

inductive Purpose where
  | model (line : Nat)
  | assign (line : Nat) (name : String)
  | print (line : Nat)
  | condition (chain : Chain)

inductive Mode where
  /-- Nothing has been read. -/
  | start
  /-- A block has just been opened. -/
  | blockStart
  /-- A simple statement has been closed by its line end. -/
  | next
  /-- The block of an arm with a condition has just been closed. -/
  | armEnd (chain : Chain)
  /-- The block of the last arm has just been closed. -/
  | chainEnd (chain : Chain) (last : List Stmt)
  | modelColon (line : Nat)
  | assignName (line : Nat)
  | assignSign (line : Nat) (name : String)
  | askModel (line : Nat) (name : String)
  | askColon (line : Nat) (name : String)
  | askText (line : Nat) (name : String)
  | expandFrom (line : Nat)
  | expandModel (line : Nat)
  | expandColon (line : Nat)
  | expandText (line : Nat)
  /-- A statement that only lacks its line end. -/
  | lineEnd (stmt : Stmt)
  | elseColon (chain : Chain)
  | headerEnd (chain : Chain) (condition : Option Expr)
  | block (chain : Chain) (condition : Option Expr)
  /-- An operand must follow. -/
  | operand (purpose : Purpose) (outer : List Pending) (current : Pending)
  /-- An operand has been read. -/
  | operator (purpose : Purpose) (outer : List Pending) (current : Pending) (e : Expr)

structure State where
  frames : List Frame
  done : List Stmt
  mode : Mode

def State.initial : State := ⟨[], [], .start⟩

/-- A token that fits nowhere, or none at the end of the input, and what would have fitted. -/
structure Failure where
  expected : List Terminal
  found : Option Token

def starters : List Terminal := [.ai, .set, .neuro, .macroWord, .ifWord]

def operandStarts : List Terminal :=
  [.openParen, .minus, .name, .number, .string, .trueWord, .falseWord, .null]

def operandFollows : List Terminal :=
  [.closeParen, .plus, .minus, .colon, .andWord, .orWord, .compOp, .newline, .mulOp]

def Purpose.ending : Purpose → Terminal
  | .condition _ => .colon
  | _ => .newline

def statementFollows (inBlock : Bool) (found : Terminal) : List Terminal :=
  if found == .dedent && !inBlock then starters ++ [.endOfInput]
  else if found == .endOfInput && inBlock then starters ++ [.dedent]
  else starters ++ [.endOfInput, .dedent]

def State.expected (s : State) (found : Terminal) : List Terminal :=
  let inBlock := !s.frames.isEmpty
  match s.mode with
  | .start => starters ++ [.endOfInput]
  | .blockStart => starters
  | .next => statementFollows inBlock found
  | .armEnd _ =>
    if found == .dedent || found == .endOfInput then statementFollows inBlock found
    else statementFollows inBlock found ++ [.elifWord, .elseWord]
  | .chainEnd .. =>
    if [.dedent, .endOfInput, .elifWord, .elseWord].contains found then
      statementFollows inBlock found
    else statementFollows inBlock found ++ [.elifWord, .elseWord]
  | .modelColon _ | .askColon .. | .expandColon _ | .elseColon _ => [.colon]
  | .assignName _ => [.name]
  | .assignSign .. => [.assign, .fromWord]
  | .askModel .. | .expandModel _ => [.ai]
  | .askText .. | .expandText _ => [.raw]
  | .expandFrom _ => [.fromWord]
  | .lineEnd _ | .headerEnd .. => [.newline]
  | .block .. => [.indent]
  | .operand .. => operandStarts
  | .operator purpose outer _ _ =>
    if operandFollows.contains found then
      [if outer.isEmpty then purpose.ending else .closeParen]
    else operandFollows

def State.fail (s : State) (t : Token) : Except Failure State :=
  .error ⟨s.expected t.kind.terminal, some t⟩

def State.settle (s : State) : State :=
  match s.mode with
  | .armEnd c => { s with done := s.done ++ [.choose c.line c.arms none], mode := .next }
  | .chainEnd c last =>
    { s with done := s.done ++ [.choose c.line c.arms (some last)], mode := .next }
  | _ => s

def State.closeBlock (s : State) : Option State :=
  match s.frames with
  | [] => none
  | f :: frames =>
    let body := s.settle.done
    some ⟨frames, f.before,
      match f.condition with
      | some condition => .armEnd ⟨f.chain.line, f.chain.arms ++ [(condition, body)]⟩
      | none => .chainEnd f.chain body⟩

def State.begin (s : State) (t : Token) : Option State :=
  let s := s.settle
  match t.kind with
  | .keyword .ai => some { s with mode := .modelColon t.line }
  | .keyword .set => some { s with mode := .assignName t.line }
  | .keyword .neuro => some { s with mode := .operand (.print t.line) [] {} }
  | .keyword .macroWord => some { s with mode := .expandFrom t.line }
  | .keyword .ifWord => some { s with mode := .operand (.condition ⟨t.line, []⟩) [] {} }
  | _ => none

def operand? (t : Token) : Option Expr :=
  match t.kind with
  | .number => some (.lit (.number ((Decimal.read? t.lexeme.toList).getD 0.0)))
  | .string => some (.lit (.text t.lexeme))
  | .identifier => some (.var t.lexeme)
  | .bool b => some (.lit (.bool b))
  | .null => some (.lit .null)
  | _ => none

def Purpose.statement? (p : Purpose) (e : Expr) : Option Stmt :=
  match p with
  | .model line => some (.select line e)
  | .assign line name => some (.assign line name e)
  | .print line => some (.print line e)
  | .condition _ => none

def stepOperand (s : State) (purpose : Purpose) (outer : List Pending) (current : Pending)
    (t : Token) : Except Failure State :=
  match t.kind with
  | .openParen => .ok { s with mode := .operand purpose (current :: outer) {} }
  | .arith .sub =>
    .ok { s with mode := .operand purpose outer { current with minus := current.minus + 1 } }
  | _ =>
    match operand? t with
    | some e =>
      .ok { s with
        mode := .operator purpose outer { current with minus := 0 }
          (Pending.negate current.minus e) }
    | none => s.fail t

def stepOperator (s : State) (purpose : Purpose) (outer : List Pending) (current : Pending)
    (e : Expr) (t : Token) : Except Failure State :=
  let more (p : Pending) : Except Failure State := .ok { s with mode := .operand purpose outer p }
  match t.kind with
  | .arith .add => more (current.pushAdd e .add)
  | .arith .sub => more (current.pushAdd e .sub)
  | .arith op => more (current.pushMul e op)
  | .compare op => more (current.pushCompare e op)
  | .keyword .andWord => more (current.pushAnd e)
  | .keyword .orWord => more (current.pushOr e)
  | .closeParen =>
    match outer with
    | [] => s.fail t
    | p :: outer =>
      .ok { s with
        mode := .operator purpose outer { p with minus := 0 }
          (Pending.negate p.minus (current.close e)) }
  | .newline =>
    match outer, purpose.statement? (current.close e) with
    | [], some stmt => .ok { s with done := s.done ++ [stmt], mode := .next }
    | _, _ => s.fail t
  | .colon =>
    match outer, purpose with
    | [], .condition chain => .ok { s with mode := .headerEnd chain (some (current.close e)) }
    | _, _ => s.fail t
  | _ => s.fail t

def stepStatement (s : State) (t : Token) : Except Failure State :=
  match s.begin t with
  | some s => .ok s
  | none =>
    match s.mode, t.kind with
    | .armEnd chain, .keyword .elifWord =>
      .ok { s with mode := .operand (.condition chain) [] {} }
    | .armEnd chain, .keyword .elseWord => .ok { s with mode := .elseColon chain }
    | .start, _ => s.fail t
    | .blockStart, _ => s.fail t
    | _, .dedent =>
      match s.closeBlock with
      | some s => .ok s
      | none => s.fail t
    | _, _ => s.fail t

def State.step (s : State) (t : Token) : Except Failure State :=
  let go (mode : Mode) : Except Failure State := .ok { s with mode }
  match s.mode, t.kind with
  | .operand purpose outer current, _ => stepOperand s purpose outer current t
  | .operator purpose outer current e, _ => stepOperator s purpose outer current e t
  | .modelColon line, .colon => go (.operand (.model line) [] {})
  | .assignName line, .identifier => go (.assignSign line t.lexeme)
  | .assignSign line name, .assign => go (.operand (.assign line name) [] {})
  | .assignSign line name, .keyword .fromWord => go (.askModel line name)
  | .askModel line name, .keyword .ai => go (.askColon line name)
  | .askColon line name, .colon => go (.askText line name)
  | .askText line name, .raw =>
    go (.lineEnd (.ask line name (String.ofList (unwrapPrompt t.lexeme.toList))))
  | .expandFrom line, .keyword .fromWord => go (.expandModel line)
  | .expandModel line, .keyword .ai => go (.expandColon line)
  | .expandColon line, .colon => go (.expandText line)
  | .expandText line, .raw => go (.lineEnd (.expand line t.lexeme))
  | .lineEnd stmt, .newline => .ok { s with done := s.done ++ [stmt], mode := .next }
  | .elseColon chain, .colon => go (.headerEnd chain none)
  | .headerEnd chain condition, .newline => go (.block chain condition)
  | .block chain condition, .indent =>
    .ok ⟨⟨s.done, chain, condition⟩ :: s.frames, [], .blockStart⟩
  | .start, _ => stepStatement s t
  | .blockStart, _ => stepStatement s t
  | .next, _ => stepStatement s t
  | .armEnd _, _ => stepStatement s t
  | .chainEnd .., _ => stepStatement s t
  | _, _ => s.fail t

def State.finish (s : State) : Except Failure Program :=
  let settled := s.settle
  match settled.mode, settled.frames with
  | .start, [] => .ok settled.done
  | .next, [] => .ok settled.done
  | _, _ => .error ⟨s.expected .endOfInput, none⟩

def parseTokens (tokens : List Token) : Except Failure Program :=
  (tokens.foldlM State.step State.initial).bind State.finish

/-- The end of the input has no line of its own and is reported on the first. -/
def Failure.fault (f : Failure) : Fault :=
  let expected := f.expected.map Terminal.describe
  match f.found with
  | some t => ⟨.unexpected expected t.describe, some t.line⟩
  | none => ⟨.unexpected expected Terminal.endOfInput.describe, some 1⟩

def parse (source : List Char) : Except Fault Program :=
  match tokenize source with
  | .error fault => .error fault
  | .ok tokens => (parseTokens tokens).mapError Failure.fault

end Scribe.Script
