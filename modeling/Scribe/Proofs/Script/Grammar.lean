import Scribe.Script.Parser

/-!
# The grammar of scripts

A phrase is a symbol of the grammar together with the tree it stands for, and `Derives` says which
token sequences the grammar derives from it: every alternative of a rule is one constructor. A
level of an expression that has a single part is that part, so the tree holds no empty layers.
The grammar knows nothing of how a script is read.
-/
namespace Scribe.Script

/-- The grammar sees of a token its terminal; the tree takes its text and its line. -/
def Token.Is (t : Token) (x : Terminal) : Prop := t.kind.terminal = x

inductive Level where
  | orTest | andTest | comparison | sum | product | unary | atom

inductive Phrase where
  | expr (level : Level) (e : Expr)
  | orTail (operands : List Expr)
  | andTail (operands : List Expr)
  | compareTail (rest : List (Comparison × Expr))
  /-- A statement that fits on a line, without its line end. -/
  | simple (s : Stmt)
  | stmt (s : Stmt)
  | stmts (body : List Stmt)
  | block (body : List Stmt)
  | elifs (arms : List (Expr × List Stmt))
  | otherwise (body : Option (List Stmt))
  | program (p : Program)

inductive Derives : Phrase → List Token → Prop
  | orOne {e ts} (h : Derives (.expr .andTest e) ts) : Derives (.expr .orTest e) ts
  | orMore {e es ts us} (h : Derives (.expr .andTest e) ts) (tail : Derives (.orTail es) us)
      (more : es ≠ []) : Derives (.expr .orTest (.any (e :: es))) (ts ++ us)
  | orNil : Derives (.orTail []) []
  | orCons {t e es ts us} (ht : t.Is .orWord) (h : Derives (.expr .andTest e) ts)
      (tail : Derives (.orTail es) us) : Derives (.orTail (e :: es)) (t :: ts ++ us)
  | andOne {e ts} (h : Derives (.expr .comparison e) ts) : Derives (.expr .andTest e) ts
  | andMore {e es ts us} (h : Derives (.expr .comparison e) ts) (tail : Derives (.andTail es) us)
      (more : es ≠ []) : Derives (.expr .andTest (.all (e :: es))) (ts ++ us)
  | andNil : Derives (.andTail []) []
  | andCons {t e es ts us} (ht : t.Is .andWord) (h : Derives (.expr .comparison e) ts)
      (tail : Derives (.andTail es) us) : Derives (.andTail (e :: es)) (t :: ts ++ us)
  | compareOne {e ts} (h : Derives (.expr .sum e) ts) : Derives (.expr .comparison e) ts
  | compareMore {e rest ts us} (h : Derives (.expr .sum e) ts)
      (tail : Derives (.compareTail rest) us) (more : rest ≠ []) :
      Derives (.expr .comparison (.compare e rest)) (ts ++ us)
  | compareNil : Derives (.compareTail []) []
  | compareCons {t op e rest ts us} (ht : t.Is .compOp) (hop : t.kind = .compare op)
      (h : Derives (.expr .sum e) ts) (tail : Derives (.compareTail rest) us) :
      Derives (.compareTail ((op, e) :: rest)) (t :: ts ++ us)
  | sumOne {e ts} (h : Derives (.expr .product e) ts) : Derives (.expr .sum e) ts
  | sumMore {t op l r ts us} (left : Derives (.expr .sum l) ts) (ht : t.Is .plus ∨ t.Is .minus)
      (hop : t.kind = .arith op) (right : Derives (.expr .product r) us) :
      Derives (.expr .sum (.arith op l r)) (ts ++ t :: us)
  | productOne {e ts} (h : Derives (.expr .unary e) ts) : Derives (.expr .product e) ts
  | productMore {t op l r ts us} (left : Derives (.expr .product l) ts) (ht : t.Is .mulOp)
      (hop : t.kind = .arith op) (right : Derives (.expr .unary r) us) :
      Derives (.expr .product (.arith op l r)) (ts ++ t :: us)
  | neg {t e ts} (ht : t.Is .minus) (h : Derives (.expr .unary e) ts) :
      Derives (.expr .unary (.neg e)) (t :: ts)
  | unaryAtom {e ts} (h : Derives (.expr .atom e) ts) : Derives (.expr .unary e) ts
  | number {t x} (ht : t.Is .number) (hx : Decimal.read? t.lexeme.toList = some x) :
      Derives (.expr .atom (.lit (.number x))) [t]
  | string {t} (ht : t.Is .string) : Derives (.expr .atom (.lit (.text t.lexeme))) [t]
  | var {t} (ht : t.Is .name) : Derives (.expr .atom (.var t.lexeme)) [t]
  | trueLit {t} (ht : t.Is .trueWord) : Derives (.expr .atom (.lit (.bool true))) [t]
  | falseLit {t} (ht : t.Is .falseWord) : Derives (.expr .atom (.lit (.bool false))) [t]
  | nullLit {t} (ht : t.Is .null) : Derives (.expr .atom (.lit .null)) [t]
  | paren {l r e ts} (hl : l.Is .openParen) (h : Derives (.expr .orTest e) ts)
      (hr : r.Is .closeParen) : Derives (.expr .atom e) (l :: ts ++ [r])
  | selectModel {t c e ts} (ht : t.Is .ai) (hc : c.Is .colon)
      (h : Derives (.expr .orTest e) ts) : Derives (.simple (.select t.line e)) (t :: c :: ts)
  | assign {t n a e ts} (ht : t.Is .set) (hn : n.Is .name) (ha : a.Is .assign)
      (h : Derives (.expr .orTest e) ts) :
      Derives (.simple (.assign t.line n.lexeme e)) (t :: n :: a :: ts)
  | assignAi {t n f m c r} (ht : t.Is .set) (hn : n.Is .name) (hf : f.Is .fromWord)
      (hm : m.Is .ai) (hc : c.Is .colon) (hr : r.Is .raw) :
      Derives (.simple (.ask t.line n.lexeme (String.ofList (unwrapPrompt r.lexeme.toList))))
        [t, n, f, m, c, r]
  | print {t e ts} (ht : t.Is .neuro) (h : Derives (.expr .orTest e) ts) :
      Derives (.simple (.print t.line e)) (t :: ts)
  | expand {t f m c r} (ht : t.Is .macroWord) (hf : f.Is .fromWord) (hm : m.Is .ai)
      (hc : c.Is .colon) (hr : r.Is .raw) :
      Derives (.simple (.expand t.line r.lexeme)) [t, f, m, c, r]
  | simpleLine {s ts n} (h : Derives (.simple s) ts) (hn : n.Is .newline) :
      Derives (.stmt s) (ts ++ [n])
  | choose {t c n condition body arms last ts us vs ws} (ht : t.Is .ifWord)
      (hcond : Derives (.expr .orTest condition) ts) (hc : c.Is .colon) (hn : n.Is .newline)
      (hbody : Derives (.block body) us) (harms : Derives (.elifs arms) vs)
      (hlast : Derives (.otherwise last) ws) :
      Derives (.stmt (.choose t.line ((condition, body) :: arms) last))
        (t :: ts ++ c :: n :: us ++ vs ++ ws)
  | elifNil : Derives (.elifs []) []
  | elifCons {t c n condition body arms ts us vs} (ht : t.Is .elifWord)
      (hcond : Derives (.expr .orTest condition) ts) (hc : c.Is .colon) (hn : n.Is .newline)
      (hbody : Derives (.block body) us) (harms : Derives (.elifs arms) vs) :
      Derives (.elifs ((condition, body) :: arms)) (t :: ts ++ c :: n :: us ++ vs)
  | elseNone : Derives (.otherwise none) []
  | elseSome {t c n body ts} (ht : t.Is .elseWord) (hc : c.Is .colon) (hn : n.Is .newline)
      (hbody : Derives (.block body) ts) :
      Derives (.otherwise (some body)) (t :: c :: n :: ts)
  | block {i d body ts} (hi : i.Is .indent) (h : Derives (.stmts body) ts) (more : body ≠ [])
      (hd : d.Is .dedent) : Derives (.block body) (i :: ts ++ [d])
  | stmtsNil : Derives (.stmts []) []
  | stmtsCons {s body ts us} (h : Derives (.stmt s) ts) (tail : Derives (.stmts body) us) :
      Derives (.stmts (s :: body)) (ts ++ us)
  | start {p ts} (h : Derives (.stmts p) ts) : Derives (.program p) ts

end Scribe.Script
