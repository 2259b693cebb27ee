/-!
# Tokens of a script

A script is a sequence of tokens. Line ends and changes of indentation are tokens too, so that
blocks can be read without looking at columns again. To the grammar a token is a `Terminal`.
-/
namespace Scribe.Script

inductive Keyword where
  | ai | set | fromWord | neuro | macroWord | ifWord | elifWord | elseWord | andWord | orWord
deriving DecidableEq, Repr

inductive Arith where
  | add | sub | mul | div | mod
deriving DecidableEq, Repr

inductive Comparison where
  | eq | ne | le | ge | lt | gt
deriving DecidableEq, Repr

inductive Kind where
  | keyword (word : Keyword)
  | bool (value : Bool)
  | null
  | identifier
  | string
  | number
  | raw
  | arith (op : Arith)
  | compare (op : Comparison)
  | assign
  | openParen
  | closeParen
  | colon
  | newline
  | indent
  | dedent
deriving DecidableEq, Repr

/-- A token, with the text it stands for; of a string literal that is the text it denotes. -/
structure Token where
  kind : Kind
  lexeme : String
  line : Nat
  column : Nat
deriving DecidableEq, Repr

inductive Terminal where
  | ai | set | fromWord | neuro | macroWord | ifWord | elifWord | elseWord | andWord | orWord
  | trueWord | falseWord | null
  | name | string | number | raw
  | plus | minus | mulOp | compOp | assign
  | openParen | closeParen | colon | newline | indent | dedent
  | endOfInput
deriving DecidableEq, Repr

def Keyword.terminal : Keyword → Terminal
  | .ai => .ai
  | .set => .set
  | .fromWord => .fromWord
  | .neuro => .neuro
  | .macroWord => .macroWord
  | .ifWord => .ifWord
  | .elifWord => .elifWord
  | .elseWord => .elseWord
  | .andWord => .andWord
  | .orWord => .orWord

def Arith.terminal : Arith → Terminal
  | .add => .plus
  | .sub => .minus
  | .mul | .div | .mod => .mulOp

def Kind.terminal : Kind → Terminal
  | .keyword w => w.terminal
  | .bool true => .trueWord
  | .bool false => .falseWord
  | .null => .null
  | .identifier => .name
  | .string => .string
  | .number => .number
  | .raw => .raw
  | .arith op => op.terminal
  | .compare _ => .compOp
  | .assign => .assign
  | .openParen => .openParen
  | .closeParen => .closeParen
  | .colon => .colon
  | .newline => .newline
  | .indent => .indent
  | .dedent => .dedent

def Terminal.describe : Terminal → String
  | .ai => "'ai'"
  | .set => "'set'"
  | .fromWord => "'from'"
  | .neuro => "'neuro'"
  | .macroWord => "'macro'"
  | .ifWord => "'if'"
  | .elifWord => "'elif'"
  | .elseWord => "'else'"
  | .andWord => "'and'"
  | .orWord => "'or'"
  | .trueWord => "'true'"
  | .falseWord => "'false'"
  | .null => "'null'"
  | .name => "identifier"
  | .string => "string"
  | .number => "number"
  | .raw => "text"
  | .plus => "'+'"
  | .minus => "'-'"
  | .mulOp => "operator"
  | .compOp => "comparison operator"
  | .assign => "'='"
  | .openParen => "'('"
  | .closeParen => "')'"
  | .colon => "':'"
  | .newline => "newline"
  | .indent => "indented block"
  | .dedent => "end of block"
  | .endOfInput => "end of input"

def Token.describe (t : Token) : String :=
  match t.kind.terminal with
  | .name => s!"identifier '{t.lexeme}'"
  | .string => s!"string \"{t.lexeme}\""
  | .number | .mulOp | .compOp => s!"'{t.lexeme}'"
  | terminal => terminal.describe

end Scribe.Script
