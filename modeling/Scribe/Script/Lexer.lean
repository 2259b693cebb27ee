import Scribe.Script.Comment
import Scribe.Script.Literal
import Scribe.Script.Token
import Scribe.Text.Blank
import Scribe.Text.DecimalDigit
import Scribe.Text.Lowercase
import Scribe.Text.WordChar

/-!
# From text to tokens

Each line that has code is cut into lexemes and closed by a line end; a deeper or shallower
start of a line opens or closes blocks. What follows `from AI:` on a line is kept as it is
written.
-/
namespace Scribe.Script
open Text

structure Lexeme where
  kind : Kind
  text : List Char
  width : Nat

def reserved? (word : String) : Option Kind :=
  match word with
  | "ai" => some (.keyword .ai)
  | "set" => some (.keyword .set)
  | "from" => some (.keyword .fromWord)
  | "neuro" => some (.keyword .neuro)
  | "macro" => some (.keyword .macroWord)
  | "if" => some (.keyword .ifWord)
  | "elif" => some (.keyword .elifWord)
  | "else" => some (.keyword .elseWord)
  | "and" => some (.keyword .andWord)
  | "or" => some (.keyword .orWord)
  | "true" => some (.bool true)
  | "false" => some (.bool false)
  | "null" => some .null
  | "none" => some .null
  | _ => none

/-- Reserved words are known in any case. -/
def wordKind (word : List Char) : Kind :=
  (reserved? (String.ofList (lower word))).getD .identifier

def takeNumber (cs : List Char) : List Char :=
  let whole := cs.takeWhile isDigit
  match cs.dropWhile isDigit with
  | '.' :: r =>
    let part := r.takeWhile isDigit
    if part.isEmpty then whole else whole ++ '.' :: part
  | _ => whole

def operator? : List Char → Option Lexeme
  | '=' :: '=' :: _ => some ⟨.compare .eq, ['=', '='], 2⟩
  | '!' :: '=' :: _ => some ⟨.compare .ne, ['!', '='], 2⟩
  | '<' :: '=' :: _ => some ⟨.compare .le, ['<', '='], 2⟩
  | '>' :: '=' :: _ => some ⟨.compare .ge, ['>', '='], 2⟩
  | '<' :: _ => some ⟨.compare .lt, ['<'], 1⟩
  | '>' :: _ => some ⟨.compare .gt, ['>'], 1⟩
  | '=' :: _ => some ⟨.assign, ['='], 1⟩
  | '+' :: _ => some ⟨.arith .add, ['+'], 1⟩
  | '-' :: _ => some ⟨.arith .sub, ['-'], 1⟩
  | '*' :: _ => some ⟨.arith .mul, ['*'], 1⟩
  | '/' :: _ => some ⟨.arith .div, ['/'], 1⟩
  | '%' :: _ => some ⟨.arith .mod, ['%'], 1⟩
  | _ => none

/-- The lexeme that starts with `c`, which is neither a space nor a tab. -/
def lexemeAt (c : Char) (r : List Char) : Except LexCause Lexeme :=
  if c == '"' then (readString r).map fun (cs, n) => ⟨.string, cs, n + 1⟩
  else if c == ':' then .ok ⟨.colon, [':'], 1⟩
  else if c == '(' then .ok ⟨.openParen, ['('], 1⟩
  else if c == ')' then .ok ⟨.closeParen, [')'], 1⟩
  else if isDigit c then
    let digits := takeNumber (c :: r)
    .ok ⟨.number, digits, digits.length⟩
  else if isWordChar c then
    let word := (c :: r).takeWhile isWordChar
    .ok ⟨wordKind word, word, word.length⟩
  else
    match operator? (c :: r) with
    | some lexeme => .ok lexeme
    | none => .error (.unexpectedCharacter c)

/-- Whether the kinds before a colon, the last one first, are `from AI`. -/
def callsModel : List Kind → Bool
  | .keyword .ai :: .keyword .fromWord :: _ => true
  | _ => false

/-- The tokens of a line from a column on, once `skip` characters are passed; `recent` holds the
kinds of the tokens before, the last one first. -/
def lexFrom (line : Nat) (recent : List Kind) (column : Nat) :
    (skip : Nat) → List Char → Except LexCause (List Token)
  | _, [] => .ok []
  | skip + 1, _ :: r => lexFrom line recent (column + 1) skip r
  | 0, c :: r =>
    if c == ' ' || c == '\t' then lexFrom line recent (column + 1) 0 r
    else
      match lexemeAt c r with
      | .error cause => .error cause
      | .ok lexeme =>
        let token : Token := ⟨lexeme.kind, String.ofList lexeme.text, line, column⟩
        if lexeme.kind == .colon && callsModel recent then
          .ok [token, ⟨.raw, String.ofList (trim r), line, column + 1⟩]
        else
          (lexFrom line (lexeme.kind :: recent) (column + 1) (lexeme.width - 1) r).map (token :: ·)

/-- The code of a line: no comment, and no blanks at its end. -/
def codeOf (line : List Char) : List Char :=
  trimEnd (stripComment line)

/-- The levels that stay open at an indentation; the innermost stands first, and the bottom level
zero is not listed. -/
def keptLevels (levels : List Nat) (indent : Nat) : List Nat :=
  levels.dropWhile (indent < ·)

def blockMarks (line : Nat) (levels : List Nat) (indent : Nat) :
    Except LexCause (List Token × List Nat) :=
  if levels.headD 0 < indent then .ok ([⟨.indent, "", line, 1⟩], indent :: levels)
  else
    let kept := keptLevels levels indent
    if kept.headD 0 == indent then
      .ok (List.replicate (levels.length - kept.length) ⟨.dedent, "", line, 1⟩, kept)
    else .error .unmatchedIndent

def lexLine (line : Nat) (levels : List Nat) (code : List Char) :
    Except LexCause (List Token × List Nat) :=
  let leading := code.takeWhile fun c => c == ' ' || c == '\t'
  if leading.contains '\t' then .error .tabIndent
  else do
    let (marks, levels) ← blockMarks line levels leading.length
    let tokens ← lexFrom line [] (leading.length + 1) 0 (code.drop leading.length)
    return (marks ++ tokens ++ [⟨.newline, "", line, code.length + 1⟩], levels)

def lexLines (line : Nat) (levels : List Nat) : List (List Char) → Except Fault (List Token)
  | [] => .ok (List.replicate levels.length ⟨.dedent, "", line - 1, 1⟩)
  | text :: rest =>
    let code := codeOf text
    if code.isEmpty then lexLines (line + 1) levels rest
    else
      match lexLine line levels code with
      | .error cause => .error ⟨.lexical cause, some line⟩
      | .ok (tokens, levels) => (lexLines (line + 1) levels rest).map (tokens ++ ·)

def tokenize (source : List Char) : Except Fault (List Token) :=
  lexLines 1 [] (lines source)

end Scribe.Script
