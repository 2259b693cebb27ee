import Scribe.Text.Blank
import Scribe.Text.DecimalDigit
import Scribe.Text.WordChar

/-!
# Patterns

A pattern describes pieces of a text. It is tried from left to right: the first alternative
before the second, repetition as often as possible (`many`) or as rarely as possible
(`lazyMany`), and earlier choices are taken back when what follows does not fit. Groups remember
the piece they covered.
-/
namespace Scribe

inductive Pattern where
  | empty
  | one (p : Char → Bool)
  | seq (p q : Pattern)
  | alt (p q : Pattern)
  | many (p : Pattern)
  | lazyMany (p : Pattern)
  | group (n : Nat) (p : Pattern)
  /-- A word starts or ends here. -/
  | edge
  | atStart
  /-- The end of the text, or the line end that closes it. -/
  | atEnd
  | notAhead (p : Pattern)
  | notBehind (p : Char → Bool)

namespace Pattern

instance : Append Pattern := ⟨seq⟩
instance : OrOp Pattern := ⟨alt⟩

/-- A place in a text: the character before it, what follows, and the groups covered so far, the
last one first. -/
structure Cursor where
  behind : Option Char
  rest : List Char
  groups : List (Nat × List Char)
deriving DecidableEq, Repr

def Cursor.atEdge (c : Cursor) : Bool :=
  c.behind.any Text.isWordChar != c.rest.head?.any Text.isWordChar

def Cursor.cover (c : Cursor) (n : Nat) (d : Cursor) : Cursor :=
  { d with groups := (n, c.rest.take (c.rest.length - d.rest.length)) :: d.groups }

/-- Repeats `step` at most `n` times, as often as possible, and goes on with `k`. -/
def repeatMost (step : (Cursor → Option Cursor) → Cursor → Option Cursor)
    (k : Cursor → Option Cursor) : Nat → Cursor → Option Cursor
  | 0, c => k c
  | n + 1, c =>
    match step (repeatMost step k n) c with
    | some d => some d
    | none => k c

def repeatLeast (step : (Cursor → Option Cursor) → Cursor → Option Cursor)
    (k : Cursor → Option Cursor) : Nat → Cursor → Option Cursor
  | 0, c => k c
  | n + 1, c =>
    match k c with
    | some d => some d
    | none => step (repeatLeast step k n) c

/-- The first way to match `p` from a place such that `k` accepts the place behind it. -/
def run : Pattern → (Cursor → Option Cursor) → Cursor → Option Cursor
  | empty, k, c => k c
  | one p, k, c =>
    match c.rest with
    | [] => none
    | x :: r => if p x then k ⟨some x, r, c.groups⟩ else none
  | seq p q, k, c => p.run (q.run k) c
  | alt p q, k, c =>
    match p.run k c with
    | some d => some d
    | none => q.run k c
  | many p, k, c => repeatMost p.run k c.rest.length c
  | lazyMany p, k, c => repeatLeast p.run k c.rest.length c
  | group n p, k, c => p.run (fun d => k (c.cover n d)) c
  | edge, k, c => if c.atEdge then k c else none
  | atStart, k, c => if c.behind.isNone then k c else none
  | atEnd, k, c => if c.rest.isEmpty || c.rest == ['\n'] then k c else none
  | notAhead p, k, c => if (p.run some c).isSome then none else k c
  | notBehind p, k, c => if c.behind.any p then none else k c

def opt (p : Pattern) : Pattern := alt p empty

def some1 (p : Pattern) : Pattern := seq p (many p)

def lazySome1 (p : Pattern) : Pattern := seq p (lazyMany p)

def choice : List Pattern → Pattern
  | [] => notAhead empty
  | [p] => p
  | p :: ps => alt p (choice ps)

def char (c : Char) : Pattern := one (· == c)

def oneOf (s : String) : Pattern := one fun c => s.toList.contains c

def noneOf (s : String) : Pattern := one fun c => !s.toList.contains c

def exactly (cs : List Char) : Pattern :=
  cs.foldr (fun c p => seq (char c) p) empty

/-- The small letter that a character counts as where case does not matter: besides capitals, the
dotted and dotless i, the long s and the Kelvin sign stand for letters. -/
def foldCase (c : Char) : Char :=
  if c.toNat < 128 then c.toLower
  else if c == 'İ' || c == 'ı' then 'i'
  else if c == 'ſ' then 's'
  else if c == '\u212A' then 'k'
  else c

/-- A text of small letters, in any case. -/
def word (s : String) : Pattern :=
  s.toList.foldr (fun c p => seq (one fun x => foldCase x == c) p) empty

def words (ss : List String) : Pattern :=
  choice (ss.map word)

def blank : Pattern := one Text.isBlank

def nonBlank : Pattern := one fun c => !Text.isBlank c

def blanks : Pattern := many blank

def blanks1 : Pattern := some1 blank

def digit : Pattern := one Text.isDigit

def digits : Pattern := some1 digit

def unsigned : Pattern := digits ++ opt (char '.' ++ digits)

def signed : Pattern := opt (char '-') ++ unsigned

def wordChar : Pattern := one Text.isWordChar

def inLine : Pattern := one (· != '\n')

def anything : Pattern := one fun _ => true

def isNameStart (c : Char) : Bool := c.isAlpha || c == '_'

def name : Pattern := one isNameStart ++ many wordChar

/-- A name where case does not matter, so that a letter which counts as an ASCII one may start
it. -/
def anyName : Pattern := one (fun c => isNameStart (foldCase c)) ++ many wordChar

end Pattern
end Scribe
