import Scribe.Proofs.Script.LineTokens
import Scribe.Proofs.Script.Trees

/-!
# Drafts of scripts

A draft is a program before it is written down. Its parts carry what makes them writable: a name
is a word that is not reserved, a number is given by its numeral, a chain has two operands at
least, and no block is empty. A draft says two things: the lines it is written as, and the tree
it stands for, in which every statement has the line on which its text starts.
-/
namespace Scribe.Script.Draft
open Text

structure Name where
  first : Char
  rest : List Char
  word : IsWord (first :: rest)
  start : isDigit first = false
  free : wordKind (first :: rest) = .identifier

def Name.text (x : Name) : List Char := x.first :: x.rest

structure Numeral where
  first : Char
  whole : List Char
  part : List Char
  whole_digits : ∀ c ∈ first :: whole, isDigit c = true
  part_digits : ∀ c ∈ part, isDigit c = true

def Numeral.text (n : Numeral) : List Char :=
  n.first :: n.whole ++ if n.part.isEmpty then [] else '.' :: n.part

def Numeral.value (n : Numeral) : Float := (Decimal.read? n.text).getD 0.0

structure Instruction where
  text : List Char
  oneLine : OneLine text
  trimmed : trim text = text
  uncommented : stripComment text = text

/-- An instruction that does not stand in double quotes. -/
structure Prompt extends Instruction where
  bare : ¬∃ body, text = '"' :: body ++ ['"']

mutual

inductive Term where
  | number (n : Numeral)
  | string (s : String)
  | bool (b : Bool)
  | null
  | var (x : Name)
  | arith (op : Arith) (left right : Term)
  | neg (operand : Term)
  | compare (first : Term) (rest : Comparisons)
  | all (first : Term) (rest : Operands)
  | any (first : Term) (rest : Operands)

inductive Operands where
  | one (operand : Term)
  | cons (operand : Term) (rest : Operands)

inductive Comparisons where
  | one (op : Comparison) (operand : Term)
  | cons (op : Comparison) (operand : Term) (rest : Comparisons)

end

mutual

/-- An expression as it is written: what has parts stands in parentheses. -/
def Term.text : Term → List Char
  | .number n => n.text
  | .string s => quote s.toList
  | .bool true => "true".toList
  | .bool false => "false".toList
  | .null => "null".toList
  | .var x => x.text
  | .arith op left right =>
    '(' :: (left.text ++ ' ' :: (op.symbol.toList ++ ' ' :: right.text)) ++ [')']
  | .neg operand => '(' :: '-' :: operand.text ++ [')']
  | .compare first rest => '(' :: (first.text ++ rest.text) ++ [')']
  | .all first rest => '(' :: (first.text ++ rest.text "and".toList) ++ [')']
  | .any first rest => '(' :: (first.text ++ rest.text "or".toList) ++ [')']

def Operands.text (word : List Char) : Operands → List Char
  | .one operand => ' ' :: (word ++ ' ' :: operand.text)
  | .cons operand rest => ' ' :: (word ++ ' ' :: operand.text) ++ rest.text word

def Comparisons.text : Comparisons → List Char
  | .one op operand => ' ' :: (op.symbol.toList ++ ' ' :: operand.text)
  | .cons op operand rest => ' ' :: (op.symbol.toList ++ ' ' :: operand.text) ++ rest.text

end

mutual

def Term.tree : Term → Expr
  | .number n => .lit (.number n.value)
  | .string s => .lit (.text s)
  | .bool b => .lit (.bool b)
  | .null => .lit .null
  | .var x => .var (String.ofList x.text)
  | .arith op left right => .arith op left.tree right.tree
  | .neg operand => .neg operand.tree
  | .compare first rest => .compare first.tree rest.trees
  | .all first rest => .all (first.tree :: rest.trees)
  | .any first rest => .any (first.tree :: rest.trees)

def Operands.trees : Operands → List Expr
  | .one operand => [operand.tree]
  | .cons operand rest => operand.tree :: rest.trees

def Comparisons.trees : Comparisons → List (Comparison × Expr)
  | .one op operand => [(op, operand.tree)]
  | .cons op operand rest => (op, operand.tree) :: rest.trees

end

mutual

inductive Clause where
  | print (e : Term)
  | assign (x : Name) (e : Term)
  | ask (x : Name) (prompt : Prompt)
  | select (path : Term)
  | expand (instruction : Instruction)
  | choose (condition : Term) (body : Block) (rest : Arms)

inductive Block where
  | one (c : Clause)
  | cons (c : Clause) (rest : Block)

inductive Arms where
  | none
  | otherwise (body : Block)
  | elif (condition : Term) (body : Block) (rest : Arms)

end

def indented (ls : List (List Char)) : List (List Char) := ls.map (List.replicate 4 ' ' ++ ·)

mutual

def Clause.lines : Clause → List (List Char)
  | .print e => ["neuro ".toList ++ e.text]
  | .assign x e => ["set ".toList ++ (x.text ++ (" = ".toList ++ e.text))]
  | .ask x prompt => ["set ".toList ++ (x.text ++ (" from AI: ".toList ++ prompt.text))]
  | .select path => ["AI: ".toList ++ path.text]
  | .expand instruction => ["macro from AI: ".toList ++ instruction.text]
  | .choose condition body rest =>
    ("if ".toList ++ (condition.text ++ [':'])) :: indented body.lines ++ rest.lines

def Block.lines : Block → List (List Char)
  | .one c => c.lines
  | .cons c rest => c.lines ++ rest.lines

def Arms.lines : Arms → List (List Char)
  | .none => []
  | .otherwise body => "else:".toList :: indented body.lines
  | .elif condition body rest =>
    ("elif ".toList ++ (condition.text ++ [':'])) :: indented body.lines ++ rest.lines

end

mutual

/-- The statement that a draft stands for when its text starts on a line. -/
def Clause.tree (line : Nat) : Clause → Stmt
  | .print e => .print line e.tree
  | .assign x e => .assign line (String.ofList x.text) e.tree
  | .ask x prompt => .ask line (String.ofList x.text) (String.ofList prompt.text)
  | .select path => .select line path.tree
  | .expand instruction => .expand line (String.ofList instruction.text)
  | .choose condition body rest =>
    let next := line + 1 + body.lines.length
    .choose line ((condition.tree, body.trees (line + 1)) :: rest.arms next) (rest.last next)

def Block.trees (line : Nat) : Block → List Stmt
  | .one c => [c.tree line]
  | .cons c rest => c.tree line :: rest.trees (line + c.lines.length)

def Arms.arms (line : Nat) : Arms → List (Expr × List Stmt)
  | .none | .otherwise _ => []
  | .elif condition body rest =>
    (condition.tree, body.trees (line + 1)) :: rest.arms (line + 1 + body.lines.length)

def Arms.last (line : Nat) : Arms → Option (List Stmt)
  | .none => Option.none
  | .otherwise body => some (body.trees (line + 1))
  | .elif _ body rest => rest.last (line + 1 + body.lines.length)

end

/-- Among lines of which the first has number `line`, a statement stands where it says: there the
text of its draft starts, behind some spaces. -/
def Shown (line : Nat) (ls : List (List Char)) (x : Stmt) : Prop :=
  ∃ (c : Clause) (i k : Nat) (w : List Char), x = c.tree (line + i) ∧ c.lines.head? = some w ∧
    ls[i]? = some (List.replicate k ' ' ++ w)

section Shown
variable {line : Nat} {ls ms : List (List Char)} {x : Stmt}

theorem Shown.left (h : Shown line ls x) (ms : List (List Char)) : Shown line (ls ++ ms) x := by
  obtain ⟨c, i, k, w, hx, hw, hi⟩ := h
  have hlt := (List.getElem?_eq_some_iff.mp hi).1
  exact ⟨c, i, k, w, hx, hw, by rwa [List.getElem?_append_left hlt]⟩

theorem Shown.right (h : Shown (line + ls.length) ms x) : Shown line (ls ++ ms) x := by
  obtain ⟨c, i, k, w, hx, hw, hi⟩ := h
  rw [Nat.add_assoc] at hx
  refine ⟨c, ls.length + i, k, w, hx, hw, ?_⟩
  rwa [List.getElem?_append_right (by omega), Nat.add_sub_cancel_left]

theorem Shown.indented (h : Shown line ls x) : Shown line (indented ls) x := by
  obtain ⟨c, i, k, w, hx, hw, hi⟩ := h
  refine ⟨c, i, 4 + k, w, hx, hw, ?_⟩
  rw [Draft.indented, List.getElem?_map, hi, Option.map_some, ← List.append_assoc,
    List.replicate_append_replicate]

theorem Shown.cons (h : Shown (line + 1) ls x) (w : List Char) : Shown line (w :: ls) x := by
  have hline : Shown (line + [w].length) ls x := h
  exact hline.right

/-- In the block of an arm, under the header `w`. -/
theorem Shown.inside (h : Shown (line + 1) ls x) (w : List Char) (ms : List (List Char)) :
    Shown line (w :: Draft.indented ls ++ ms) x :=
  (h.indented.left ms).cons w

/-- Behind the block of an arm. -/
theorem Shown.behind (h : Shown (line + 1 + ls.length) ms x) (w : List Char) :
    Shown line (w :: Draft.indented ls ++ ms) x := by
  have hlength : (Draft.indented ls).length = ls.length := List.length_map _
  rw [← hlength] at h
  exact h.right.cons w

end Shown

theorem shown_head (c : Clause) (line : Nat) : Shown line c.lines (c.tree line) := by
  cases c <;> exact ⟨_, 0, 0, _, rfl, rfl, rfl⟩

theorem occurs_cons {x s : Stmt} {rest : List Stmt} (h : Occurs x (s :: rest)) :
    Occurs x [s] ∨ Occurs x rest := by
  cases h with
  | head => exact .inl .head
  | tail h => exact .inr h
  | arm ha h => exact .inl (.arm ha h)
  | last h => exact .inl (.last h)

theorem occurs_choose {x : Stmt} {line : Nat} {arms : List (Expr × List Stmt)}
    {last : Option (List Stmt)} (h : Occurs x [.choose line arms last]) :
    x = .choose line arms last ∨ (∃ arm ∈ arms, Occurs x arm.2) ∨
      ∃ body, last = some body ∧ Occurs x body := by
  cases h with
  | head => exact .inl rfl
  | tail h => cases h
  | arm ha h => exact .inr (.inl ⟨_, ha, h⟩)
  | last h => exact .inr (.inr ⟨_, rfl, h⟩)

mutual

theorem Clause.shown : (c : Clause) → (line : Nat) → {x : Stmt} → Occurs x [c.tree line] →
    Shown line c.lines x
  | .choose condition body rest, line, _, h => by
    rcases occurs_choose h with rfl | ⟨arm, ha, h⟩ | hlast
    · exact shown_head (.choose condition body rest) line
    · rcases List.mem_cons.mp ha with rfl | ha
      · exact (body.shown (line + 1) h).inside _ rest.lines
      · exact (rest.shown _ (.inl ⟨arm, ha, h⟩)).behind _
    · exact (rest.shown _ (.inr hlast)).behind _
  | .print e, line, _, h => occurs_simple h nofun ▸ shown_head (.print e) line
  | .assign x e, line, _, h => occurs_simple h nofun ▸ shown_head (.assign x e) line
  | .ask x prompt, line, _, h => occurs_simple h nofun ▸ shown_head (.ask x prompt) line
  | .select path, line, _, h => occurs_simple h nofun ▸ shown_head (.select path) line
  | .expand i, line, _, h => occurs_simple h nofun ▸ shown_head (.expand i) line

theorem Block.shown : (b : Block) → (line : Nat) → {x : Stmt} → Occurs x (b.trees line) →
    Shown line b.lines x
  | .one c, line, _, h => c.shown line h
  | .cons c rest, line, _, h => by
    rcases occurs_cons h with h | h
    · exact (c.shown line h).left rest.lines
    · exact (rest.shown _ h).right

theorem Arms.shown : (a : Arms) → (line : Nat) → {x : Stmt} →
    ((∃ arm ∈ a.arms line, Occurs x arm.2) ∨ ∃ body, a.last line = some body ∧ Occurs x body) →
    Shown line a.lines x
  | .none, line, _, h => by
    rcases h with ⟨arm, ha, -⟩ | ⟨body, hbody, -⟩
    · cases ha
    · cases hbody
  | .otherwise body, line, _, h => by
    rcases h with ⟨arm, ha, -⟩ | ⟨_, ⟨⟩, h⟩
    · cases ha
    · exact (body.shown (line + 1) h).indented.cons _
  | .elif condition body rest, line, _, h => by
    rcases h with ⟨arm, ha, h⟩ | hlast
    · rcases List.mem_cons.mp ha with rfl | ha
      · exact (body.shown (line + 1) h).inside _ rest.lines
      · exact (rest.shown _ (.inl ⟨arm, ha, h⟩)).behind _
    · exact (rest.shown _ (.inr hlast)).behind _

end

end Draft

abbrev Draft := Option Draft.Block

def Draft.source : Draft → List Char
  | none => []
  | some body => Text.joinLines body.lines

def Draft.program : Draft → Program
  | none => []
  | some body => body.trees 1

end Scribe.Script
