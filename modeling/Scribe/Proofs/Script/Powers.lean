import Scribe.Proofs.Instruction.Clauses
import Scribe.Proofs.Script.SingleValues
import Scribe.Proofs.Text.Finding

/-!
# Powers

A power is written as a product in which every factor is the base in parentheses. The base is all
that stands before the two stars, so where an operator stands there, what it joins is the base.
-/
namespace Scribe

namespace Instruction
open Text Pattern Script

section Cut
variable {cs e u ds : List Char}

/-- An operand that no clause and no punctuation follows is kept. -/
theorem cleanOperand_of_uncut (htrim : trim e = e)
    (hlast : e.getLast?.any (fun c => c == ',' || c == '.') = false)
    (hsecond : embeddedAssignment.search e = none)
    (hthen : find? ", then".toList (lower e) = none) : cleanOperand e = e := by
  have hcomma : dropEndWhile (· == ',') e = e := by
    refine dropEndWhile_eq_self ?_
    cases h : e.getLast? with
    | none => rfl
    | some c =>
      rw [h, Option.any_some, Bool.or_eq_false_iff] at hlast
      exact hlast.1
  simp only [cleanOperand, cutAtLower, htrim, hcomma, hsecond, hthen, dropEndWhile_eq_self hlast]

/-- No text between quotes starts where there are no quotes. -/
theorem unmatched_of_unquoted (p q : Pattern) (h : ∀ c ∈ cs, c ≠ '\'' ∧ c ≠ '"')
    (before v : List Char) :
    Unmatched (char '\'' ++ p ++ char '\'' ||| char '"' ++ q ++ char '"') before cs v := by
  intro a x z hcs
  obtain ⟨hsingle, hdouble⟩ := h x (by simp [hcs])
  have hmark {d : Char} (hd : x ≠ d) (k : Cursor → Option Cursor) (b : Option Char) :
      (char d).run k ⟨b, x :: (z ++ v), []⟩ = none := run_one_eq_none (by simpa using hd)
  exact Option.map_eq_none_iff.mpr
    ((run_or_right (p := char '\'' ++ _ ++ _) (hmark hsingle _ _)).trans (hmark hdouble _ _))

/-- A text without quotes has nothing to rewrite as a literal. -/
theorem requote_of_unquoted (h : ∀ c ∈ cs, c ≠ '\'' ∧ c ≠ '"') : requote cs = cs :=
  replaceWith_of_unmatched (unmatched_of_unquoted _ _ h [] [])

def powerTail : Pattern := blanks ++ (exactly "**".toList ++ (blanks ++ (group 2 digits ++ atEnd)))

theorem powerTail_stars (hne : ds ≠ []) (hds : ∀ c ∈ ds, isDigit c = true) (b : Option Char)
    (g : List (Nat × List Char)) : ∃ b',
      powerTail.run some ⟨b, " ** ".toList ++ ds, g⟩ = some ⟨b', [], (2, ds) :: g⟩ := by
  have hdigits : (group 2 digits ++ atEnd).run some ⟨some ' ', ds, g⟩ =
      some ⟨ds.getLast?.or (some ' '), [], (2, ds) :: g⟩ := by
    have hcover := cover_append 2 ds [] (some ' ') (ds.getLast?.or (some ' ')) g g
    have hrun : (some1 digit).run (fun d => atEnd.run some (Cursor.cover ⟨some ' ', ds, g⟩ 2 d))
        ⟨some ' ', ds ++ [], g⟩ = some ⟨ds.getLast?.or (some ' '), [], (2, ds) :: g⟩ := by
      refine run_some1 hne hds rfl ?_
      rw [List.append_nil] at hcover
      rw [hcover]
      rfl
    rwa [List.append_nil] at hrun
  have hblank : ds.head?.any isBlank = false := by
    cases ds with
    | nil => exact absurd rfl hne
    | cons c r => exact isBlank_of_isDigit (hds c List.mem_cons_self)
  refine ⟨ds.getLast?.or (some ' '), ?_⟩
  rw [powerTail, run_append]
  refine run_many (w := [' ']) (r := "** ".toList ++ ds) (by decide) rfl ?_
  rw [run_append]
  refine (run_spelled id (w := "**".toList) (r := ' ' :: ds) rfl).trans ?_
  rw [run_append]
  exact run_many (w := [' ']) (by decide) hblank hdigits

/-- In a base without two stars in a row a power is not cut. -/
theorem powerTail_base (hne : u ≠ []) (hstars : ¬['*', '*'] <:+: u)
    (hlast : ∀ z, u.getLast? = some z → isBlank z = false ∧ z ≠ '*') (r : List Char)
    (b : Option Char) (g : List (Nat × List Char)) : powerTail.run some ⟨b, u ++ r, g⟩ = none := by
  obtain ⟨hblank, hstar⟩ := hlast _ (List.getLast?_eq_some_getLast hne)
  rw [Option.eq_none_iff_forall_ne_some]
  intro d hrun
  obtain ⟨e, hspan, -⟩ := run_sound _ hrun
  cases hspan with
  | @seq _ _ _ m _ hblanks hrest =>
    obtain ⟨bs, hbs, hall⟩ := hblanks.covered (P := fun c => isBlank c = true) fun _ hc => hc
    obtain ⟨u', rfl, hm⟩ := passed_inside hne (.inr (by simp [hblank])) hbs hall
    cases hrest with
    | @seq _ _ _ m' _ hexact hmore =>
      obtain ⟨stars, hcovered, -⟩ := hexact.covered (only_true _)
      rw [covers_exactly _ hexact hcovered, hm] at hcovered
      have hpair : u' ++ r = '*' :: '*' :: m'.rest := by simpa using hcovered
      cases u' with
      | nil =>
        have hmem : (bs ++ []).getLast hne ∈ bs := by simp
        rw [hall _ hmem] at hblank
        cases hblank
      | cons x u' =>
        obtain ⟨rfl, htail⟩ := List.cons_eq_cons.mp hpair
        cases u' with
        | nil => exact hstar (by simp)
        | cons y u' =>
          obtain ⟨rfl, -⟩ := List.cons_eq_cons.mp htail
          exact hstars ⟨bs, u', by simp⟩

end Cut

inductive Operand
  | var (x : Draft.Name)
  | number (n : Draft.Numeral)

def Operand.term : Operand → Draft.Term
  | .var x => .var x
  | .number n => .number n

def Operand.text (a : Operand) : List Char := a.term.text

def Operand.tree (a : Operand) : Expr := a.term.tree

theorem Operand.text_ne_nil (a : Operand) : a.text ≠ [] := by
  cases a <;> exact List.cons_ne_nil _ _

theorem Operand.forall_text {P : Char → Prop} (hword : ∀ c, isWordChar c = true → P c)
    (hdigit : ∀ c, isDigit c = true → P c) (hpoint : P '.') (a : Operand) : ∀ c ∈ a.text, P c := by
  intro c hc
  cases a with
  | var x => exact hword c (x.word c hc)
  | number n =>
    rcases Draft.isDigit_text n c hc with hd | rfl
    · exact hdigit c hd
    · exact hpoint

theorem Operand.ne {d : Char} (hd : isWordChar d = false ∧ isDigit d = false ∧ d ≠ '.')
    (a : Operand) : ∀ c ∈ a.text, c ≠ d := by
  refine a.forall_text (P := (· ≠ d)) ?_ ?_ (Ne.symm hd.2.2)
  · rintro c hc rfl
    rw [hc] at hd
    cases hd.1
  · rintro c hc rfl
    rw [hc] at hd
    cases hd.2.1

theorem Operand.isBlank (a : Operand) : ∀ c ∈ a.text, isBlank c = false :=
  a.forall_text (fun _ => isBlank_of_isWordChar) (fun _ => isBlank_of_isDigit) (by decide)

section Powers
variable (a x : Operand) (op : Arith) {ds : List Char}

def operation : List Char := a.text ++ ' ' :: (op.symbol.toList ++ ' ' :: x.text)

def powerText (ds : List Char) : List Char := operation a x op ++ (" ** ".toList ++ ds)

theorem mem_of_symbol : ∀ c ∈ op.symbol.toList, c ∈ " +-*/%".toList := by
  cases op <;> decide

/-- A power has no characters but those of its operands, digits, spaces and signs. -/
theorem powerText_ne {d : Char} (hd : isWordChar d = false ∧ isDigit d = false ∧ d ≠ '.')
    (hsign : d ∉ " +-*/%".toList) (hds : ∀ c ∈ ds, isDigit c = true) :
    ∀ c ∈ powerText a x op ds, c ≠ d := by
  have hsigns {cs : List Char} (hcs : ∀ c ∈ cs, c ∈ " +-*/%".toList) : ∀ c ∈ cs, c ≠ d := by
    rintro c hc rfl
    exact hsign (hcs c hc)
  have hspace : ' ' ≠ d := by
    rintro rfl
    exact hsign (by decide)
  have hop : ∀ c ∈ op.symbol.toList, c ≠ d := hsigns (mem_of_symbol op)
  refine List.forall_mem_append.mpr
    ⟨List.forall_mem_append.mpr ⟨a.ne hd, List.forall_mem_cons.mpr ⟨hspace,
      List.forall_mem_append.mpr ⟨hop, List.forall_mem_cons.mpr ⟨hspace, x.ne hd⟩⟩⟩⟩,
    List.forall_mem_append.mpr ⟨hsigns (by decide), ?_⟩⟩
  rintro c hc rfl
  rw [hds c hc] at hd
  cases hd.2.1

theorem operation_stars : ¬['*', '*'] <:+: operation a x op := by
  intro h
  have hcount := h.sublist.count_le '*'
  have hnone (b : Operand) : b.text.count '*' = 0 :=
    List.count_eq_zero.mpr fun hmem => b.ne (by decide) _ hmem rfl
  have hop : op.symbol.toList.count '*' ≤ 1 := by cases op <;> decide
  simp [operation, hnone] at hcount
  omega

theorem getLast?_operation : (operation a x op).getLast? = x.text.getLast? := by
  have hfront : operation a x op = a.text ++ ' ' :: (op.symbol.toList ++ [' ']) ++ x.text := by
    simp [operation]
  rw [hfront, List.getLast?_append]
  cases hlast : x.text.getLast? with
  | none => exact absurd (List.getLast?_eq_none_iff.mp hlast) x.text_ne_nil
  | some z => rfl

theorem head_operation : ∃ c w, operation a x op = c :: w ∧ isBlank c = false := by
  obtain ⟨c, w, hcw⟩ := List.exists_cons_of_ne_nil a.text_ne_nil
  exact ⟨c, w ++ ' ' :: (op.symbol.toList ++ ' ' :: x.text), by rw [operation, hcw]; rfl,
    a.isBlank c (by simp [hcw])⟩

theorem trim_operation : trim (operation a x op) = operation a x op := by
  obtain ⟨c, w, hcw, hblank⟩ := head_operation a x op
  refine trimWhile_eq_self (by rw [hcw]; exact hblank) ?_
  rw [getLast?_operation]
  cases hlast : x.text.getLast? with
  | none => rfl
  | some z => exact x.isBlank z (List.mem_of_getLast? hlast)

variable (hne : ds ≠ []) (hds : ∀ c ∈ ds, isDigit c = true)
include hne hds

theorem matchStart_power : ∃ m, power.matchStart (powerText a x op ds) = some m ∧
    m.group 1 = operation a x op ∧ m.group 2 = ds := by
  obtain ⟨c, w, hcw, -⟩ := head_operation a x op
  have hline : ∀ y ∈ c :: w, (y != '\n') = true := by
    intro y hy
    refine bne_iff_ne.mpr (powerText_ne a x op (by decide) (by decide) hds y ?_)
    exact List.mem_append_left _ (hcw ▸ hy)
  obtain ⟨b, htail⟩ := powerTail_stars hne hds (c :: w).getLast? [(1, c :: w)]
  have hcut := matchStart_cut (p := power) (q := powerTail) (fun _ => rfl) hline
    (fun u y v huv g => powerTail_base (u := y :: v) (List.cons_ne_nil _ _) ?_ ?_ _ _ _) htail
  · rw [powerText, hcw]
    exact ⟨_, hcut, rfl, rfl⟩
  · intro hstars
    refine operation_stars a x op (hstars.trans ?_)
    rw [hcw, huv]
    exact ⟨c :: u, [], by simp⟩
  · intro z hz
    have hmem : z ∈ x.text := by
      refine List.mem_of_getLast? (a := z) ?_
      rw [← getLast?_operation a x op, hcw, huv, ← List.cons_append, List.getLast?_append, hz]
      rfl
    exact ⟨x.isBlank z hmem, x.ne (by decide) z hmem⟩

/-- A power is the product of as many copies of all that stands before the stars. -/
theorem operandExpr_powerText : operandExpr (powerText a x op ds) =
    powerProduct (operation a x op) (numberOfDigits ds) := by
  have habsent := fun d hd hsign => powerText_ne a x op (d := d) hd hsign hds
  obtain ⟨c, w, hcw, hblank⟩ := head_operation a x op
  have hlast : (powerText a x op ds).getLast? = ds.getLast? := by
    rw [powerText, List.getLast?_append, List.getLast?_append]
    cases hds : ds.getLast? with
    | none => exact absurd (List.getLast?_eq_none_iff.mp hds) hne
    | some z => rfl
  have hdigit {p : Char → Bool} (hp : ∀ c, isDigit c = true → p c = false) :
      (powerText a x op ds).getLast?.any p = false := by
    rw [hlast]
    cases hds' : ds.getLast? with
    | none => rfl
    | some z => exact hp z (hds z (List.mem_of_getLast? hds'))
  have htrim : trim (powerText a x op ds) = powerText a x op ds :=
    trimWhile_eq_self (by rw [powerText, hcw]; exact hblank) (hdigit fun _ => isBlank_of_isDigit)
  have hclean : cleanOperand (powerText a x op ds) = powerText a x op ds := by
    refine cleanOperand_of_uncut htrim (hdigit fun z hz => ?_)
      (search_eq_none_of_absent (habsent '=' (by decide) (by decide)))
      (find?_of_absent _ (forall_lower_ne (by decide) (habsent ',' (by decide) (by decide))))
    rw [Bool.or_eq_false_iff, beq_eq_false_iff_ne, beq_eq_false_iff_ne]
    constructor <;> rintro rfl <;> revert hz <;> decide
  obtain ⟨m, hm, hbase, hexponent⟩ := matchStart_power a x op hne hds
  simp only [operandExpr, hclean, hm, hbase, hexponent, trim_operation]

end Powers

end Instruction

namespace Script
open Text Instruction

def powerTree (e : Expr) : (k : Nat) → Expr
  | 0 | 1 => e
  | k + 2 => .arith .mul (powerTree e (k + 1)) e

theorem join_replicate_succ (s w : List Char) (n : Nat) :
    join s (List.replicate (n + 1) w) ++ (s ++ w) = join s (List.replicate (n + 2) w) := by
  induction n with
  | zero => simp [join, List.replicate]
  | succ n ih =>
    have hcons (m : Nat) : join s (List.replicate (m + 2) w) =
        w ++ s ++ join s (List.replicate (m + 1) w) := List.intercalate_cons_cons
    rw [hcons n, hcons (n + 1), ← ih]
    simp only [List.append_assoc]

/-- Copies of an atom joined by stars are read as their product from the left. -/
theorem piece_product {line : Nat} {w : List Char} {e : Expr}
    (hw : Piece line w (Derives (.expr .atom e))) (n : Nat) :
    Piece line (join " * ".toList (List.replicate (n + 1) w))
      (Derives (.expr .product (powerTree e (n + 1)))) := by
  induction n with
  | zero =>
    rw [join, List.replicate_one, List.intercalate_singleton]
    exact hw.imp fun _ h => .productOne (.unaryAtom h)
  | succ n ih =>
    have hfactor := Draft.piece_joined (lead_arith .mul) hw
    rw [← join_replicate_succ]
    refine (ih.append hfactor (Draft.follows_space _)).imp ?_
    rintro ts ⟨us, _, rfl, hus, t, vs, rfl, ht, hvs⟩
    exact .productMore hus (Token.is_of_kind ht) ht (.unaryAtom hvs)

section Powers
variable (v : Draft.Name) (a x : Operand) (op : Arith)

theorem piece_operation (line : Nat) :
    Piece line (operation a x op) (Derives (.expr .orTest (.arith op a.tree x.tree))) := by
  have hx : Piece line x.text (Derives (.expr .atom x.tree)) := x.term.piece
  have hright := Draft.piece_joined (lead_arith op) hx
  refine (a.term.piece.append hright (Draft.follows_space _)).imp ?_
  rintro ts ⟨us, _, rfl, hus, t, vs, rfl, ht, hvs⟩
  exact Draft.orTest_of_sum (Draft.derives_arith hus ht hvs)

theorem powerProduct_operation {k : Nat} (hk : 2 ≤ k ∧ k ≤ mostFactors) :
    powerProduct (operation a x op) k =
      join " * ".toList (List.replicate k ('(' :: operation a x op ++ [')'])) := by
  have hquotes : requote (operation a x op) = operation a x op := by
    refine requote_of_unquoted fun c hc => ?_
    have hne {d : Char} (hd : isWordChar d = false ∧ isDigit d = false ∧ d ≠ '.')
        (hsign : d ∉ " +-*/%".toList) : c ≠ d := by
      have hmem : c ∈ powerText a x op [] := List.mem_append_left _ hc
      have hnone : ∀ y ∈ ([] : List Char), isDigit y = true := List.forall_mem_nil _
      exact powerText_ne a x op hd hsign hnone c hmem
    exact ⟨hne (by decide) (by decide), hne (by decide) (by decide)⟩
  obtain ⟨n, rfl⟩ : ∃ n, k = n + 2 := ⟨k - 2, by omega⟩
  simp only [powerProduct, Nat.min_eq_left hk.2, hquotes]

theorem digits_toString : ∀ k : Fin 9, (toString k.val).toList ≠ [] ∧
    (∀ c ∈ (toString k.val).toList, isDigit c = true) ∧
    numberOfDigits (toString k.val).toList = k.val := by decide

/-- The base of a power is all that stands before the stars. Where that is an operation, the power
is read as the product of `k` copies of the operation, and not as an operation on its left
operand. -/
theorem parse_power {k : Nat} (hk : 2 ≤ k ∧ k ≤ mostFactors) :
    parse (setLine v.text (operandExpr (powerText a x op (toString k).toList))) =
      .ok [.assign 1 (String.ofList v.text) (powerTree (.arith op a.tree x.tree) k)] ∧
    ∀ right, powerTree (.arith op a.tree x.tree) k ≠ .arith op a.tree right := by
  obtain ⟨hne, hdigits, hvalue⟩ := digits_toString ⟨k, Nat.lt_succ_of_le hk.2⟩
  constructor
  · rw [operandExpr_powerText a x op hne hdigits, hvalue, powerProduct_operation a x op hk]
    obtain ⟨n, rfl⟩ : ∃ n, k = n + 1 := ⟨k - 1, by omega⟩
    refine parse_setLine v fun line => ?_
    exact (piece_product (Draft.piece_parens (piece_operation a x op line)) n).imp
      fun ts hts => Draft.orTest_of_sum (.sumOne hts)
  · obtain ⟨n, rfl⟩ : ∃ n, k = n + 2 := ⟨k - 2, by omega⟩
    intro right hsame
    have hleft : powerTree (.arith op a.tree x.tree) (n + 1) = a.tree := by
      simp only [powerTree, Expr.arith.injEq] at hsame
      exact hsame.2.1
    cases n <;> cases a <;> cases hleft

end Powers

/-- The square of the second operand of a sum. -/
theorem parse_power_square :
    let y : Draft.Name := ⟨'y', [], by decide, by decide, by decide⟩
    let one : Operand := .number ⟨'1', [], [], by decide, by decide⟩
    let three : Operand := .number ⟨'3', [], [], by decide, by decide⟩
    parse (setLine y.text (operandExpr "1 + 3 ** 2".toList)) =
      .ok [.assign 1 "y" (.arith .mul (.arith .add one.tree three.tree)
        (.arith .add one.tree three.tree))] ∧
    ∀ right, powerTree (.arith .add one.tree three.tree) 2 ≠ .arith .add one.tree right := by
  intro y one three
  exact parse_power y one three .add (k := 2) (by decide)

end Script
end Scribe
