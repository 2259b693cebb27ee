import Mathlib.Algebra.GroupWithZero.Nat
import Scribe.Proofs.Script.Trees

/-!
# The statements of a tree

The statements of a tree, at every depth, and the words of a tree: one for each line that a
statement needs, a header of an arm included. A word is counted statement by statement.
-/
namespace Scribe.Script

mutual

def Stmt.all : Stmt → List Stmt
  | .choose line arms last => .choose line arms last :: (armStatements arms ++ lastStatements last)
  | stmt => [stmt]

def armStatements : List (Expr × List Stmt) → List Stmt
  | [] => []
  | (_, body) :: rest => statements body ++ armStatements rest

def lastStatements : Option (List Stmt) → List Stmt
  | none => []
  | some body => statements body

def statements : List Stmt → List Stmt
  | [] => []
  | stmt :: rest => stmt.all ++ statements rest

end

theorem mem_armStatements {x : Stmt} {arms : List (Expr × List Stmt)} :
    x ∈ armStatements arms ↔ ∃ arm ∈ arms, x ∈ statements arm.2 := by
  induction arms with
  | nil => simp [armStatements]
  | cons arm rest ih => simp [armStatements, ih]

/-- The statements of a tree are those that occur in it. -/
theorem mem_statements {x : Stmt} {p : List Stmt} : x ∈ statements p ↔ Occurs x p := by
  induction p using Program.induction with
  | nil => exact ⟨nofun, nofun⟩
  | cons stmt rest hstmt hrest =>
    rw [statements, List.mem_append, hrest]
    cases stmt with
    | choose line arms last =>
      simp only [Stmt.all, List.mem_cons, List.mem_append, mem_armStatements]
      constructor
      · rintro ((rfl | ⟨arm, harm, hx⟩ | hx) | hx)
        · exact .head
        · exact .arm harm ((hstmt.1 arm harm).mp hx)
        · cases last with
          | none => cases hx
          | some body => exact .last ((hstmt.2 body rfl).mp hx)
        · exact .tail hx
      · intro hx
        cases hx with
        | head => exact .inl (.inl rfl)
        | tail hx => exact .inr hx
        | arm harm hx => exact .inl (.inr (.inl ⟨_, harm, (hstmt.1 _ harm).mpr hx⟩))
        | last hx => exact .inl (.inr (.inr ((hstmt.2 _ rfl).mpr hx)))
    | _ =>
      rw [Stmt.all, List.mem_singleton]
      · refine ⟨?_, fun hx => ?_⟩
        · rintro (rfl | hx)
          · exact .head
          · exact .tail hx
        · cases hx with
          | head => exact .inl rfl
          | tail hx => exact .inr hx
      · exact nofun

mutual

def Stmt.words : Stmt → List Keyword
  | .print .. => [.neuro]
  | .assign .. | .ask .. => [.set]
  | .select .. => [.ai]
  | .expand .. => [.macroWord]
  | .choose _ arms last => armWords .ifWord arms ++ lastWords last

def armWords (word : Keyword) : List (Expr × List Stmt) → List Keyword
  | [] => []
  | (_, body) :: rest => word :: (blockWords body ++ armWords .elifWord rest)

def lastWords : Option (List Stmt) → List Keyword
  | none => []
  | some body => .elseWord :: blockWords body

def blockWords : List Stmt → List Keyword
  | [] => []
  | stmt :: rest => stmt.words ++ blockWords rest

end

def armHeaders (word : Keyword) : List (Expr × List Stmt) → List Keyword
  | [] => []
  | _ :: rest => word :: rest.map fun _ => .elifWord

/-- The words of the lines that a statement has besides those of the statements in its blocks. -/
def Stmt.ownWords : Stmt → List Keyword
  | .choose _ arms last => armHeaders .ifWord arms ++ last.toList.map fun _ => .elseWord
  | stmt => stmt.words

/-- Every line of a tree that starts with a word belongs to one of its statements. -/
theorem count_armWords (word head : Keyword) {arms : List (Expr × List Stmt)}
    (harms : ∀ arm ∈ arms, (blockWords arm.2).count word =
      ((statements arm.2).map fun x => x.ownWords.count word).sum) :
    (armWords head arms).count word = (armHeaders head arms).count word +
      ((armStatements arms).map fun x => x.ownWords.count word).sum := by
  induction arms generalizing head with
  | nil => rfl
  | cons arm rest ih =>
    obtain ⟨hbody, hrest⟩ := List.forall_mem_cons.mp harms
    have hheaders : armHeaders .elifWord rest = rest.map fun _ => .elifWord := by
      cases rest <;> rfl
    have hlater := ih .elifWord hrest
    rw [hheaders] at hlater
    simp only [armWords, armHeaders, armStatements, List.count_cons, List.count_append,
      List.map_append, List.sum_append, hbody, hlater]
    omega

/-- The lines of a tree that start with a word are counted statement by statement. -/
theorem count_blockWords (word : Keyword) (p : List Stmt) :
    (blockWords p).count word = ((statements p).map fun x => x.ownWords.count word).sum := by
  induction p using Program.induction with
  | nil => rfl
  | cons stmt rest hstmt hrest =>
    have hfirst : stmt.words.count word = (stmt.all.map fun x => x.ownWords.count word).sum := by
      cases stmt with
      | choose line arms last =>
        have hlast : (lastWords last).count word =
            (last.toList.map fun _ => Keyword.elseWord).count word +
              ((lastStatements last).map fun x => x.ownWords.count word).sum := by
          cases last with
          | none => rfl
          | some body =>
            simp [lastWords, lastStatements, List.count_cons, hstmt.2 body rfl, Nat.add_comm]
        simp only [Stmt.words, Stmt.all, Stmt.ownWords, List.count_append, List.map_cons,
          List.map_append, List.sum_cons, List.sum_append, count_armWords word .ifWord hstmt.1,
          hlast]
        omega
      | _ => simp [Stmt.all, Stmt.ownWords]
    simp only [blockWords, statements, List.count_append, List.map_append, List.sum_append, hfirst,
      hrest]

namespace Stmt

def isPrint : Stmt → Bool
  | .print .. => true
  | _ => false

def isAssign : Stmt → Bool
  | .assign .. => true
  | _ => false

def isChoose : Stmt → Bool
  | .choose .. => true
  | _ => false

def hasElse : Stmt → Bool
  | .choose _ _ last => last.isSome
  | _ => false

def laterArms : Stmt → Nat
  | .choose _ arms _ => arms.length - 1
  | _ => 0

end Stmt

theorem sum_toNat_eq_countP {α : Type} (p : α → Bool) (xs : List α) :
    (xs.map fun x => (p x).toNat).sum = xs.countP p := by
  induction xs with
  | nil => rfl
  | cons x xs ih =>
    rw [List.map_cons, List.sum_cons, ih, List.countP_cons, Nat.add_comm]
    cases p x <;> rfl

end Scribe.Script
