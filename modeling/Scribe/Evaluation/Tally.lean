import Scribe.Datum

/-!
# Tallies

A tally counts names, and keeps them in the order in which they first came.
-/
namespace Scribe.Evaluation

abbrev Tally := List (String × Nat)

namespace Tally

def add (name : String) : Tally → Tally
  | [] => [(name, 1)]
  | (n, k) :: r => if n == name then (n, k + 1) :: r else (n, k) :: add name r

def ofList (names : List String) : Tally :=
  names.foldl (fun t name => t.add name) []

def count (t : Tally) (name : String) : Nat :=
  (t.lookup name).getD 0

def toDatum (t : Tally) : Datum :=
  .object (t.map fun (name, k) => (name, .int k))

end Tally

/-- A part of a whole; nothing of nothing is zero. -/
def ratio (part whole : Nat) : Float :=
  if whole = 0 then 0.0 else part.toFloat / whole.toFloat

def Tally.ratios (t : Tally) (whole : Nat) : List (String × Float) :=
  if whole = 0 then [] else t.map fun (name, k) => (name, ratio k whole)

end Scribe.Evaluation
