/-!
# Ranges of code points

The tables of character classes are lists of closed intervals in increasing order.
-/
namespace Scribe.Text

abbrev Ranges := List (Nat × Nat)

def Ranges.has (r : Ranges) (c : Char) : Bool :=
  r.any fun (lo, hi) => lo ≤ c.toNat && c.toNat ≤ hi

end Scribe.Text
