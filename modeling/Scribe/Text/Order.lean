/-!
# Sorted texts

Texts are ordered by the code points of their characters.
-/
namespace Scribe.Text

/-- Puts `x` before the first entry whose key is greater. -/
def insertBy {α : Type} (key : α → String) (x : α) : List α → List α
  | [] => [x]
  | y :: r => if key x < key y then x :: y :: r else y :: insertBy key x r

def sortBy {α : Type} (key : α → String) (xs : List α) : List α :=
  xs.foldl (fun sorted x => insertBy key x sorted) []

def sortedSet (xs : List String) : List String :=
  sortBy id xs.eraseDups

end Scribe.Text
