import Scribe.Text.Order
import Scribe.Value

/-!
# Variable bindings

A name without a binding stands for itself, as a text.
-/
namespace Scribe

/-- Names and their values; no name occurs twice. -/
abbrev Bindings := List (String × Value)

namespace Bindings

def get? (b : Bindings) (name : String) : Option Value :=
  b.lookup name

def get (b : Bindings) (name : String) : Value :=
  (b.get? name).getD (.text name)

def has (b : Bindings) (name : String) : Bool :=
  (b.get? name).isSome

/-- A new name is put last. -/
def set (b : Bindings) (name : String) (value : Value) : Bindings :=
  match b with
  | [] => [(name, value)]
  | (n, v) :: r => if n == name then (n, value) :: r else (n, v) :: Bindings.set r name value

theorem get?_cons (n : String) (v : Value) (rest : Bindings) (name : String) :
    get? ((n, v) :: rest) name = if name = n then some v else rest.get? name := by
  rw [get?, List.lookup_cons]
  by_cases h : name = n
  · simp [h]
  · simp [h, beq_false_of_ne h, get?]

theorem get?_set (b : Bindings) (name : String) (value : Value) (other : String) :
    (b.set name value).get? other = if other = name then some value else b.get? other := by
  induction b with
  | nil => rw [set, get?_cons]
  | cons p rest ih =>
    obtain ⟨n, v⟩ := p
    rw [set]
    by_cases hn : n = name
    · subst hn
      by_cases h : other = n <;> simp [get?_cons, h]
    · by_cases h : other = n
      · subst h
        simp [get?_cons, hn]
      · simp [get?_cons, hn, h, ih]

def sorted (b : Bindings) : List (String × Value) :=
  Text.sortBy Prod.fst b

end Bindings
end Scribe
