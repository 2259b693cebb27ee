import Scribe.Classifier.Basic
import Scribe.Datum
import Scribe.Decimal.Numeral
import Scribe.Pattern.Search
import Scribe.Text.Lowercase

/-!
# Bag-of-words models

A model has labels, a bias for each of them and a row of weights for each word it knows. A text
scores the bias plus the rows of its words; the label with the highest score wins, and its share
of the exponentials is how sure the answer is.
-/
namespace Scribe
open Text

structure Model where
  labels : List CodePoints
  bias : List Float
  rows : List (CodePoints × List Float)

/-- Why a datum is no model. A whole number beyond all doubles is a case of its own. -/
inductive ModelFault where
  | refused (error : ClassifierError)
  | numberTooLarge
deriving DecidableEq, Repr

namespace Model

def wordPattern : Pattern :=
  .choice [.some1 (.one fun c => ('a' ≤ c && c ≤ 'z') || c == '_'), .digits,
    .exactly "//".toList, .exactly "==".toList, .exactly "!=".toList, .exactly "<=".toList,
    .exactly ">=".toList, .oneOf "-+*/%<>=#'"]

def wordsOf (text : List Char) : List String :=
  (wordPattern.findAll (lower text)).map fun m => String.ofList m.covered

mutual

/-- The dimensions of a nested list; none if its parts differ. -/
def shape? : RawDatum → Option (List Nat)
  | .list items => itemsShape? items
  | _ => some []

def itemsShape? : List RawDatum → Option (List Nat)
  | [] => some [0]
  | [d] => (shape? d).map (1 :: ·)
  | d :: rest =>
    match shape? d, itemsShape? rest with
    | some s, some (n :: t) => if s == t then some ((n + 1) :: t) else none
    | _, _ => none

end

mutual

def leaves : RawDatum → List RawDatum
  | .list items => itemLeaves items
  | d => [d]

def itemLeaves : List RawDatum → List RawDatum
  | [] => []
  | d :: rest => leaves d ++ itemLeaves rest

end

inductive NumberFault where
  | notNumeric
  | tooLarge
deriving DecidableEq, Repr

/-- A datum as a double: nothing counts as no number, a truth value as zero or one. -/
def number : RawDatum → Except NumberFault Float
  | .null => .ok (0.0 / 0.0)
  | .bool b => .ok (if b then 1.0 else 0.0)
  | .int n =>
    let x := Decimal.nearest (n < 0) n.natAbs 1
    if x.isInf then .error .tooLarge else .ok x
  | .float x => .ok x
  | .text s =>
    match s.text? >>= fun plain => Decimal.read? plain.toList with
    | some x => .ok x
    | none => .error .notNumeric
  | _ => .error .notNumeric

def mostDimensions : Nat := 64

def table (d : RawDatum) : Except NumberFault (List Nat × List Float) :=
  match shape? d with
  | none => .error .notNumeric
  | some dims =>
    if mostDimensions < dims.length then .error .notNumeric
    else ((leaves d).mapM number).map fun xs => (dims, xs)

def rowsOf (width : Nat) : (count : Nat) → List Float → List (List Float)
  | 0, _ => []
  | count + 1, xs => xs.take width :: rowsOf width count (xs.drop width)

def refuse (error : ClassifierError) : Except ModelFault α :=
  .error (.refused error)

def blame (error : ClassifierError) : NumberFault → ModelFault
  | .notNumeric => .refused error
  | .tooLarge => .numberTooLarge

def sections (source : String) (d : RawDatum) :
    Except ModelFault (List RawDatum × List (CodePoints × RawDatum) × Option (List RawDatum)) :=
  match d with
  | .object fields =>
    match Datum.field? fields "labels" with
    | some (.list labels) =>
      match (Datum.field? fields "weights").getD (.object []) with
      | .object weights =>
        match Datum.field? fields "bias" with
        | none => .ok (labels, weights, none)
        | some (.list bias) => .ok (labels, weights, some bias)
        | _ => refuse (.badFormat source "'bias' must be a list")
      | _ => refuse (.badFormat source "'weights' must be an object")
    | _ => refuse (.badFormat source "'labels' must be a list")
  | _ => refuse (.badFormat source "expected an object")

def biasOf (source : String) (labels : Nat) (bias : Option (List RawDatum)) :
    Except ModelFault (List Float) :=
  match bias with
  | none => .ok (List.replicate labels 0.0)
  | some items =>
    match table (.list items) with
    | .error fault => .error (blame (.nonNumericBias source) fault)
    | .ok (dims, xs) =>
      if dims == [labels] then .ok xs
      else refuse (.biasSize source (dims.foldl (· * ·) 1) labels)

def checkedRows (source : String) (labels : Nat) :
    List (CodePoints × RawDatum) → Except ModelFault (List RawDatum)
  | [] => .ok []
  | (token, row) :: rest =>
    match row with
    | .list items =>
      if items.length == labels then (checkedRows source labels rest).map (row :: ·)
      else refuse (.rowSize source token labels)
    | _ => refuse (.rowSize source token labels)

def weightsOf (source : String) (labels : Nat) (weights : List (CodePoints × RawDatum)) :
    Except ModelFault (List (List Float)) :=
  match checkedRows source labels weights with
  | .error fault => .error fault
  | .ok rows =>
    match table (.list rows) with
    | .error fault => .error (blame (.nonNumericWeights source) fault)
    | .ok (_, xs) =>
      if xs.length == rows.length * labels then .ok (rowsOf labels rows.length xs)
      else refuse (.nonNumericWeights source)

/-- The model that a datum describes; `source` names it in messages. -/
def ofDatum (source : String) (d : RawDatum) : Except ModelFault Model := do
  let (labels, weights, bias) ← sections source d
  let labels := labels.map RawDatum.display
  if labels.isEmpty then refuse (.noLabels source)
  else
    let bias ← biasOf source labels.length bias
    let rows ← weightsOf source labels.length weights
    if bias.all Float.isFinite && rows.all (·.all Float.isFinite) then
      return ⟨labels, bias, (weights.map Prod.fst).zip rows⟩
    else refuse (.notFinite source)

def scores (m : Model) (text : List Char) : List Float :=
  (wordsOf text).foldl (fun acc word =>
    match m.rows.lookup (.ofString word) with
    | some row => List.zipWith (· + ·) acc row
    | none => acc) m.bias

/-- The place and the value of the first greatest entry. -/
def greatest (xs : List Float) : Nat × Float :=
  (xs.zipIdx.foldl (fun (best : Option (Nat × Float)) (x, i) =>
    match best with
    | some (j, y) => if y < x then some (i, x) else some (j, y)
    | none => some (i, x)) none).getD (0, 0.0)

def shares (xs : List Float) : List Float :=
  let top := (greatest xs).2
  let powers := xs.map fun x => Float.exp (x - top)
  let total := powers.foldl (· + ·) 0.0
  powers.map (· / total)

def predict (m : Model) (text : List Char) : Except ClassifierError (Verdict CodePoints) :=
  let scores := m.scores text
  if scores.all Float.isFinite then
    let (i, share) := greatest (shares scores)
    .ok ⟨m.labels[i]?.getD [], share⟩
  else .error .overflowed

end Model
end Scribe
