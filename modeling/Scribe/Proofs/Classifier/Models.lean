import Scribe.Classifier.Model
import Scribe.Proofs.Decimal.Range
import Scribe.Proofs.Outcome

/-!
# Models from data

Whether a datum is a model does not depend on the name it has in messages. A model has a label, a
bias for each label and rows of that width, so its answer to a text is one of its labels. A datum
is refused with a message unless it reaches a whole number that is no double.
-/
namespace Scribe.Model
open Outcome

/-! ## Tables -/

mutual

/-- A table has as many entries as its dimensions make. -/
theorem length_leaves {d : RawDatum} {dims : List Nat} (h : shape? d = some dims) :
    (leaves d).length = dims.foldr (· * ·) 1 := by
  cases d with
  | list items =>
    rw [shape?] at h
    rw [leaves]
    exact length_itemLeaves h
  | _ =>
    cases h
    rfl

theorem length_itemLeaves {items : List RawDatum} {dims : List Nat}
    (h : itemsShape? items = some dims) :
    (itemLeaves items).length = dims.foldr (· * ·) 1 := by
  cases items with
  | nil =>
    cases h
    rfl
  | cons d rest =>
    rw [itemLeaves, List.length_append]
    cases rest with
    | nil =>
      rw [itemsShape?] at h
      obtain ⟨inner, hinner, rfl⟩ := Option.map_eq_some_iff.mp h
      rw [length_leaves hinner, itemLeaves, List.foldr_cons, Nat.one_mul]
      rfl
    | cons d' rest =>
      rw [itemsShape?] at h
      · split at h
        · rename_i s n t hs ht
          split at h
          · cases h
            rename_i heq
            rw [length_leaves hs, length_itemLeaves ht, beq_iff_eq.mp heq, List.foldr_cons,
              List.foldr_cons, Nat.add_mul, Nat.one_mul, Nat.add_comm]
          · cases h
        · cases h
      · simp

end

def BeyondDoubles (n : Int) : Prop := Decimal.leastInfinite ≤ n.natAbs

/-- A table that can be laid out, whose first entry that is no double is a whole number beyond
all doubles. -/
def Overflows (d : RawDatum) : Prop :=
  ∃ dims, shape? d = some dims ∧ dims.length ≤ mostDimensions ∧
    ∃ before n after, leaves d = before ++ .int n :: after ∧
      (∀ entry ∈ before, ∃ x, number entry = .ok x) ∧ BeyondDoubles n

def HasParts (d : RawDatum) (labels : List RawDatum) (weights : List (CodePoints × RawDatum))
    (bias : Option (List RawDatum)) : Prop :=
  ∃ fields, d = .object fields ∧ Datum.field? fields "labels" = some (.list labels) ∧
    (Datum.field? fields "weights").getD (.object []) = .object weights ∧
    Datum.field? fields "bias" = bias.map .list

section Parts
variable {source : String} {d : RawDatum} {n : Nat}

theorem sections_eq_ok {labels : List RawDatum} {weights : List (CodePoints × RawDatum)}
    {bias : Option (List RawDatum)} :
    sections source d = .ok (labels, weights, bias) ↔ HasParts d labels weights bias := by
  unfold sections HasParts
  constructor
  · intro h
    split at h
    · split at h
      · split at h
        · split at h
          · cases h
            exact ⟨_, rfl, ‹_›, ‹_›, ‹_›⟩
          · cases h
            exact ⟨_, rfl, ‹_›, ‹_›, ‹_›⟩
          · cases h
        · cases h
      · cases h
    · cases h
  · rintro ⟨fields, rfl, hlabels, hweights, hbias⟩
    simp only [hlabels, hweights, hbias]
    cases bias <;> rfl

theorem biasOf_eq_ok {bias : Option (List RawDatum)} {xs : List Float} :
    biasOf source n bias = .ok xs ↔ (bias = none ∧ xs = List.replicate n 0.0) ∨
      ∃ items, bias = some items ∧ table (.list items) = .ok ([n], xs) := by
  cases bias with
  | none => simp [biasOf, eq_comm]
  | some items =>
    cases ht : table (.list items) with
    | error fault => simp [biasOf, ht]
    | ok result =>
      obtain ⟨dims, ys⟩ := result
      by_cases hdims : dims = [n]
      · simp [biasOf, ht, hdims]
      · simp [biasOf, ht, hdims, refuse]

def HasRows (n : Nat) (weights : List (CodePoints × RawDatum)) : Prop :=
  ∀ p ∈ weights, ∃ items, p.2 = .list items ∧ items.length = n

/-- The rows are those of the weights, or there is a row that is refused. -/
theorem checkedRows_cases (source : String) (n : Nat) (weights : List (CodePoints × RawDatum)) :
    (HasRows n weights ∧ checkedRows source n weights = .ok (weights.map Prod.snd)) ∨
      (¬HasRows n weights ∧ ∃ error, checkedRows source n weights = .error (.refused error)) := by
  induction weights with
  | nil => exact .inl ⟨nofun, rfl⟩
  | cons p rest ih =>
    obtain ⟨token, row⟩ := p
    have hrefused (hrow : ¬∃ items, row = .list items ∧ items.length = n)
        (hc : checkedRows source n ((token, row) :: rest) = refuse (.rowSize source token n)) :
        ¬HasRows n ((token, row) :: rest) ∧
          ∃ error, checkedRows source n ((token, row) :: rest) = .error (.refused error) :=
      ⟨fun hall => hrow (hall _ List.mem_cons_self), _, hc⟩
    cases row with
    | list items =>
      by_cases hlen : items.length = n
      · have hnext : checkedRows source n ((token, .list items) :: rest) =
            (checkedRows source n rest).map (.list items :: ·) := by simp [checkedRows, hlen]
        rw [hnext, HasRows, List.forall_mem_cons]
        rcases ih with ⟨hall, hok⟩ | ⟨hnot, error, herror⟩
        · rw [hok]
          exact .inl ⟨⟨⟨items, rfl, hlen⟩, hall⟩, rfl⟩
        · rw [herror]
          exact .inr ⟨fun hall => hnot hall.2, error, rfl⟩
      · exact .inr (hrefused (by simp [hlen]) (by simp [checkedRows, hlen]))
    | _ => exact .inr (hrefused (by simp) (by simp [checkedRows]))

theorem weightsOf_eq_ok {weights : List (CodePoints × RawDatum)} {rows : List (List Float)} :
    weightsOf source n weights = .ok rows ↔ HasRows n weights ∧ ∃ dims xs,
      table (.list (weights.map Prod.snd)) = .ok (dims, xs) ∧ xs.length = weights.length * n ∧
        rows = rowsOf n weights.length xs := by
  unfold weightsOf
  rcases checkedRows_cases source n weights with ⟨hall, hc⟩ | ⟨hnot, error, hc⟩
  · rw [hc]
    dsimp only
    cases ht : table (.list (weights.map Prod.snd)) with
    | error fault => simp
    | ok result =>
      obtain ⟨dims, xs⟩ := result
      by_cases hlen : xs.length = weights.length * n
      · simp only [hall, List.length_map, hlen, beq_self_eq_true, if_true, true_and]
        constructor
        · rintro ⟨⟩
          exact ⟨dims, xs, rfl, hlen, rfl⟩
        · rintro ⟨_, _, ⟨⟩, -, rfl⟩
          rfl
      · simp only [List.length_map, beq_iff_eq, hlen, if_false, refuse]
        constructor
        · exact nofun
        · rintro ⟨-, _, _, ⟨⟩, hlen', -⟩
          exact absurd hlen' hlen
  · rw [hc]
    exact ⟨nofun, fun h => absurd h.1 hnot⟩

end Parts

/-! ## Whole models -/

section Whole
variable {source : String} {d : RawDatum} {m : Model}

theorem ofDatum_of_sections {labels : List RawDatum} {weights : List (CodePoints × RawDatum)}
    {bias : Option (List RawDatum)} (h : sections source d = .ok (labels, weights, bias))
    (hlabels : labels ≠ []) :
    ofDatum source d = biasOf source labels.length bias >>= fun xs =>
      weightsOf source labels.length weights >>= fun rows =>
        if xs.all Float.isFinite && rows.all (·.all Float.isFinite) then
          .ok ⟨labels.map RawDatum.display, xs, (weights.map Prod.fst).zip rows⟩
        else refuse (.notFinite source) := by
  have hsome : (labels.map RawDatum.display).isEmpty = false := by simpa using hlabels
  unfold ofDatum
  rw [h]
  simp only [bind, Except.bind, hsome, List.length_map]
  rfl

theorem ofDatum_without_labels {weights : List (CodePoints × RawDatum)}
    {bias : Option (List RawDatum)} (h : sections source d = .ok ([], weights, bias)) :
    ofDatum source d = refuse (.noLabels source) := by
  unfold ofDatum
  rw [h]
  rfl

theorem ofDatum_of_error {fault : ModelFault} (h : sections source d = .error fault) :
    ofDatum source d = .error fault := by
  unfold ofDatum
  rw [h]
  rfl

theorem ofDatum_eq_ok :
    ofDatum source d = .ok m ↔ ∃ labels weights bias xs rows,
      sections source d = .ok (labels, weights, bias) ∧ labels ≠ [] ∧
        biasOf source labels.length bias = .ok xs ∧
        weightsOf source labels.length weights = .ok rows ∧
        (xs.all Float.isFinite && rows.all (·.all Float.isFinite)) = true ∧
        m = ⟨labels.map RawDatum.display, xs, (weights.map Prod.fst).zip rows⟩ := by
  constructor
  · intro h
    cases hsections : sections source d with
    | error fault =>
      rw [ofDatum_of_error hsections] at h
      cases h
    | ok parts =>
      obtain ⟨labels, weights, bias⟩ := parts
      by_cases hlabels : labels = []
      · subst hlabels
        rw [ofDatum_without_labels hsections] at h
        cases h
      · rw [ofDatum_of_sections hsections hlabels, bind_eq_ok] at h
        obtain ⟨xs, hxs, h⟩ := h
        obtain ⟨rows, hrows, h⟩ := bind_eq_ok.mp h
        split at h
        · cases h
          exact ⟨labels, weights, bias, xs, rows, rfl, hlabels, hxs, hrows, ‹_›, rfl⟩
        · cases h
  · rintro ⟨labels, weights, bias, xs, rows, hsections, hlabels, hxs, hrows, hfinite, rfl⟩
    rw [ofDatum_of_sections hsections hlabels, bind_eq_ok]
    refine ⟨xs, hxs, bind_eq_ok.mpr ⟨rows, hrows, ?_⟩⟩
    rw [if_pos hfinite]

/-- A model is the same by whatever name it is read. -/
theorem ofDatum_congr (h : ofDatum source d = .ok m) (source' : String) :
    ofDatum source' d = .ok m := by
  obtain ⟨labels, weights, bias, xs, rows, hsections, hlabels, hxs, hrows, hrest⟩ :=
    ofDatum_eq_ok.mp h
  exact ofDatum_eq_ok.mpr ⟨labels, weights, bias, xs, rows,
    sections_eq_ok.mpr (sections_eq_ok.mp hsections), hlabels,
    biasOf_eq_ok.mpr (biasOf_eq_ok.mp hxs), weightsOf_eq_ok.mpr (weightsOf_eq_ok.mp hrows), hrest⟩

/-- A file in the form of a model whose bias overflows, or whose bias fits and whose weights
overflow. -/
def Oversized (d : RawDatum) : Prop :=
  ∃ labels weights bias, HasParts d labels weights bias ∧ labels ≠ [] ∧
    ((∃ items, bias = some items ∧ Overflows (.list items)) ∨
      (∀ items, bias = some items → ∃ xs, table (.list items) = .ok ([labels.length], xs)) ∧
        HasRows labels.length weights ∧ Overflows (.list (weights.map Prod.snd)))

structure WellFormed (m : Model) : Prop where
  labels : m.labels ≠ []
  bias : m.bias.length = m.labels.length
  rows : ∀ row ∈ m.rows, row.2.length = m.labels.length

end Whole

/-! ## Answers -/

end Scribe.Model
