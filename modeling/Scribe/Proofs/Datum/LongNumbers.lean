import Scribe.Datum.Reader

/-!
# Numbers that are too long

Reading a data file fails for the length of a number only if so many digits stand in the file, one
after the other. A read goes on behind what it has read, so that whatever a later part meets is met
in the text of the whole.
-/
namespace Scribe.Datum

/-- More digits in a row than are read as a whole number. -/
def HasDigits (cs : List Char) (count : Nat) : Prop :=
  mostDigits < count ∧ ∃ digits, digits <:+: cs ∧ digits.length = count ∧
    ∀ c ∈ digits, c.isDigit = true

theorem HasDigits.mono {cs cs' : List Char} {count : Nat} (h : HasDigits cs count)
    (hs : cs <:+ cs') : HasDigits cs' count := by
  obtain ⟨hmany, digits, hin, hrest⟩ := h
  exact ⟨hmany, digits, hin.trans hs.isInfix, hrest⟩

/-- A read of `cs` stops within it, or at a fault; the fault is not the length of a number, unless
the number stands there. -/
structure Within {α : Type} (cs : List Char) (r : Read α) : Prop where
  rest : ∀ a q, r = .ok (a, q) → q.rest <:+ cs
  digits : ∀ f count, r = .error f → f.cause = .tooManyDigits count → HasDigits cs count

namespace Within
variable {α β : Type} {cs cs' : List Char} {r : Read α}

theorem ok {a : α} {q : Place} (h : q.rest <:+ cs) : Within cs (.ok (a, q)) :=
  ⟨by rintro _ _ ⟨⟩; exact h, nofun⟩

theorem error {f : Fault} (h : ∀ count, f.cause ≠ .tooManyDigits count) :
    Within (α := α) cs (.error f) :=
  ⟨nofun, by rintro _ count ⟨⟩ hcause; exact absurd hcause (h count)⟩

theorem mono (h : Within cs r) (hs : cs <:+ cs') : Within cs' r :=
  ⟨fun a q hr => (h.rest a q hr).trans hs, fun f count hr hf => (h.digits f count hr hf).mono hs⟩

theorem fails {f : Fault} (h : Within cs r) (hr : r = .error f) : Within (α := β) cs (.error f) :=
  ⟨nofun, by rintro _ count ⟨⟩ hf; exact h.digits f count hr hf⟩

theorem map {g : α × Place → β × Place} (h : Within cs r)
    (hg : ∀ found, (g found).2 = found.2) : Within cs (r.map g) := by
  cases r with
  | error f => exact h.fails rfl
  | ok found =>
    have hrest : (g found).2.rest <:+ cs := by
      rw [hg found]
      exact h.rest found.1 found.2 rfl
    exact ok hrest

end Within

theorem advance_suffix (p : Place) (n : Nat) : (p.advance n).rest <:+ p.rest :=
  List.drop_suffix n p.rest

theorem skipSpace_suffix (p : Place) : p.skipSpace.rest <:+ p.rest := advance_suffix p _

theorem cause_of_readCode {p : Place} {f : Fault} (h : readCode p = .error f) :
    f.cause = .unicodeEscape := by
  unfold readCode at h
  dsimp only at h
  repeat' split at h
  all_goals cases h
  all_goals rfl

theorem within_readStringFrom (start : Nat) (cs : List Char) (position skip : Nat) :
    Within cs (readStringFrom start position skip cs) := by
  induction cs generalizing position skip with
  | nil =>
    rw [readStringFrom]
    exact .error (by simp)
  | cons c r ih =>
    have hbehind : r <:+ c :: r := List.suffix_cons c r
    have hmore {g : CodePoints × Place → CodePoints × Place} (hg : ∀ found, (g found).2 = found.2)
        (skip : Nat) : Within (c :: r) ((readStringFrom start (position + 1) skip r).map g) :=
      ((ih (position + 1) skip).map hg).mono hbehind
    cases skip with
    | succ skip =>
      rw [readStringFrom]
      exact (ih (position + 1) skip).mono hbehind
    | zero =>
      unfold readStringFrom
      split
      · exact .ok hbehind
      · split
        · split
          · exact .error (by simp)
          · split
            · rename_i f hcode
              exact .error (by simp [cause_of_readCode hcode])
            · exact hmore (fun _ => by rfl) _
          · split
            · exact hmore (fun _ => by rfl) _
            · exact .error (by simp)
        · split
          · exact .error (by simp)
          · exact hmore (fun _ => by rfl) _

theorem within_readText (p : Place) : Within p.rest (readText p) :=
  (within_readStringFrom p.position p.rest.tail (p.position + 1) 0).mono (List.tail_suffix p.rest)

theorem within_readNumber? {p : Place} {r : Read RawDatum} (h : readNumber? p = some r) :
    Within p.rest r := by
  unfold readNumber? at h
  extract_lets isDigit negative cs whole at h
  have hsuffix : cs <:+ p.rest := by
    unfold cs
    split
    · exact List.tail_suffix p.rest
    · exact List.suffix_refl p.rest
  have hwhole : whole <:+: cs ∧ ∀ c ∈ whole, c.isDigit = true := by
    unfold whole
    split
    · rename_i hzero
      obtain ⟨tail, htail⟩ := List.head?_eq_some_iff.mp (beq_iff_eq.mp hzero)
      rw [htail]
      refine ⟨⟨[], tail, rfl⟩, fun c hc => ?_⟩
      rw [List.mem_singleton.mp hc]
      rfl
    · exact ⟨(List.takeWhile_prefix _).isInfix, List.all_eq_true.mp List.all_takeWhile⟩
  split at h
  · cases h
  · -- Only a number without a fraction and without an exponent can be too long.
    split at h
    · split at h
      · rename_i hmany
        cases h
        refine ⟨nofun, ?_⟩
        rintro _ count ⟨⟩ ⟨⟩
        exact ⟨hmany, whole, hwhole.1.trans hsuffix.isInfix, rfl, hwhole.2⟩
      · cases h
        exact .ok (advance_suffix p _)
    · cases h
      exact .ok (advance_suffix p _)

theorem within_readScalar (p : Place) : Within p.rest (readScalar p) := by
  unfold readScalar
  split
  · exact .ok (advance_suffix p _)
  · split
    · exact within_readNumber? ‹_›
    · exact .error (by simp)

mutual

theorem within_readValue (depth : Nat) (p : Place) : Within p.rest (readValue depth p) := by
  cases depth with
  | zero =>
    rw [readValue]
    exact .error (by simp)
  | succ depth =>
    have hinside : (p.advance 1).skipSpace.rest <:+ p.rest :=
      (skipSpace_suffix _).trans (advance_suffix p 1)
    unfold readValue
    split
    · exact (within_readText p).map fun _ => by rfl
    · dsimp only
      split
      · exact .ok ((advance_suffix _ 1).trans hinside)
      · exact ((within_readFields depth [] _).map fun _ => by rfl).mono hinside
    · dsimp only
      split
      · exact .ok ((advance_suffix _ 1).trans hinside)
      · exact ((within_readItems depth _).map fun _ => by rfl).mono hinside
    · exact within_readScalar p

theorem within_readItems (depth : Nat) (p : Place) : Within p.rest (readItems depth p) := by
  cases depth with
  | zero =>
    rw [readItems]
    exact .error (by simp)
  | succ depth =>
    have hvalue := within_readValue depth p
    unfold readItems
    split
    · exact hvalue.fails ‹_›
    · rename_i d q hd
      have hbehind : q.skipSpace.rest <:+ p.rest :=
        (skipSpace_suffix q).trans (hvalue.rest d q hd)
      dsimp only
      split
      · exact .ok ((advance_suffix _ 1).trans hbehind)
      · split
        · exact ((within_readItems depth _).map fun _ => by rfl).mono
            (((skipSpace_suffix _).trans (advance_suffix _ 1)).trans hbehind)
        · exact .error (by simp)

theorem within_readFields (depth : Nat) (fields : List (CodePoints × RawDatum)) (p : Place) :
    Within p.rest (readFields depth fields p) := by
  cases depth with
  | zero =>
    rw [readFields]
    exact .error (by simp)
  | succ depth =>
    have hname := within_readText p
    unfold readFields
    split
    · exact .error (by simp)
    · split
      · exact hname.fails ‹_›
      · rename_i name q hq
        have hcolon : q.skipSpace.rest <:+ p.rest :=
          (skipSpace_suffix q).trans (hname.rest name q hq)
        have hafter : (q.skipSpace.advance 1).skipSpace.rest <:+ p.rest :=
          ((skipSpace_suffix _).trans (advance_suffix _ 1)).trans hcolon
        have hvalue := (within_readValue depth (q.skipSpace.advance 1).skipSpace).mono hafter
        dsimp only
        split
        · exact .error (by simp)
        · split
          · exact hvalue.fails ‹_›
          · rename_i d q' hd
            have hbehind : q'.skipSpace.rest <:+ p.rest :=
              (skipSpace_suffix q').trans (hvalue.rest d q' hd)
            split
            · exact .ok ((advance_suffix _ 1).trans hbehind)
            · split
              · exact (within_readFields depth _ _).mono
                  (((skipSpace_suffix _).trans (advance_suffix _ 1)).trans hbehind)
              · exact .error (by simp)

end

/-- A file that is not read for the length of a number has that number in it. -/
theorem digits_of_read {source : List Char} {f : Fault} {count : Nat} (h : read source = .error f)
    (hf : f.cause = .tooManyDigits count) : HasDigits source count := by
  have hvalue := (within_readValue (2 * source.length + 2) (Place.mk 0 source).skipSpace).mono
    (skipSpace_suffix _)
  unfold read at h
  split at h
  · cases h
    cases hf
  · split at h
    · rename_i hread
      cases h
      exact hvalue.digits f count hread hf
    · dsimp only at h
      split at h
      · cases h
      · cases h
        cases hf

end Scribe.Datum
