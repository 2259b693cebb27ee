import Scribe.Instruction.Operand
import Scribe.Proofs.Instruction.Counts
import Scribe.Proofs.Instruction.OneLine
import Scribe.Proofs.Pattern.Unanchored
import Scribe.Proofs.Pattern.Words
import Scribe.Proofs.Text.Finding

/-!
# Where a clause is cut off

A clause that follows an operand starts with a marker. The marker is looked for in the lower-case
form of the text, in which every dotted capital I has become two characters, and the text itself is
cut at the place found there. So the cut comes one character too late for each such letter before
the marker. Of `, then` the first two characters are dropped at the end of an operand anyway: the
cut is right as long as no more than two such letters stand before it.
-/
namespace Scribe.Instruction
open Text Pattern

def beforeMarker (marker : String) (cs : List Char) : List Char :=
  match find? marker.toList (cs.map foldCase) with
  | some i => cs.take i
  | none => cs

/-- The place of the marker in lower case; without a marker, one that no character of the text
has. -/
def cutPlace (marker : String) (cs : List Char) : Nat :=
  (beforeMarker marker cs).length + (beforeMarker marker cs).count 'İ'

def isTrailing (c : Char) : Bool := c == ',' || c == '.' || isBlank c

/-- An ASCII character that is the lower-case form of exactly those characters that count as it
where case does not matter. -/
structure MarkerChar (m : Char) : Prop where
  ascii : 0 < m.toNat ∧ m.toNat < 128
  letter : m ≠ 'i' ∧ m ≠ 's'

instance (m : Char) : Decidable (MarkerChar m) :=
  decidable_of_iff ((0 < m.toNat ∧ m.toNat < 128) ∧ m ≠ 'i' ∧ m ≠ 's')
    ⟨fun h => ⟨h.1, h.2⟩, fun h => ⟨h.ascii, h.letter⟩⟩

section Lower
variable {marker : List Char} {m c : Char}

theorem fold_of_isStray (h : isStray c = true) : foldCase c = 'i' ∨ foldCase c = 's' := by
  simp only [isStray, Bool.or_eq_true, beq_iff_eq] at h
  rcases h with (rfl | rfl) | rfl <;> decide

theorem MarkerChar.eq_lowerChar_iff (hm : MarkerChar m) : m = lowerChar c ↔ m = foldCase c := by
  constructor
  · intro h
    rcases lowerChar_eq_ascii hm.ascii h.symm with ⟨hascii, hlower⟩ | rfl
    · simp [foldCase, hascii, hlower]
    · rw [h]
      decide +kernel
  · rintro rfl
    have hstray : isStray c = false := by
      refine Bool.eq_false_iff.mpr fun hstray => ?_
      rcases fold_of_isStray hstray with h | h
      · exact hm.letter.1 h
      · exact hm.letter.2 h
    exact (lowerChar_of_fold hm.ascii.2 hstray).symm

theorem MarkerChar.lowerBetween (hm : MarkerChar m) (hc : c ≠ 'İ') (before after : List Char) :
    ∃ x, lowerBetween before c after = [x] ∧ (m == x) = (m == foldCase c) := by
  by_cases hsigma : c = 'Σ'
  · have hne {x : Char} (hx : 128 ≤ x.toNat) : (m == x) = false := by
      rw [beq_eq_false_iff_ne]
      rintro rfl
      exact absurd hm.ascii.2 (Nat.not_lt.mpr hx)
    refine ⟨if meetsCased before && !meetsCased after then 'ς' else 'σ', ?_, ?_⟩
    · simp [Text.lowerBetween, hsigma]
    · rw [hsigma, hne (x := foldCase 'Σ') (by decide), hne]
      split <;> decide
  · refine ⟨lowerChar c, by simp [Text.lowerBetween, hc, hsigma], ?_⟩
    rw [Bool.eq_iff_iff, beq_iff_eq, beq_iff_eq, hm.eq_lowerChar_iff]

/-- A dotted capital I starts no marker, nor does anything in its lower-case form. -/
theorem MarkerChar.ne_dotted (hm : MarkerChar m) :
    (m == 'i') = false ∧ (m == '\u0307') = false := by
  refine ⟨beq_eq_false_iff_ne.mpr hm.letter.1, beq_eq_false_iff_ne.mpr ?_⟩
  rintro rfl
  exact absurd hm.ascii.2 (by decide)

variable (hmarker : ∀ m ∈ marker, MarkerChar m)
include hmarker

theorem isPrefixOf_lowerAfter (before cs : List Char) :
    marker.isPrefixOf (lowerAfter before cs) = marker.isPrefixOf (cs.map foldCase) := by
  induction marker generalizing before cs with
  | nil => rfl
  | cons m rest ih =>
    obtain ⟨hm, hrest⟩ := List.forall_mem_cons.mp hmarker
    cases cs with
    | nil => rfl
    | cons c r =>
      by_cases hc : c = 'İ'
      · have hfold : foldCase 'İ' = 'i' := by decide
        simp [hc, hfold, lowerAfter, Text.lowerBetween, List.isPrefixOf, hm.ne_dotted]
      · obtain ⟨x, hx, heq⟩ := hm.lowerBetween hc before r
        simp only [lowerAfter, hx, List.map_cons, List.cons_append, List.nil_append,
          List.isPrefixOf, heq, ih hrest]

/-- In lower case a marker stands one place further for each dotted capital I before it. -/
theorem find?_lowerAfter (hne : marker ≠ []) (before cs : List Char) :
    find? marker (lowerAfter before cs) =
      (find? marker (cs.map foldCase)).map fun i => i + (cs.take i).count 'İ' := by
  induction cs generalizing before with
  | nil => simp [lowerAfter, find?, List.isEmpty_eq_false_iff.mpr hne]
  | cons c r ih =>
    by_cases hc : c = 'İ'
    · obtain ⟨m, rest, rfl⟩ := List.exists_cons_of_ne_nil hne
      have hm := (hmarker m List.mem_cons_self).ne_dotted
      have hfold : foldCase 'İ' = 'i' := by decide
      have hlower : lowerAfter before (c :: r) = 'i' :: '\u0307' :: lowerAfter (c :: before) r := by
        simp [lowerAfter, Text.lowerBetween, hc]
      rw [hlower, List.map_cons, hc, hfold]
      simp only [find?, List.isPrefixOf, hm, Bool.false_and, ih]
      cases find? (m :: rest) (r.map foldCase) with
      | none => rfl
      | some i => simp; omega
    · have hfront := isPrefixOf_lowerAfter hmarker before (c :: r)
      obtain ⟨m, rest, rfl⟩ := List.exists_cons_of_ne_nil hne
      obtain ⟨x, hx, -⟩ := (hmarker m List.mem_cons_self).lowerBetween hc before r
      rw [lowerAfter, hx, List.singleton_append, List.map_cons] at hfront ⊢
      rw [find?, find?, hfront, ih]
      split
      · simp
      · cases find? (m :: rest) (r.map foldCase) with
        | none => rfl
        | some i => simp [hc, Nat.add_right_comm]

end Lower

theorem isTrailing_foldCase (c : Char) : isTrailing (foldCase c) = isTrailing c := by
  by_cases hascii : c.toNat < 128
  · have hall : ∀ n : Fin 128,
        isTrailing (Char.ofNat n).toLower = isTrailing (Char.ofNat n) := by decide +kernel
    have hc := hall ⟨c.toNat, hascii⟩
    rw [Char.ofNat_toNat] at hc
    rwa [foldCase, if_pos hascii]
  · by_cases hletter : c ∈ ['İ', 'ı', 'ſ', '\u212A']
    · have hall : ∀ c ∈ ['İ', 'ı', 'ſ', '\u212A'], isTrailing (foldCase c) = isTrailing c := by
        decide +kernel
      exact hall c hletter
    · have hself : foldCase c = c := by
        simp only [List.mem_cons, List.not_mem_nil, or_false, not_or] at hletter
        simp [foldCase, hascii, hletter]
      rw [hself]

theorem isTrailing_of_isBlank {c : Char} (h : isBlank c = true) : isTrailing c = true := by
  simp [isTrailing, h]

theorem dropEndWhile_trim {cs : List Char} (h : cs.head?.any isBlank = false) :
    dropEndWhile isTrailing (trim cs) = dropEndWhile isTrailing cs := by
  rw [trim_eq_trimEnd h]
  exact dropEndWhile_dropEndWhile (fun _ => isTrailing_of_isBlank) cs

section Marker
variable {marker : String} {cs : List Char}

/-- Either the marker does not stand in the text, or it stands behind the part before it. -/
theorem beforeMarker_cases (hne : marker.toList ≠ []) (cs : List Char) :
    find? marker.toList (cs.map foldCase) = none ∧ beforeMarker marker cs = cs ∨
      ∃ front found rest, cs = front ++ (found ++ rest) ∧ found.map foldCase = marker.toList ∧
        find? marker.toList (cs.map foldCase) = some front.length ∧
        beforeMarker marker cs = front := by
  cases hfind : find? marker.toList (cs.map foldCase) with
  | none => exact .inl ⟨rfl, by rw [beforeMarker, hfind]⟩
  | some i =>
    obtain ⟨more, hmore⟩ := prefix_of_find? hfind
    rw [← List.map_drop, eq_comm, List.map_eq_append_iff] at hmore
    obtain ⟨found, rest, hrest, hfound, -⟩ := hmore
    have hi : i ≤ cs.length := by
      rw [← hfound, ne_eq, List.map_eq_nil_iff] at hne
      have hlength := congrArg List.length hrest
      have hpositive := List.length_pos_iff.mpr hne
      rw [List.length_drop, List.length_append] at hlength
      omega
    refine .inr ⟨cs.take i, found, rest, ?_, hfound, ?_, ?_⟩
    · rw [← hrest, List.take_append_drop]
    · rw [List.length_take_of_le hi]
    · rw [beforeMarker, hfind]

variable (hmarker : ∀ m ∈ marker.toList, MarkerChar m) (hne : marker.toList ≠ [])
include hmarker hne

theorem dropEndWhile_cutAtLower (h : cs.head?.any isBlank = false) :
    dropEndWhile isTrailing (cutAtLower marker cs) =
      dropEndWhile isTrailing (cs.take (cutPlace marker cs)) := by
  rw [cutAtLower, lower, find?_lowerAfter hmarker hne, cutPlace]
  rcases beforeMarker_cases hne cs with
    ⟨hnone, hfront⟩ | ⟨front, found, rest, hcs, -, hsome, hfront⟩
  · rw [hnone, hfront, List.take_of_length_le (Nat.le_add_right _ _)]
    rfl
  · have htake : cs.take front.length = front := by rw [hcs, List.take_left]
    rw [hsome, hfront, Option.map_some, htake]
    exact dropEndWhile_trim (head?_any_of_isPrefix (List.take_prefix _ cs) h)

omit hmarker in
/-- What stands behind a text and does not count at its end does not move the place of a cut. -/
theorem dropEndWhile_take_append (hlast : ∃ last, marker.toList.getLast? = some last ∧
    isTrailing last = false) {more : List Char}
    (hmore : ∀ c ∈ more, isTrailing c = true) (cs : List Char) :
    dropEndWhile isTrailing ((cs ++ more).take (cutPlace marker (cs ++ more))) =
      dropEndWhile isTrailing (cs.take (cutPlace marker cs)) := by
  obtain ⟨last, hlast, hcounts⟩ := hlast
  have hfind : find? marker.toList ((cs ++ more).map foldCase) =
      find? marker.toList (cs.map foldCase) := by
    rw [List.map_append]
    refine find?_append hlast (fun c hc => ?_) _
    obtain ⟨d, hd, rfl⟩ := List.mem_map.mp hc
    rintro rfl
    rw [isTrailing_foldCase, hmore d hd] at hcounts
    cases hcounts
  have hdropped (n : Nat) : dropEndWhile isTrailing ((cs ++ more).take n) =
      dropEndWhile isTrailing (cs.take n) := by
    rw [List.take_append]
    exact dropEndWhile_append_dropped (fun c hc => hmore c (List.mem_of_mem_take hc)) _
  rcases beforeMarker_cases hne cs with
    ⟨hnone, hfront⟩ | ⟨front, found, rest, hcs, -, hsome, hfront⟩
  · have hwhole : beforeMarker marker (cs ++ more) = cs ++ more := by
      rw [beforeMarker, hfind, hnone]
    simp only [cutPlace, hwhole, hfront, List.take_of_length_le (Nat.le_add_right _ _)]
    exact dropEndWhile_append_dropped hmore cs
  · have hsame : beforeMarker marker (cs ++ more) = front := by
      rw [beforeMarker, hfind, hsome, hcs, List.append_assoc]
      exact List.take_left
    simp only [cutPlace, hsame, hfront, hdropped]

end Marker

section Operand
variable {cs : List Char}

theorem head?_cutAtLower {marker : String} (h : cs.head?.any isBlank = false) :
    (cutAtLower marker cs).head?.any isBlank = false := by
  unfold cutAtLower
  split
  · exact head?_trim _
  · exact h

theorem embeddedAssignment_unanchored : embeddedAssignment.Unanchored := by
  have hand := unanchored_word "and"
  simp only [embeddedAssignment, anyName, blanks1, blanks, some1, blank, wordChar, char,
    Append.append, HAppend.hAppend, Unanchored, hand, and_self]

theorem cleanOperand_of_not_found (h : embeddedAssignment.found cs = false) :
    cleanOperand cs = trim (dropEndWhile (fun c => c == ',' || c == '.')
      (cutAtLower ", then" (trim (dropEndWhile (· == ',') (trim cs))))) := by
  have hpart : trim (dropEndWhile (· == ',') (trim cs)) <:+: cs :=
    (trimmed_dropEnd_isInfix _ _).trans (trim_isInfix cs)
  simp only [cleanOperand, search_eq_none_of_isInfix embeddedAssignment_unanchored hpart h]

/-- Before a clause is looked for, only what does not count is dropped at the end. -/
theorem trim_eq_append_trailing (cs : List Char) :
    ∃ more, trim cs = trim (dropEndWhile (· == ',') (trim cs)) ++ more ∧
      ∀ c ∈ more, isTrailing c = true := by
  have hhead := head?_any_of_isPrefix (dropEndWhile_isPrefix (· == ',') (trim cs)) (head?_trim cs)
  obtain ⟨commas, hcommas, hcomma⟩ := dropEndWhile_rest (· == ',') (trim cs)
  obtain ⟨gap, hgap, hblank⟩ := dropEndWhile_rest isBlank (dropEndWhile (· == ',') (trim cs))
  refine ⟨gap ++ commas, ?_, List.forall_mem_append.mpr ⟨fun c hc => ?_, fun c hc => ?_⟩⟩
  · rw [trim_eq_trimEnd hhead, ← List.append_assoc, trimEnd, ← hgap, ← hcommas]
  · exact isTrailing_of_isBlank (hblank c hc)
  · simp [isTrailing, hcomma c hc]

theorem dropEndWhile_cleanOperand (h : embeddedAssignment.found cs = false) :
    dropEndWhile isTrailing (cleanOperand cs) =
      dropEndWhile isTrailing ((trim cs).take (cutPlace ", then" (trim cs))) := by
  have hpoint (c : Char) (hc : (c == ',' || c == '.') = true) : isTrailing c = true := by
    simp [isTrailing, hc]
  have hhead := head?_trim (dropEndWhile (· == ',') (trim cs))
  obtain ⟨more, hmore, htrailing⟩ := trim_eq_append_trailing cs
  rw [cleanOperand_of_not_found h]
  generalize trim (dropEndWhile (· == ',') (trim cs)) = e at hmore hhead ⊢
  have hcut : (cutAtLower ", then" e).head?.any isBlank = false := head?_cutAtLower hhead
  calc dropEndWhile isTrailing (trim (dropEndWhile _ (cutAtLower ", then" e)))
      = dropEndWhile isTrailing (dropEndWhile _ (cutAtLower ", then" e)) :=
        dropEndWhile_trim (head?_any_of_isPrefix (dropEndWhile_isPrefix _ _) hcut)
    _ = dropEndWhile isTrailing (cutAtLower ", then" e) := dropEndWhile_dropEndWhile hpoint _
    _ = dropEndWhile isTrailing (e.take (cutPlace ", then" e)) :=
        dropEndWhile_cutAtLower (by decide) (by decide) hhead
    _ = dropEndWhile isTrailing ((trim cs).take (cutPlace ", then" (trim cs))) := by
        rw [hmore, dropEndWhile_take_append (by decide) ⟨'n', by decide⟩ htrailing]

/-- Of what is kept behind an operand, the first two characters of the marker do not count. -/
theorem trailing_take_iff {found : List Char} (h : found.map foldCase = ", then".toList)
    (rest : List Char) (k : Nat) :
    (∀ c ∈ (found ++ rest).take k, isTrailing c = true) ↔ k ≤ 2 := by
  obtain ⟨comma, r, rfl, hcomma, hr⟩ := List.map_eq_cons_iff.mp h
  obtain ⟨space, r, rfl, hspace, hr⟩ := List.map_eq_cons_iff.mp hr
  obtain ⟨letter, r, rfl, hletter, -⟩ := List.map_eq_cons_iff.mp hr
  have hfirst : isTrailing comma = true := by rw [← isTrailing_foldCase, hcomma]; decide
  have hsecond : isTrailing space = true := by rw [← isTrailing_foldCase, hspace]; decide
  have hthird : isTrailing letter = false := by rw [← isTrailing_foldCase, hletter]; decide
  match k with
  | 0 | 1 | 2 => simp [hfirst, hsecond]
  | k + 3 => simp [hthird]

/-- An operand that no second assignment follows is cut after as many characters as stand before
the marker, and one more for each dotted capital I among them. Up to what does not count at the
end, this is the part before the marker exactly if there is no marker or there are at most two such
letters. -/
theorem cleanOperand_cut (h : embeddedAssignment.found cs = false) :
    let front := beforeMarker ", then" (trim cs)
    dropEndWhile isTrailing (cleanOperand cs) =
        dropEndWhile isTrailing ((trim cs).take (front.length + front.count 'İ')) ∧
      (dropEndWhile isTrailing (cleanOperand cs) = dropEndWhile isTrailing front ↔
        front = trim cs ∨ front.count 'İ' ≤ 2) := by
  have hcut := dropEndWhile_cleanOperand h
  refine ⟨hcut, ?_⟩
  rw [hcut, cutPlace]
  have hne : ", then".toList ≠ [] := by decide
  rcases beforeMarker_cases hne (trim cs) with
    ⟨-, hfront⟩ | ⟨front, found, rest, hcs, hfound, -, hfront⟩
  · simp [hfront, List.take_of_length_le]
  · have hbefore : front ≠ trim cs := by
      intro hwhole
      rw [hcs, List.self_eq_append_right, List.append_eq_nil_iff] at hwhole
      rw [hwhole.1] at hfound
      cases hfound
    rw [hfront, hcs, List.take_length_add_append, dropEndWhile_append_eq_iff,
      trailing_take_iff hfound, ← hcs]
    simp [hbefore]

theorem cleanOperand_cut_dotted :
    embeddedAssignment.found "İİİ, then x".toList = false ∧
      dropEndWhile isTrailing (cleanOperand "İİİ, then x".toList) ≠
        dropEndWhile isTrailing (beforeMarker ", then" (trim "İİİ, then x".toList)) := by
  have hfound : embeddedAssignment.found "İİİ, then x".toList = false := by decide +kernel
  refine ⟨hfound, fun h => ?_⟩
  have hfew := (cleanOperand_cut hfound).2.mp h
  revert hfew
  decide +kernel

end Operand

end Scribe.Instruction
