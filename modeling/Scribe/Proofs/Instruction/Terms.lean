import Scribe.Instruction.Concat
import Scribe.Proofs.Text.Trim

/-!
# The terms of a concatenation

A `+` separates terms exactly if every quote before it is closed by the same quote. The terms are
what stands between these signs; terms that were joined by signs come back, whatever their quotes
shield.
-/
namespace Scribe.Instruction
open Text

def markBehind (mark : Option Char) (c : Char) : Option Char :=
  match mark with
  | some q => if c == q then none else some q
  | none => if isQuote c then some c else none

def growFirst (c : Char) : List (List Char) → List (List Char)
  | [] => [[c]]
  | piece :: pieces => (c :: piece) :: pieces

theorem piecesFrom_quoted (q c : Char) (r : List Char) :
    piecesFrom (some q) (c :: r) =
      growFirst c (piecesFrom (if c == q then none else some q) r) := rfl

theorem piecesFrom_unquoted (c : Char) (r : List Char) :
    piecesFrom none (c :: r) =
      if isQuote c then growFirst c (piecesFrom (some c) r)
      else if c == '+' then [] :: piecesFrom none r
      else growFirst c (piecesFrom none r) := rfl

theorem piecesFrom_cons (mark : Option Char) (c : Char) (r : List Char) :
    piecesFrom mark (c :: r) =
      if c = '+' ∧ mark = none then [] :: piecesFrom none r
      else growFirst c (piecesFrom (markBehind mark c) r) := by
  cases mark with
  | some q => simp [piecesFrom_quoted, markBehind]
  | none =>
    rw [piecesFrom_unquoted, markBehind]
    by_cases hc : c = '+'
    · simp [hc, isQuote]
    · by_cases hquote : isQuote c = true <;> simp [hc, hquote]

/-- A text at whose end no quote is open: every quote is closed by the next quote of its kind. -/
inductive Closed : List Char → Prop
  | nil : Closed []
  | plain {c : Char} {cs : List Char} : isQuote c = false → Closed cs → Closed (c :: cs)
  | quoted {mark : Char} {body cs : List Char} : isQuote mark = true → mark ∉ body → Closed cs →
      Closed (mark :: (body ++ mark :: cs))

def openMark (mark : Option Char) (cs : List Char) : Option Char := cs.foldl markBehind mark

section Marks
variable {mark : Option Char} {q : Char} {body cs : List Char}

theorem openMark_cons (mark : Option Char) (c : Char) (r : List Char) :
    openMark mark (c :: r) = openMark (markBehind mark c) r := rfl

theorem openMark_body (h : q ∉ body) (r : List Char) :
    openMark (some q) (body ++ q :: r) = openMark none r := by
  induction body with
  | nil => simp [openMark_cons, markBehind]
  | cons c body ih =>
    obtain ⟨hc, hbody⟩ := List.ne_and_not_mem_of_not_mem_cons h
    have hopen : markBehind (some q) c = some q := by simp [markBehind, Ne.symm hc]
    rw [List.cons_append, openMark_cons, hopen, ih hbody]

theorem Closed.openMark (h : Closed cs) : openMark none cs = none := by
  induction h with
  | nil => rfl
  | plain hc _ ih => rw [openMark_cons, markBehind, hc]; exact ih
  | quoted hmark hbody _ ih =>
    rw [openMark_cons, markBehind, if_pos hmark, openMark_body hbody]
    exact ih

/-- Where no quote is open at the end, one that was open is closed by the first of its kind. -/
theorem closed_of_openMark (cs : List Char) :
    (openMark none cs = none → Closed cs) ∧
      ∀ q, openMark (some q) cs = none → ∃ body rest, cs = body ++ q :: rest ∧ q ∉ body ∧
        Closed rest := by
  induction cs with
  | nil => exact ⟨fun _ => .nil, fun q h => by cases h⟩
  | cons c r ih =>
    obtain ⟨hclosed, hopen⟩ := ih
    refine ⟨fun h => ?_, fun q h => ?_⟩
    · rw [openMark_cons, markBehind] at h
      split at h
      · rename_i hc
        obtain ⟨body, rest, rfl, hbody, hrest⟩ := hopen c h
        exact .quoted hc hbody hrest
      · rename_i hc
        exact .plain (Bool.eq_false_iff.mpr hc) (hclosed h)
    · rw [openMark_cons, markBehind] at h
      split at h
      · rename_i hc
        exact ⟨[], r, by rw [beq_iff_eq.mp hc]; rfl, List.not_mem_nil, hclosed h⟩
      · rename_i hc
        obtain ⟨body, rest, rfl, hbody, hrest⟩ := hopen q h
        have hne : q ≠ c := fun heq => hc (beq_iff_eq.mpr heq.symm)
        exact ⟨c :: body, rest, rfl, List.not_mem_cons_of_ne_of_not_mem hne hbody, hrest⟩

theorem closed_iff : Closed cs ↔ openMark none cs = none :=
  ⟨Closed.openMark, (closed_of_openMark cs).1⟩

end Marks

instance : DecidablePred Closed := fun _ => decidable_of_iff _ closed_iff.symm

/-- The places of the `+` signs outside quotes. -/
def outerPlus (cs : List Char) : List Nat :=
  (List.range cs.length).filter fun i => cs[i]? = some '+' ∧ Closed (cs.take i)

/-- What stands between the given places of a text, which are left out, from `start` on. -/
def piecesBetween (cs : List Char) : (start : Nat) → List Nat → List (List Char)
  | start, [] => [cs.drop start]
  | start, stop :: stops => (cs.take stop).drop start :: piecesBetween cs (stop + 1) stops

def plusFrom (mark : Option Char) (cs : List Char) : List Nat :=
  (List.range cs.length).filter fun i => cs[i]? = some '+' ∧ openMark mark (cs.take i) = none

section Places
variable {mark : Option Char} {c : Char} {r : List Char} {stops : List Nat}

theorem outerPlus_eq (cs : List Char) : outerPlus cs = plusFrom none cs := by
  simp only [outerPlus, plusFrom, closed_iff]

theorem plusFrom_cons (mark : Option Char) (c : Char) (r : List Char) :
    plusFrom mark (c :: r) =
      (if c = '+' ∧ mark = none then [0] else []) ++
        (plusFrom (markBehind mark c) r).map (· + 1) := by
  have hfirst : decide ((c :: r)[0]? = some '+' ∧ openMark mark ((c :: r).take 0) = none) =
      decide (c = '+' ∧ mark = none) := by simp [openMark]
  have hlater : ((List.range r.length).map Nat.succ).filter (fun i =>
      (c :: r)[i]? = some '+' ∧ openMark mark ((c :: r).take i) = none) =
        (plusFrom (markBehind mark c) r).map (· + 1) := List.filter_map
  rw [plusFrom, List.length_cons, List.range_succ_eq_map, List.filter_cons, hfirst, hlater]
  simp only [decide_eq_true_eq]
  split <;> rfl

theorem piecesBetween_cons (start : Nat) :
    piecesBetween (c :: r) (start + 1) (stops.map (· + 1)) = piecesBetween r start stops := by
  induction stops generalizing start with
  | nil => rfl
  | cons stop stops ih => simp [piecesBetween, ih]

theorem piecesBetween_grow :
    piecesBetween (c :: r) 0 (stops.map (· + 1)) = growFirst c (piecesBetween r 0 stops) := by
  cases stops with
  | nil => rfl
  | cons stop stops => simp [piecesBetween, growFirst, piecesBetween_cons]

theorem piecesFrom_eq (mark : Option Char) (cs : List Char) :
    piecesFrom mark cs = piecesBetween cs 0 (plusFrom mark cs) := by
  induction cs generalizing mark with
  | nil => rfl
  | cons c r ih =>
    rw [piecesFrom_cons, plusFrom_cons]
    split
    · rename_i hplus
      obtain ⟨rfl, rfl⟩ := hplus
      have hbehind : markBehind none '+' = none := rfl
      rw [ih, hbehind, List.singleton_append, piecesBetween, piecesBetween_cons]
      rfl
    · rw [List.nil_append, piecesBetween_grow, ih]

theorem join_growFirst (sep : List Char) (c : Char) (pieces : List (List Char)) :
    join sep (growFirst c pieces) = c :: join sep pieces := by
  cases pieces with
  | nil => rfl
  | cons first rest => cases rest <;> simp [growFirst, join, List.intercalate_cons_cons]

theorem piecesFrom_ne_nil (mark : Option Char) (cs : List Char) : piecesFrom mark cs ≠ [] := by
  rw [piecesFrom_eq]
  cases plusFrom mark cs <;> simp [piecesBetween]

/-- Nothing but the signs is left out. -/
theorem join_piecesFrom (mark : Option Char) (cs : List Char) :
    join ['+'] (piecesFrom mark cs) = cs := by
  induction cs generalizing mark with
  | nil => rfl
  | cons c r ih =>
    rw [piecesFrom_cons]
    split
    · rename_i hplus
      obtain ⟨first, rest, hpieces⟩ := List.exists_cons_of_ne_nil (piecesFrom_ne_nil none r)
      have hjoin := ih none
      rw [hpieces] at hjoin ⊢
      rw [join, List.intercalate_cons_cons, hplus.1]
      exact congrArg ('+' :: ·) hjoin
    · rw [join_growFirst, ih]

end Places

/-- A part of a term: a text without quotes and signs, or a text in quotes of one kind. -/
inductive Segment
  | plain (text : List Char) (h : ∀ c ∈ text, isQuote c = false ∧ c ≠ '+')
  | quoted (mark : Char) (body : List Char) (hmark : isQuote mark = true) (hbody : mark ∉ body)

def Segment.text : Segment → List Char
  | plain text _ => text
  | quoted mark body _ _ => mark :: (body ++ [mark])

structure ConcatTerm where
  segments : List Segment
  trimmed : trim (segments.flatMap Segment.text) = segments.flatMap Segment.text
  nonempty : segments.flatMap Segment.text ≠ []

def ConcatTerm.text (term : ConcatTerm) : List Char := term.segments.flatMap Segment.text

def Shielded (w : List Char) : Prop :=
  ∀ r, piecesFrom none (w ++ r) = w.foldr growFirst (piecesFrom none r)

section Shields
variable {v w rest : List Char}

theorem foldr_growFirst (w piece : List Char) (pieces : List (List Char)) :
    w.foldr growFirst (piece :: pieces) = (w ++ piece) :: pieces := by
  induction w with
  | nil => rfl
  | cons c r ih => rw [List.foldr_cons, ih]; rfl

theorem Shielded.append (hv : Shielded v) (hw : Shielded w) : Shielded (v ++ w) := by
  intro r
  rw [List.append_assoc, hv, hw, List.foldr_append]

theorem shielded_of_plain (h : ∀ c ∈ w, isQuote c = false ∧ c ≠ '+') : Shielded w := by
  intro r
  induction w with
  | nil => rfl
  | cons c w ih =>
    obtain ⟨⟨hquote, hplus⟩, hw⟩ := List.forall_mem_cons.mp h
    have hopen : markBehind none c = none := by simp [markBehind, hquote]
    rw [List.cons_append, piecesFrom_cons, if_neg (by simp [hplus]), hopen, ih hw]
    rfl

theorem piecesFrom_body {q : Char} {body : List Char} (h : q ∉ body) (r : List Char) :
    piecesFrom (some q) (body ++ q :: r) = (body ++ [q]).foldr growFirst (piecesFrom none r) := by
  induction body with
  | nil => simp [piecesFrom_quoted]
  | cons c body ih =>
    obtain ⟨hc, hbody⟩ := List.ne_and_not_mem_of_not_mem_cons h
    have hopen : (c == q) = false := beq_eq_false_iff_ne.mpr (Ne.symm hc)
    rw [List.cons_append, piecesFrom_quoted, hopen, if_neg Bool.false_ne_true, ih hbody]
    rfl

theorem Segment.shielded (segment : Segment) : Shielded segment.text := by
  cases segment with
  | plain text h => exact shielded_of_plain h
  | quoted mark body hmark hbody =>
    intro r
    have htext : (quoted mark body hmark hbody).text ++ r = mark :: (body ++ mark :: r) := by
      simp [text]
    rw [htext, piecesFrom_unquoted, if_pos hmark, piecesFrom_body hbody]
    rfl

theorem ConcatTerm.shielded (term : ConcatTerm) : Shielded term.text := by
  unfold text
  induction term.segments with
  | nil => exact fun _ => rfl
  | cons segment segments ih => exact segment.shielded.append ih

/-- A space in front of a text does not count. -/
theorem splitTerms_space (cs : List Char) : splitTerms (' ' :: cs) = splitTerms cs := by
  have hspace : piecesFrom none (' ' :: cs) = growFirst ' ' (piecesFrom none cs) := rfl
  obtain ⟨first, more, hpieces⟩ := List.exists_cons_of_ne_nil (piecesFrom_ne_nil none cs)
  rw [splitTerms, splitTerms, hspace, hpieces, growFirst, List.map_cons, List.map_cons,
    trim_cons (by decide)]

/-- A term in front of a sign is the first one. -/
theorem splitTerms_append (hw : Shielded w) (htrim : trim w = w) (hne : w ≠ [])
    (rest : List Char) : splitTerms (w ++ " + ".toList ++ rest) = w :: splitTerms rest := by
  have hspaced : Shielded (w ++ [' ']) := hw.append (shielded_of_plain (by decide))
  have hpieces : piecesFrom none (w ++ " + ".toList ++ rest) =
      (w ++ [' ']) :: piecesFrom none (' ' :: rest) := by
    have htext : w ++ " + ".toList ++ rest = w ++ [' '] ++ '+' :: ' ' :: rest := by simp
    rw [htext, hspaced, piecesFrom_cons, if_pos ⟨rfl, rfl⟩, foldr_growFirst, List.append_nil]
  have hfirst : trim (w ++ [' ']) = w := by rw [trim_append_blanks (by decide), htrim]
  rw [splitTerms, hpieces, List.map_cons, hfirst, List.filter_cons_of_pos (by simpa using hne)]
  exact congrArg (w :: ·) (splitTerms_space rest)

theorem splitTerms_single (hw : Shielded w) (htrim : trim w = w) (hne : w ≠ []) :
    splitTerms w = [w] := by
  have hpieces : piecesFrom none w = [w] := by
    have hwhole := hw []
    rwa [piecesFrom, foldr_growFirst, List.append_nil] at hwhole
  simp [splitTerms, hpieces, htrim, hne]

end Shields

theorem splitTerms_join (terms : List ConcatTerm) :
    splitTerms (join " + ".toList (terms.map ConcatTerm.text)) = terms.map ConcatTerm.text := by
  induction terms with
  | nil => rfl
  | cons term terms ih =>
    have hterm := term.shielded
    cases terms with
    | nil =>
      rw [List.map_singleton, join, List.intercalate_singleton]
      exact splitTerms_single hterm term.trimmed term.nonempty
    | cons next terms =>
      rw [List.map_cons, List.map_cons, join, List.intercalate_cons_cons,
        splitTerms_append hterm term.trimmed term.nonempty]
      exact congrArg (term.text :: ·) ih

/-- Terms that are joined by signs come back. Of every text, the terms are the trimmed pieces
between the signs outside quotes that are not empty, and nothing but these signs is left out of the
pieces. -/
theorem splitTerms_exact :
    (∀ terms : List ConcatTerm,
      splitTerms (join " + ".toList (terms.map ConcatTerm.text)) = terms.map ConcatTerm.text) ∧
    ∀ cs : List Char,
      join ['+'] (piecesBetween cs 0 (outerPlus cs)) = cs ∧
      splitTerms cs = ((piecesBetween cs 0 (outerPlus cs)).map trim).filter (!·.isEmpty) := by
  refine ⟨splitTerms_join, fun cs => ?_⟩
  rw [outerPlus_eq, ← piecesFrom_eq]
  exact ⟨join_piecesFrom none cs, rfl⟩

example : splitTerms "'a + \"b' + c + \"it's + d".toList =
    ["'a + \"b'".toList, "c".toList, "\"it's + d".toList] := by decide

end Scribe.Instruction
