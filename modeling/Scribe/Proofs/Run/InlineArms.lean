import Scribe.Proofs.Pattern.Evaluation
import Scribe.Proofs.Run.Present

/-!
# Arms on one line

Where the header of an arm and the statement in the line below it are written on one line, the
script is the same again once it is modernized. The header is cut at its own colon, whatever colons
stand in its strings and in the statement, and both lines lead back to the line they were written
on.
-/
namespace Scribe.Run
open Text Pattern Script

/-- The header of an arm up to its colon: its word in any case, which a blank follows if a condition
does. -/
inductive HeaderFront : List Char → Prop
  | condition {w r b} (hw : ∃ s ∈ ["if", "elif"], w.map foldCase = s.toList)
      (hb : isBlank b = true) : HeaderFront (w ++ b :: r)
  | last {w bs} (hw : w.map foldCase = "else".toList) (hbs : ∀ b ∈ bs, isBlank b = true) :
      HeaderFront (w ++ bs)

/-- The header of an arm, whose line ends with its colon, and the simple statement that stands in
the next line four spaces further in. -/
structure InlineArm where
  indent : Nat
  front : List Char
  statement : List Char
  headed : HeaderFront front
  uncommented : stripComment (front ++ [':']) = front ++ [':']
  simple : StartsWith ["ai", "set", "neuro", "macro"] statement
  trimmed : statement.getLast?.any isBlank = false

def InlineArm.headerLine (a : InlineArm) : List Char :=
  List.replicate a.indent ' ' ++ (a.front ++ [':'])

def InlineArm.statementLine (a : InlineArm) : List Char :=
  List.replicate (a.indent + 4) ' ' ++ a.statement

def InlineArm.joined (a : InlineArm) : List Char := a.headerLine ++ ' ' :: a.statement

/-- A line of a script, or an arm that is to be written on one line. -/
inductive Part where
  | line (text : List Char)
  | arm (a : InlineArm)

def Part.lines : Part → List (List Char)
  | .line text => [text]
  | .arm a => [a.headerLine, a.statementLine]

def Part.joined : Part → List Char
  | .line text => text
  | .arm a => a.joined

theorem ofLetters_simpleWords : OfLetters ["ai", "set", "neuro", "macro"] := by
  unfold OfLetters
  decide

/-- A text starts with one word only. -/
theorem StartsWith.common {ss ss' : List String} {body : List Char} (h : StartsWith ss body)
    (h' : StartsWith ss' body) (hss : OfLetters ss) (hss' : OfLetters ss') : ∃ s ∈ ss, s ∈ ss' := by
  obtain ⟨w, y, s, hs, rfl, hfold, hy⟩ := h
  obtain ⟨w', y', s', hs', heq, hfold', hy'⟩ := h'
  have hw : IsWord w := fun c hc => (isWord_of_fold (hss s hs).2 hfold c hc).1
  have hw' : IsWord w' := fun c hc => (isWord_of_fold (hss' s' hs').2 hfold' c hc).1
  have hsame : w = w' := by
    rw [← takeWhile_word hw hy, heq, takeWhile_word hw' hy']
  have hword : s = s' := String.toList_inj.mp (by rw [← hfold, hsame, hfold'])
  exact ⟨s, hs, hword ▸ hs'⟩

theorem StartsWith.first {ss : List String} {body : List Char} (h : StartsWith ss body)
    (hss : OfLetters ss) : ∃ c r, body = c :: r ∧ isWordChar c = true := by
  obtain ⟨w, y, s, hs, rfl, hfold, -⟩ := h
  cases w with
  | nil => exact absurd hfold.symm (hss s hs).1
  | cons c w => exact ⟨c, w ++ y, rfl, (isWord_of_fold (hss s hs).2 hfold c (by simp)).1⟩

theorem HeaderFront.startsWith {front : List Char} (h : HeaderFront front) (r : List Char) :
    StartsWith ["if", "elif", "else"] (front ++ ':' :: r) := by
  cases h with
  | @condition w r' b hw hb =>
    obtain ⟨s, hs, hfold⟩ := hw
    refine ⟨w, b :: (r' ++ ':' :: r), s, List.mem_append_left ["else"] hs, by simp, hfold, ?_⟩
    simpa using isWordChar_of_isBlank hb
  | @last w bs hw hbs =>
    exact ⟨w, bs ++ ':' :: r, "else", by simp, List.append_assoc .., hw, head_blanks hbs rfl⟩

/-- The header of an arm is found where it stands. -/
theorem HeaderFront.matches {front : List Char} (h : HeaderFront front) (r : List Char) :
    (armHeader.matchStart (front ++ ':' :: r)).isSome = true := by
  suffices hrun : ∃ d, armHeader.run some ⟨none, front ++ ':' :: r, []⟩ = some d by
    obtain ⟨d, hd⟩ := hrun
    exact Option.isSome_iff_exists.mpr ⟨_, congrArg (Option.map _) hd⟩
  cases h with
  | @condition w r' b hw hb =>
    obtain ⟨s, hs, hfold⟩ := hw
    rw [List.append_assoc, List.cons_append]
    obtain ⟨d, hd⟩ := exists_run_words (k := blank.run some) (b := none) (g := [])
      (r := b :: (r' ++ ':' :: r)) hs hfold ⟨_, run_one (f := isBlank) hb⟩
    exact ⟨d, run_or_left hd⟩
  | @last w bs hw hbs =>
    rw [List.append_assoc]
    refine exists_run_or_right ⟨⟨some ':', r, []⟩, ?_⟩
    change (word "else").run ((blanks ++ char ':').run some) _ = _
    rw [run_word hw]
    exact run_many hbs rfl (run_one (f := (· == ':')) (beq_self_eq_true ':'))

section InlineArm
variable (a : InlineArm)

theorem InlineArm.statement_first : ∃ c r, a.statement = c :: r ∧ isWordChar c = true :=
  a.simple.first ofLetters_simpleWords

theorem InlineArm.front_first (r : List Char) :
    ∃ c y, a.front ++ ':' :: r = c :: y ∧ isWordChar c = true :=
  (a.headed.startsWith r).first ofLetters_armWords

theorem InlineArm.codeOf_headerLine : codeOf a.headerLine = a.headerLine := by
  have hstrip : stripComment a.headerLine = a.headerLine := by
    have hfront : ∀ c ∈ List.replicate a.indent ' ', c ≠ '"' ∧ c ≠ '#' ∧ c ≠ '/' := by
      intro c hc
      rw [List.eq_of_mem_replicate hc]
      decide
    rw [InlineArm.headerLine, stripComment, stripCommentFrom_append hfront]
    exact congrArg _ a.uncommented
  rw [codeOf, hstrip, trimEnd]
  refine dropEndWhile_eq_self ?_
  rw [InlineArm.headerLine, ← List.append_assoc, List.getLast?_concat]
  decide

/-- The header is cut from the statement at its own colon. -/
theorem InlineArm.cut (h : ReadableLine a.headerLine) (z : List Char) :
    cutAtColon (a.front ++ ':' :: z) = some (a.front ++ [':'], z) := by
  obtain ⟨cs, x, y, hcode, hy, hcut⟩ := cut_of_readable h rfl (a.headed.startsWith [])
  rw [a.codeOf_headerLine] at hcode
  obtain rfl : a.front ++ [':'] = cs := List.append_cancel_left hcode
  have hsplit : a.front ++ [':'] = x ++ y := by
    have hcut' := hcut []
    rw [List.append_nil, List.append_nil] at hcut'
    exact cutAtColonFrom_eq hcut'
  obtain rfl : y = [] := by
    rcases List.eq_nil_or_concat y with rfl | ⟨u, c, rfl⟩
    · rfl
    · rw [List.concat_eq_append, ← List.append_assoc] at hsplit
      obtain ⟨-, hc⟩ := List.append_inj' hsplit rfl
      obtain rfl : ':' = c := (List.cons.inj hc).1
      exact absurd (hy ':' (by simp)) (by decide)
  rw [List.append_nil] at hsplit
  have hz := hcut z
  rw [← hsplit, List.nil_append, List.append_assoc] at hz
  exact hz

/-- What stands behind the colon is the statement and a blank. -/
theorem InlineArm.trim_tail : trim (' ' :: a.statement) = a.statement := by
  obtain ⟨c, r, hstatement, hc⟩ := a.statement_first
  have htrim : trimWhile isBlank a.statement = a.statement :=
    trimWhile_eq_self (by simpa [hstatement] using isBlank_of_isWordChar hc) a.trimmed
  rwa [trim, trimWhile, List.dropWhile_cons_of_pos (by decide)]

theorem InlineArm.tail_code : (trim (stripComment (' ' :: a.statement))).isEmpty = false := by
  obtain ⟨c, r, hstatement, hc⟩ := a.statement_first
  have hplain : ∀ d ∈ [' ', c], d ≠ '"' ∧ d ≠ '#' ∧ d ≠ '/' := by
    refine List.forall_mem_cons.mpr ⟨by decide, List.forall_mem_singleton.mpr ?_⟩
    exact IsWord.plain (w := [c]) (List.forall_mem_singleton.mpr hc) c (by simp)
  have hstrip : stripComment (' ' :: a.statement) = ' ' :: c :: stripCommentFrom false r := by
    rw [hstatement]
    exact stripCommentFrom_append hplain r
  have hdrop : trim (' ' :: c :: stripCommentFrom false r) =
      trim (c :: stripCommentFrom false r) := by
    rw [trim, trimWhile, List.dropWhile_cons_of_pos (by decide)]
    rfl
  rw [hstrip, hdrop]
  exact isEmpty_trim_cons (isBlank_of_isWordChar hc) _

/-- A header with a statement behind it does not print in an older spelling. -/
theorem InlineArm.modernPrint_body (r : List Char) :
    modernPrint (a.front ++ ':' :: r) = a.front ++ ':' :: r := by
  unfold modernPrint
  split
  · rename_i m hm
    obtain ⟨s, hs, hs'⟩ := (a.headed.startsWith r).common (startsWith_printWord hm)
      ofLetters_armWords ofLetters_printWords
    have happart : ∀ s ∈ ["if", "elif", "else"], s ∉ ["say", "print"] := by decide
    exact absurd hs' (happart s hs)
  · rfl

/-- An arm on one line is written on its two lines again. -/
theorem InlineArm.modernLines_joined (hheader : ReadableLine a.headerLine)
    (hstatement : ReadableLine a.statementLine) :
    modernLines a.joined = [a.headerLine, a.statementLine] := by
  have hjoined : a.joined =
      List.replicate a.indent ' ' ++ (a.front ++ ':' :: ' ' :: a.statement) := by
    simp [InlineArm.joined, InlineArm.headerLine]
  obtain ⟨c, y, hbody, hc⟩ := a.front_first (' ' :: a.statement)
  have hc : (c == ' ') = false := by
    rw [beq_eq_false_iff_ne]
    rintro rfl
    revert hc
    decide
  have hindent : a.joined.takeWhile (· == ' ') = List.replicate a.indent ' ' := by
    rw [hjoined, hbody, List.takeWhile_append_of_pos (by simp),
      List.takeWhile_cons_of_neg (by simp [hc]), List.append_nil]
  have hrest : a.joined.dropWhile (· == ' ') = a.front ++ ':' :: ' ' :: a.statement := by
    rw [hjoined, hbody, List.dropWhile_append_of_pos (by simp),
      List.dropWhile_cons_of_neg (by simp [hc])]
  have harm : inlineArm? (a.front ++ ':' :: ' ' :: a.statement) =
      some (a.front ++ [':'], a.statement) := by
    rw [inlineArm?, if_pos (a.headed.matches _), a.cut hheader, Option.bind_some]
    dsimp only
    rw [if_neg (by simp [a.tail_code]), a.trim_tail]
  unfold modernLines
  dsimp only
  rw [hindent, hrest, a.modernPrint_body, harm]
  dsimp only
  rw [modernPrint_of_readable hstatement rfl, InlineArm.statementLine,
    ← List.replicate_append_replicate]
  rfl

end InlineArm

theorem Part.modernLines_joined {part : Part} (h : ∀ text ∈ part.lines, ReadableLine text) :
    modernLines part.joined = part.lines := by
  cases part with
  | line text => exact modernLines_of_readable (h text List.mem_cons_self)
  | arm a => exact a.modernLines_joined (h _ List.mem_cons_self) (h _ (by simp [Part.lines]))

theorem modernizeFrom_joined (line : Nat) {parts : List Part}
    (h : ∀ text ∈ parts.flatMap Part.lines, ReadableLine text) :
    modernizeFrom line (parts.map Part.joined) =
      (parts.zipIdx line).flatMap fun (part, k) => part.lines.map (·, k) := by
  induction parts generalizing line with
  | nil => rfl
  | cons part rest ih =>
    rw [List.flatMap_cons] at h
    rw [List.map_cons, modernizeFrom, ih (line + 1) fun t ht => h t (by simp [ht]),
      part.modernLines_joined fun t ht => h t (List.mem_append_left _ ht), List.zipIdx_cons,
      List.flatMap_cons]

theorem Part.oneLine_joined {part : Part} (h : ∀ text ∈ part.lines, OneLine text) :
    OneLine part.joined := by
  cases part with
  | line text => exact h text List.mem_cons_self
  | arm a =>
    have hstatement := h a.statementLine (by simp [Part.lines])
    rw [InlineArm.statementLine, oneLine_append] at hstatement
    exact oneLine_append.mpr ⟨h _ List.mem_cons_self, oneLine_cons.mpr ⟨by decide, hstatement.2⟩⟩

/-- Arms of a script that can be read may be written on one line: modernizing the result gives back
the script, and both lines of an arm come from the line on which it was written. -/
theorem modernize_joined_arms {source : List Char} {p : Program} {parts : List Part}
    (h : parse source = .ok p) (hlines : lines source = parts.flatMap Part.lines) :
    modernize (joinLines (parts.map Part.joined)) =
      (source, (parts.zipIdx 1).flatMap fun (part, k) => List.replicate part.lines.length k) := by
  have hjoined : lines (joinLines (parts.map Part.joined)) = parts.map Part.joined := by
    refine lines_joinLines (fun l hl => ?_) fun hnil => ?_
    · obtain ⟨part, hpart, rfl⟩ := List.mem_map.mp hl
      refine part.oneLine_joined fun text ht => ?_
      have hmem : text ∈ lines source := by
        rw [hlines]
        exact List.mem_flatMap.mpr ⟨part, hpart, ht⟩
      exact oneLine_of_mem_lines hmem
    · rw [List.map_eq_nil_iff.mp hnil] at hlines
      exact lines_ne_nil source hlines
  have hreadable := readable_of_parse h
  rw [hlines] at hreadable
  unfold modernize
  dsimp only
  rw [hjoined, modernizeFrom_joined 1 hreadable, List.map_flatMap, List.map_flatMap]
  have htexts (part : Part) (k : Nat) : (part.lines.map (·, k)).map Prod.fst = part.lines := by
    rw [List.map_map]
    exact List.map_id _
  have hnumbers (part : Part) (k : Nat) :
      (part.lines.map (·, k)).map Prod.snd = List.replicate part.lines.length k := by
    rw [List.map_map]
    exact List.map_const
  have hsource : (parts.zipIdx 1).flatMap (fun (part, _) => part.lines) = lines source := by
    rw [hlines, ← List.zipIdx_map_fst 1 parts, List.flatMap_map, List.zipIdx_map_fst]
  simp only [htexts, hnumbers, hsource, joinLines_lines]

/-- Colons in strings, in comments and behind `from AI:` stay where they are, at every depth. -/
theorem modernize_joined_arms_colons :
    let source := joinLines ["if x == \"a:b\":".toList, "    neuro \"say: no\" # y: z".toList,
      "elif y:".toList, "    if z:".toList, "        set q from AI: if a: b".toList, "ELSE :".toList,
      "    neuro x".toList]
    let short := joinLines ["if x == \"a:b\": neuro \"say: no\" # y: z".toList, "elif y:".toList,
      "    if z: set q from AI: if a: b".toList, "ELSE : neuro x".toList]
    parse source = .ok [.choose 1
        [(.compare (.var "x") [(.eq, .lit (.text "a:b"))], [.print 2 (.lit (.text "say: no"))]),
          (.var "y", [.choose 4 [(.var "z", [.ask 5 "q" "if a: b"])] none])]
        (some [.print 7 (.var "x")])] ∧
      modernize short = (source, [1, 1, 2, 3, 3, 4, 4]) := by
  have helse : HeaderFront ("ELSE".toList ++ [' ']) := .last (by decide) (by decide)
  let parts : List Part := [
    .arm ⟨0, "if x == \"a:b\"".toList, "neuro \"say: no\" # y: z".toList,
      .condition (w := "if".toList) (b := ' ') ⟨"if", by decide, by decide⟩ (by decide), by decide,
      ⟨"neuro".toList, _, "neuro", by decide, rfl, by decide, by decide⟩, by decide⟩,
    .line "elif y:".toList,
    .arm ⟨4, "if z".toList, "set q from AI: if a: b".toList,
      .condition (w := "if".toList) (b := ' ') ⟨"if", by decide, by decide⟩ (by decide), by decide,
      ⟨"set".toList, _, "set", by decide, rfl, by decide, by decide⟩, by decide⟩,
    .arm ⟨0, "ELSE ".toList, "neuro x".toList, helse, by decide,
      ⟨"neuro".toList, _, "neuro", by decide, rfl, by decide, by decide⟩, by decide⟩]
  exact ⟨rfl, @modernize_joined_arms _ _ parts rfl rfl⟩

end Scribe.Run
