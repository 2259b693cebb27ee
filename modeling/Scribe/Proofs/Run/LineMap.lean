import Scribe.Proofs.Pattern.Matches
import Scribe.Proofs.Text.OneLine
import Scribe.Run.Interpreter
import Scribe.Run.Legacy

/-!
# Lines of a modernized script

Every line of a script becomes one line or two, and the line map gives the line that each line of
the result comes from. So the map never goes back, and it leads to every line of the script and to
nothing else.
-/
namespace Scribe.Run
open Text Pattern

theorem cutAtColonFrom_eq {inString : Bool} {cs x y : List Char}
    (h : cutAtColonFrom inString cs = some (x, y)) : cs = x ++ y := by
  fun_induction cutAtColonFrom inString cs generalizing x y with
  | case1 => cases h
  | case6 =>
    cases h
    rfl
  | _ =>
    rename_i ih
    obtain ⟨⟨x', y'⟩, hcut, heq⟩ := Option.map_eq_some_iff.mp h
    cases heq
    rw [ih hcut]
    rfl

/-- The header and the statement of an arm on one line stand in that line. -/
theorem inlineArm?_eq {body header stmt : List Char} (h : inlineArm? body = some (header, stmt)) :
    ∃ tail, body = header ++ tail ∧ stmt = trim tail := by
  unfold inlineArm? at h
  split at h
  · obtain ⟨⟨header', tail⟩, hcut, hstmt⟩ := Option.bind_eq_some_iff.mp h
    dsimp only at hstmt
    split at hstmt
    · cases hstmt
    · cases hstmt
      exact ⟨tail, cutAtColonFrom_eq hcut, rfl⟩
  · cases h

theorem oneLine_modernPrint {body : List Char} (h : OneLine body) : OneLine (modernPrint body) := by
  unfold modernPrint
  split
  · rename_i m hm
    have hafter : OneLine m.after := h.of_isInfix (matchStart_in hm).after_isInfix
    exact .ite h (oneLine_append.mpr ⟨by decide, hafter⟩)
  · exact h

theorem oneLine_modernLines {line : List Char} (h : OneLine line) :
    ∀ l ∈ modernLines line, OneLine l := by
  have hindent : OneLine (line.takeWhile (· == ' ')) :=
    h.of_isInfix (List.takeWhile_prefix _).isInfix
  have hbody : OneLine (modernPrint (line.dropWhile (· == ' '))) :=
    oneLine_modernPrint (h.of_isInfix (List.dropWhile_suffix _).isInfix)
  unfold modernLines
  dsimp only
  split
  · rename_i header stmt harm
    obtain ⟨tail, heq, rfl⟩ := inlineArm?_eq harm
    rw [heq, oneLine_append] at hbody
    have hstmt : OneLine (modernPrint (trim tail)) := oneLine_modernPrint hbody.2.trim
    intro l hl
    rcases List.mem_cons.mp hl with rfl | hl
    · exact oneLine_append.mpr ⟨hindent, hbody.1⟩
    · rw [List.mem_singleton.mp hl]
      exact oneLine_append.mpr ⟨oneLine_append.mpr ⟨hindent, by decide⟩, hstmt⟩
  · exact List.forall_mem_singleton.mpr (oneLine_append.mpr ⟨hindent, hbody⟩)

theorem length_modernLines (line : List Char) :
    1 ≤ (modernLines line).length ∧ (modernLines line).length ≤ 2 := by
  unfold modernLines
  dsimp only
  split <;> simp

theorem oneLine_modernizeFrom {line : Nat} {texts : List (List Char)}
    (h : ∀ text ∈ texts, OneLine text) : ∀ p ∈ modernizeFrom line texts, OneLine p.1 := by
  induction texts generalizing line with
  | nil => exact nofun
  | cons text rest ih =>
    rw [modernizeFrom]
    intro p hp
    rcases List.mem_append.mp hp with hp | hp
    · obtain ⟨l, hl, rfl⟩ := List.mem_map.mp hp
      exact oneLine_modernLines (h text (by simp)) l hl
    · exact ih (fun text ht => h text (by simp [ht])) p hp

theorem modernizeFrom_ne_nil {line : Nat} {texts : List (List Char)} (h : texts ≠ []) :
    modernizeFrom line texts ≠ [] := by
  cases texts with
  | nil => exact absurd rfl h
  | cons text rest =>
    have hlength := (length_modernLines text).1
    intro heq
    rw [modernizeFrom, List.append_eq_nil_iff, List.map_eq_nil_iff] at heq
    rw [heq.1] at hlength
    cases hlength

theorem origin_of_modernizeFrom {line : Nat} {texts : List (List Char)} :
    ∀ p ∈ modernizeFrom line texts, line ≤ p.2 ∧ p.2 < line + texts.length := by
  induction texts generalizing line with
  | nil => exact nofun
  | cons text rest ih =>
    rw [modernizeFrom, List.length_cons]
    intro p hp
    rcases List.mem_append.mp hp with hp | hp
    · obtain ⟨l, hl, rfl⟩ := List.mem_map.mp hp
      dsimp only
      omega
    · have := ih p hp
      omega

theorem pairwise_modernizeFrom (line : Nat) (texts : List (List Char)) :
    (modernizeFrom line texts).Pairwise fun p q => p.2 ≤ q.2 := by
  induction texts generalizing line with
  | nil => exact .nil
  | cons text rest ih =>
    rw [modernizeFrom, List.pairwise_append]
    refine ⟨?_, ih (line + 1), fun p hp q hq => ?_⟩
    · exact List.pairwise_map.mpr (List.pairwise_of_forall fun _ _ => Nat.le_refl line)
    · obtain ⟨l, hl, rfl⟩ := List.mem_map.mp hp
      have := origin_of_modernizeFrom q hq
      dsimp only
      omega

/-- Every line is the origin of one line or two. -/
theorem count_modernizeFrom {line : Nat} {texts : List (List Char)} {k : Nat} (hk : line ≤ k)
    (hk' : k < line + texts.length) :
    1 ≤ ((modernizeFrom line texts).map Prod.snd).count k ∧
      ((modernizeFrom line texts).map Prod.snd).count k ≤ 2 := by
  induction texts generalizing line with
  | nil =>
    rw [List.length_nil] at hk'
    omega
  | cons text rest ih =>
    have hfront : ((modernLines text).map (·, line)).map Prod.snd =
        List.replicate (modernLines text).length line := by
      rw [List.map_map]
      exact List.map_const
    rw [modernizeFrom, List.map_append, hfront, List.count_append, List.count_replicate]
    rw [List.length_cons] at hk'
    by_cases heq : line = k
    · have hrest : ((modernizeFrom (line + 1) rest).map Prod.snd).count k = 0 := by
        refine List.count_eq_zero.mpr fun hmem => ?_
        obtain ⟨p, hp, rfl⟩ := List.mem_map.mp hmem
        have := origin_of_modernizeFrom p hp
        omega
      rw [hrest, if_pos (by simpa using heq)]
      exact length_modernLines text
    · rw [if_neg (by simpa using heq), Nat.zero_add]
      exact ih (by omega) (by omega)

section Script
variable (script : List Char)

theorem lines_modernize :
    lines (modernize script).1 = (modernizeFrom 1 (lines script)).map Prod.fst := by
  refine lines_joinLines (fun l hl => ?_) ?_
  · obtain ⟨p, hp, rfl⟩ := List.mem_map.mp hl
    exact oneLine_modernizeFrom (fun text ht => oneLine_of_mem_lines ht) p hp
  · rw [Ne, List.map_eq_nil_iff]
    exact modernizeFrom_ne_nil (lines_ne_nil script)

/-- The line map has an entry for every line of the modernized script. -/
theorem length_lineMap : (modernize script).2.length = (lines (modernize script).1).length := by
  rw [lines_modernize, List.length_map]
  exact List.length_map _

theorem exists_entry {line : Nat} (h : 1 ≤ line ∧ line ≤ (lines (modernize script).1).length) :
    ∃ k, (modernize script).2[line - 1]? = some k := by
  rw [← length_lineMap script] at h
  exact ⟨_, List.getElem?_eq_getElem (by omega)⟩

theorem pairwise_lineMap : (modernize script).2.Pairwise (· ≤ ·) :=
  List.pairwise_map.mpr (pairwise_modernizeFrom 1 (lines script))

theorem range_of_lineMap {k : Nat} (h : k ∈ (modernize script).2) :
    1 ≤ k ∧ k ≤ (lines script).length := by
  obtain ⟨p, hp, rfl⟩ := List.mem_map.mp h
  have := origin_of_modernizeFrom p hp
  omega

theorem count_lineMap {k : Nat} (hk : 1 ≤ k) (hk' : k ≤ (lines script).length) :
    1 ≤ (modernize script).2.count k ∧ (modernize script).2.count k ≤ 2 :=
  count_modernizeFrom hk (by omega)

end Script

/-- Two lines that stand further apart do not come from one line. -/
theorem lineMap_lt (script : List Char) {i j k k' : Nat} (hij : i + 2 ≤ j)
    (hi : (modernize script).2[i]? = some k) (hj : (modernize script).2[j]? = some k') :
    k < k' := by
  obtain ⟨hlength, hlast'⟩ := List.getElem?_eq_some_iff.mp hj
  obtain ⟨_, hfirst'⟩ := List.getElem?_eq_some_iff.mp hi
  have hsorted := List.pairwise_iff_getElem.mp (pairwise_lineMap script)
  have hfirst := hsorted i (i + 1) (by omega) (by omega) (by omega)
  have hsecond := hsorted (i + 1) (i + 1 + 1) (by omega) (by omega) (by omega)
  have hlast : (modernize script).2[i + 1 + 1] ≤ (modernize script).2[j] := by
    rcases Nat.lt_or_eq_of_le hij with hlt | rfl
    · exact hsorted (i + 1 + 1) j (by omega) hlength hlt
    · exact Nat.le_refl _
  rw [hfirst'] at hfirst
  rw [hlast'] at hlast
  refine Nat.lt_of_le_of_ne (by omega) fun heq => ?_
  -- Else three lines in a row come from one line.
  have hthree : (List.replicate 3 k).Sublist (modernize script).2 := by
    have hdrop : (modernize script).2.drop i = k :: k :: k :: (modernize script).2.drop (i + 3) := by
      rw [List.drop_eq_getElem_cons (by omega), List.drop_eq_getElem_cons (by omega),
        List.drop_eq_getElem_cons (by omega), hfirst', show (modernize script).2[i + 1] = k by omega,
        show (modernize script).2[i + 1 + 1] = k by omega]
    have hprefix : List.replicate 3 k <+: (modernize script).2.drop i := by
      rw [hdrop]
      exact ⟨_, rfl⟩
    exact hprefix.sublist.trans (List.drop_sublist i _)
  have hrange := range_of_lineMap script (List.mem_of_getElem? hi)
  have hcount := (count_lineMap script hrange.1 hrange.2).2
  have := List.replicate_sublist_iff.mp hthree
  omega

/-- A line that has an entry in a line map comes from that entry. -/
theorem sourceLine_of_entry {lineMap : List Int} {line : Nat} {k : Int} (hline : 1 ≤ line)
    (h : lineMap[line - 1]? = some k) : sourceLine lineMap line = k := by
  have hlength := (List.getElem?_eq_some_iff.mp h).1
  have hindex : ((line : Int) - 1).toNat = line - 1 := by omega
  have hrange : (1 ≤ (line : Int) && (line : Int) ≤ lineMap.length) = true := by
    simp only [Bool.and_eq_true, decide_eq_true_eq]
    omega
  unfold sourceLine
  cases hlast : lineMap.getLast? with
  | none =>
    rw [List.getLast?_eq_none_iff] at hlast
    rw [hlast] at hlength
    cases hlength
  | some last =>
    dsimp only
    rw [if_pos hrange, hindex, h]
    rfl

theorem modernizeFrom_append (line : Nat) (texts more : List (List Char)) :
    modernizeFrom line (texts ++ more) =
      modernizeFrom line texts ++ modernizeFrom (line + texts.length) more := by
  induction texts generalizing line with
  | nil => rfl
  | cons text rest ih =>
    have hlength : line + 1 + rest.length = line + (text :: rest).length := by
      rw [List.length_cons]
      omega
    rw [List.cons_append, modernizeFrom, modernizeFrom, ih, hlength, List.append_assoc]

theorem modernizeFrom_add (line n : Nat) (texts : List (List Char)) :
    modernizeFrom (line + n) texts = (modernizeFrom line texts).map fun p => (p.1, p.2 + n) := by
  induction texts generalizing line with
  | nil => rfl
  | cons text rest ih =>
    have hnext : line + n + 1 = line + 1 + n := by omega
    rw [modernizeFrom, modernizeFrom, hnext, ih, List.map_append, List.map_map]
    rfl

/-- Modernizing goes line by line, so it may be done script by script. -/
theorem modernize_append (a b : List Char) :
    modernize (a ++ '\n' :: b) = ((modernize a).1 ++ '\n' :: (modernize b).1,
      (modernize a).2 ++ (modernize b).2.map (· + (lines a).length)) := by
  have hne (script : List Char) : (modernizeFrom 1 (lines script)).map Prod.fst ≠ [] := by
    rw [Ne, List.map_eq_nil_iff]
    exact modernizeFrom_ne_nil (lines_ne_nil script)
  unfold modernize
  dsimp only
  rw [lines_append, modernizeFrom_append, modernizeFrom_add, List.map_append, List.map_append,
    List.map_map, List.map_map, List.map_map]
  exact Prod.ext (joinLines_append (hne a) (hne b)) rfl

end Scribe.Run
