import Scribe.Instruction.Condition
import Scribe.Proofs.Instruction.PlainWords

/-!
# Conditions that are written with signs

A condition is rewritten in four steps: comparison phrases become signs, a lonely sign of equality
is doubled, words behind a sign become a literal, and gaps become spaces. A comparison that is
written with a sign already, and holds no comparison in words, passes all of them as it stands.
-/
namespace Scribe.Instruction
open Text Pattern Script

def comparisonHeads : List String :=
  ["is", "greater", "less", "more", "fewer", "higher", "lower", "bigger", "smaller", "at", "equal",
    "equals", "does", "not"]

theorem ofLetters_comparisonHeads : OfLetters comparisonHeads := by
  unfold OfLetters
  decide

theorem comparisonHeads_steering : comparisonHeads ⊆ steeringWords := by
  decide

/-- Behind the edge in front of it, a phrase starts with one of its words. -/
theorem opens_heads {ss : List String} {q : Pattern} (hss : ss ⊆ comparisonHeads) (hq : Closes q) :
    Opens (fun _ => False) comparisonHeads (edge ++ (words ss ++ q)) :=
  (opens_words (fun s hs => ofLetters_comparisonHeads s (hss hs)) hq).mono (fun _ => id) hss

theorem opens_maybeIs {q : Pattern} (hq : Opens (fun _ => False) comparisonHeads (edge ++ q)) :
    Opens (fun _ => False) comparisonHeads (edge ++ (maybeIs ++ q)) := by
  have his : Opens (fun _ => False) comparisonHeads (edge ++ (words ["is"] ++ (blanks1 ++ q))) :=
    opens_heads (by decide) (closes_blanks1.append q)
  exact Opens.maybe his hq

theorem opens_comparisonPhrases :
    ∀ e ∈ comparisonPhrases, Opens (fun _ => False) comparisonHeads e.1 := by
  have hword {s : String} {q : Pattern} (hs : s ∈ comparisonHeads) (hq : Closes q) :
      Opens (fun _ => False) comparisonHeads (edge ++ (word s ++ q)) :=
    have hsingle : [s] ⊆ comparisonHeads := fun t ht => by rwa [List.mem_singleton.mp ht]
    opens_heads hsingle hq
  have hblanks (q : Pattern) : Closes (blanks1 ++ q) := closes_blanks1.append q
  simp only [comparisonPhrases, List.forall_mem_cons, opens_assoc]
  refine ⟨?_, ?_, ?_, ?_, ?_, ?_, ?_, ?_, ?_, ?_, ?_, ?_, nofun⟩
  · exact opens_maybeIs (hword (by decide) (hblanks _))
  · exact opens_maybeIs (hword (by decide) (hblanks _))
  · exact opens_maybeIs (hword (by decide) (hblanks _))
  · exact opens_maybeIs (hword (by decide) (hblanks _))
  · exact opens_maybeIs (opens_heads (by decide) (hblanks _))
  · exact opens_maybeIs (opens_heads (by decide) (hblanks _))
  · exact opens_maybeIs (hword (by decide) (hblanks _))
  · exact hword (by decide) (hblanks _)
  · exact hword (by decide) (hblanks _)
  · exact opens_maybeIs (hword (by decide) (hblanks _))
  · exact hword (by decide) closes_edge
  · exact hword (by decide) closes_edge

theorem replace_of_lacks {p : Pattern} {ss : List String} {c : List Char}
    (hp : Opens (fun _ => False) ss p) (hss : OfLetters ss) (hc : Lacks ss c) (new : String) :
    p.replace new c = c := by
  have hunmatched : p.Unmatched [] c [] := hp.unmatched hss hc (.inl rfl) nofun []
  exact replaceWith_of_unmatched hunmatched

theorem foldl_replace_of_kept {ops : List (Pattern × String)} {c : List Char}
    (h : ∀ e ∈ ops, e.1.replace e.2 c = c) :
    ops.foldl (fun c (phrase, op) => phrase.replace op c) c = c := by
  induction ops with
  | nil => rfl
  | cons e rest ih =>
    obtain ⟨he, hrest⟩ := List.forall_mem_cons.mp h
    rw [List.foldl_cons]
    dsimp only
    rw [he]
    exact ih hrest

/-- A text without comparison words keeps its words. -/
theorem comparisonPhrases_kept {c : List Char} (h : Lacks comparisonHeads c) :
    comparisonPhrases.foldl (fun c (phrase, op) => phrase.replace op c) c = c :=
  foldl_replace_of_kept fun e he =>
    replace_of_lacks (opens_comparisonPhrases e he) ofLetters_comparisonHeads h e.2

def isSign (c : Char) : Bool := "=!<>".toList.contains c

theorem symbol_signs (op : Comparison) : ∀ c ∈ op.symbol.toList, isSign c = true := by
  cases op <;> decide

section Signs
variable {p : Pattern} {f : Char → Bool} {before pre post u v r : List Char} {x : Char}
  {op : Comparison}

/-- A pattern that starts with certain characters passes over the others. -/
theorem unmatched_of_forall (hp : ∀ before x r, f x = false → p.matchAt before (x :: r) = none)
    (hu : ∀ c ∈ u, f c = false) : p.Unmatched before u v := by
  rintro a x z rfl
  exact hp _ _ _ (hu x (by simp))

theorem lonelyEquals_matchAt (h : isSign x = false) :
    lonelyEquals.matchAt before (x :: r) = none := by
  have hx : (x == '=') = false := by
    rw [beq_eq_false_iff_ne]
    rintro rfl
    cases h
  simp [matchAt, lonelyEquals, run_append, run, char, hx]

/-- No part of an operator is taken for a lonely sign of equality. -/
theorem lonelyEquals_symbol :
    lonelyEquals.Unmatched (' ' :: before) op.symbol.toList (' ' :: v) := by
  cases op
  case lt | gt => exact .cons rfl unmatched_nil
  all_goals exact .cons rfl (.cons rfl unmatched_nil)

theorem covers_comparisonSign :
    comparisonSign.Covers fun cs => cs ≠ [] ∧ ∀ c ∈ cs, isSign c = true := by
  refine covers_choice fun p hp => ?_
  obtain ⟨s, hs, rfl⟩ := List.mem_map.mp hp
  have hsign : ∀ s ∈ ["==", "!=", ">=", "<=", ">", "<"], s.toList ≠ [] ∧
      ∀ c ∈ s.toList, isSign c = true := by decide
  intro c d cs hspan hcs
  rw [covers_exactly s.toList hspan hcs]
  exact hsign s hs

/-- Words to compare with stand behind signs and blanks. -/
theorem comparedWords_shape {m : Match} (h : comparedWords.matchAt before u = some m) :
    ∃ s g x y, u = s ++ (g ++ x :: y) ∧ s ≠ [] ∧ (∀ c ∈ s, isSign c = true) ∧
      (∀ c ∈ g, isBlank c = true) ∧ isNameStart x = true := by
  obtain ⟨d, hspan, -⟩ := matchAt_sound h
  cases hspan with
  | seq hfront hwords =>
    cases hfront with
    | seq hgroup hblanks =>
      cases hgroup with
      | group hsign =>
        obtain ⟨s, hs, -⟩ := hsign.covered (only_true _)
        obtain ⟨g, hg, hblank⟩ := hblanks.covered (P := fun c => isBlank c = true) fun _ => id
        cases hwords with
        | group hname =>
          cases hname with
          | seq hname _ =>
            cases hname with
            | seq hfirst _ =>
              cases hfirst with
              | @one _ x r _ _ hx =>
                obtain ⟨hne, hall⟩ := covers_comparisonSign hsign hs
                refine ⟨s, g, x, r, ?_, hne, hall, hblank, hx⟩
                rw [← hg]
                exact hs

theorem comparedWords_matchAt (h : isSign x = false) :
    comparedWords.matchAt before (x :: r) = none := by
  rw [Option.eq_none_iff_forall_not_mem]
  intro m hm
  obtain ⟨s, g, y, z, heq, hne, hs, -, -⟩ := comparedWords_shape hm
  obtain ⟨c, s, rfl⟩ := List.exists_cons_of_ne_nil hne
  obtain ⟨rfl, -⟩ := List.cons_eq_cons.mp heq
  rw [hs x (by simp)] at h
  cases h

theorem isBlank_of_isSign (h : isSign x = true) : isBlank x = false := by
  have hsigns : ∀ c ∈ "=!<>".toList, isBlank c = false := by decide
  exact hsigns x (List.contains_iff_mem.mp h)

theorem isSign_of_isBlank (h : isBlank x = true) : isSign x = false := by
  rw [Bool.eq_false_iff]
  intro hsign
  rw [isBlank_of_isSign hsign] at h
  cases h

theorem apart_of_isNameStart (h : isNameStart x = true) :
    isSign x = false ∧ isBlank x = false :=
  forall_ascii (P := fun c => isNameStart c = true → isSign c = false ∧ isBlank c = false)
    (by decide) (toNat_lt_of_isNameStart h) h

/-- Where no name follows an operator, its right side is no words. -/
theorem comparedWords_unmatched (hpre : ∀ c ∈ pre, isSign c = false)
    (hsign : ∀ c ∈ u, isSign c = true) (hnext : v.head?.any isSign = false)
    (hname : (v.dropWhile isBlank).head?.any isNameStart = false) :
    comparedWords.Unmatched [] (pre ++ u) v := by
  refine .append (unmatched_of_forall (fun _ _ _ hx => comparedWords_matchAt hx) hpre) ?_
  rintro a x z rfl
  rw [Option.eq_none_iff_forall_not_mem]
  intro m hm
  obtain ⟨s, g, y, r, heq, -, hs, hg, hy⟩ := comparedWords_shape hm
  -- Behind the signs of the operator there are the blanks and the name of the match.
  have hleft : (x :: (z ++ v)).dropWhile isSign = v := by
    rw [← List.cons_append, List.dropWhile_append_of_pos fun c hc =>
      hsign c (by simp [List.mem_cons.mp hc])]
    exact dropWhile_eq_self hnext
  have hright : (s ++ (g ++ y :: r)).dropWhile isSign = g ++ y :: r := by
    rw [List.dropWhile_append_of_pos hs]
    refine dropWhile_eq_self ?_
    cases g with
    | nil => exact (apart_of_isNameStart hy).1
    | cons d g => exact isSign_of_isBlank (hg d (by simp))
  rw [heq, hright] at hleft
  rw [← hleft, List.dropWhile_append_of_pos hg,
    List.dropWhile_cons_of_neg (by simp [(apart_of_isNameStart hy).2])] at hname
  rw [List.head?_cons, Option.any_some, hy] at hname
  cases hname

end Signs

section Blanks
variable {before w g r : List Char}

theorem blanks1_matchAt {x : Char} (h : isBlank x = false) :
    blanks1.matchAt before (x :: r) = none := by
  have hx : (one isBlank).run ((many blank).run some) ⟨before.head?, x :: r, []⟩ = none :=
    run_one_eq_none h
  exact congrArg _ hx

theorem blanks1_matched (hne : g ≠ []) (hg : ∀ c ∈ g, isBlank c = true)
    (hr : r.head?.any isBlank = false) :
    blanks1.matchAt before (g ++ r) = some ⟨before.reverse, g, r, []⟩ :=
  matchAt_of_run (run_some1 hne hg hr rfl)

theorem replace_front_gap (hne : g ≠ []) (hg : ∀ c ∈ g, isBlank c = true)
    (hr : r.head?.any isBlank = false) (before new : List Char) :
    blanks1.replaceFrom (fun _ => new) before 0 (g ++ r) =
      new ++ blanks1.replaceFrom (fun _ => new) (g.reverse ++ before) 0 r :=
  replaceFrom_matched (blanks1_matched hne hg hr) rfl hne

/-- The first gap of a text is replaced as a whole. -/
theorem replace_gap (hw : ∀ c ∈ w, isBlank c = false) (hne : g ≠ [])
    (hg : ∀ c ∈ g, isBlank c = true) (hr : r.head?.any isBlank = false) (new : List Char) :
    blanks1.replaceFrom (fun _ => new) before 0 (w ++ (g ++ r)) =
      w ++ (new ++
        blanks1.replaceFrom (fun _ => new) (g.reverse ++ (w.reverse ++ before)) 0 r) := by
  have hnone : blanks1.Unmatched before w (g ++ r) :=
    unmatched_of_forall (fun _ _ _ hx => blanks1_matchAt hx) hw
  rw [replaceFrom_unmatched hnone, replace_front_gap hne hg hr]

theorem replace_no_gap (hw : ∀ c ∈ w, isBlank c = false) (new : List Char) :
    blanks1.replaceFrom (fun _ => new) before 0 w = w := by
  have hnone : blanks1.Unmatched before w [] :=
    unmatched_of_forall (fun _ _ _ hx => blanks1_matchAt hx) hw
  exact replaceFrom_of_unmatched hnone

end Blanks

def compared (v : List Char) (op : Comparison) (k : List Char) : List Char :=
  v ++ ' ' :: (op.symbol.toList ++ ' ' :: k)

/-- The signs and the words to compare with are rewritten in a text that stands behind `before`,
which is read backwards, and every gap is narrowed to one space. -/
def tidied (before k : List Char) : List Char :=
  blanks1.replaceFrom (fun _ => " ".toList) before 0
    (comparedWords.replaceFrom literalSide before 0
      (lonelyEquals.replaceFrom (fun _ => "==".toList) before 0 k))

section Conditions
variable {v x y k : List Char} {z : Char} {op : Comparison}

theorem tidied_eq_self (hk : ∀ c ∈ k, isSign c = false ∧ isBlank c = false) (before : List Char) :
    tidied before k = k := by
  have hlonely : lonelyEquals.Unmatched before k [] :=
    unmatched_of_forall (fun _ _ _ h => lonelyEquals_matchAt h) fun c hc => (hk c hc).1
  have hwords : comparedWords.Unmatched before k [] :=
    unmatched_of_forall (fun _ _ _ h => comparedWords_matchAt h) fun c hc => (hk c hc).1
  rw [tidied, replaceFrom_of_unmatched hlonely, replaceFrom_of_unmatched hwords,
    replace_no_gap fun c hc => (hk c hc).2]

def loosely (v x : List Char) (op : Comparison) (y : List Char) (z : Char) : List Char :=
  v ++ (x ++ [' ']) ++ op.symbol.toList ++ (' ' :: y ++ [z])

structure Loose (v x y : List Char) (z : Char) : Prop where
  subject : ∀ c ∈ v, isSign c = false ∧ isBlank c = false
  left : ∀ c ∈ x, isBlank c = true
  right : ∀ c ∈ y, isBlank c = true
  next : isSign z = false ∧ isBlank z = false ∧ isNameStart z = false

namespace Loose

theorem left_gap (h : Loose v x y z) : ∀ c ∈ x ++ [' '], isBlank c = true :=
  List.forall_mem_append.mpr ⟨h.left, by decide⟩

theorem right_gap (h : Loose v x y z) : ∀ c ∈ ' ' :: y, isBlank c = true :=
  List.forall_mem_cons.mpr ⟨by decide, h.right⟩

theorem front (h : Loose v x y z) : ∀ c ∈ v ++ (x ++ [' ']), isSign c = false :=
  List.forall_mem_append.mpr ⟨fun c hc => (h.subject c hc).1, fun c hc =>
    isSign_of_isBlank (h.left_gap c hc)⟩

theorem back (h : Loose v x y z) : ∀ c ∈ ' ' :: y ++ [z], isSign c = false :=
  List.forall_mem_append.mpr ⟨fun c hc => isSign_of_isBlank (h.right_gap c hc),
    List.forall_mem_singleton.mpr h.next.1⟩

theorem noLonelyEquals (h : Loose v x y z) : lonelyEquals.Unmatched [] (loosely v x op y z) k := by
  refine .append (.append (unmatched_of_forall (fun _ _ _ h => lonelyEquals_matchAt h) h.front) ?_)
    (unmatched_of_forall (fun _ _ _ h => lonelyEquals_matchAt h) h.back)
  have hbefore : (v ++ (x ++ [' '])).reverse ++ [] = ' ' :: (x.reverse ++ v.reverse) := by simp
  rw [hbefore]
  exact lonelyEquals_symbol

theorem noComparedWords (h : Loose v x y z) :
    comparedWords.Unmatched [] (loosely v x op y z) k := by
  refine .append (comparedWords_unmatched h.front (symbol_signs op) (h.back ' ' (by simp)) ?_)
    (unmatched_of_forall (fun _ _ _ h => comparedWords_matchAt h) h.back)
  rw [List.append_assoc, List.dropWhile_append_of_pos h.right_gap, List.singleton_append,
    List.dropWhile_cons_of_neg (by simp [h.next.2.1])]
  exact h.next.2.2

theorem spaces (h : Loose v x y z) : blanks1.replace " " (loosely v x op y z ++ k) =
    compared v op (z ::
      blanks1.replaceFrom (fun _ => " ".toList) (loosely v x op y z).reverse 0 k) := by
  have hsymbol : ∀ c ∈ op.symbol.toList, isBlank c = false := by cases op <;> decide
  have hafter (r : List Char) : (op.symbol.toList ++ r).head?.any isBlank = false := by
    cases op <;> rfl
  have hnext : ([z] ++ k).head?.any isBlank = false := h.next.2.1
  have hlast : blanks1.Unmatched ((' ' :: y).reverse ++ (op.symbol.toList.reverse ++
      ((x ++ [' ']).reverse ++ (v.reverse ++ [])))) [z] k :=
    .cons (blanks1_matchAt h.next.2.1) unmatched_nil
  have htext : loosely v x op y z ++ k =
      v ++ ((x ++ [' ']) ++ (op.symbol.toList ++ ((' ' :: y) ++ ([z] ++ k)))) := by simp [loosely]
  rw [htext, Pattern.replace, replaceWith, replace_gap (fun c hc => (h.subject c hc).2) (by simp)
    h.left_gap (hafter _), replace_gap hsymbol (by simp) h.right_gap hnext,
    replaceFrom_unmatched hlast]
  simp [compared, loosely]

/-- A comparison with a sign keeps the sign, with one space at each side, and what follows it is
rewritten on its own. -/
theorem tidy (h : Loose v x y z) (op : Comparison) (k : List Char) :
    blanks1.replace " " (comparedWords.replaceWith literalSide
      (lonelyEquals.replace "==" (loosely v x op y z ++ k))) =
      compared v op (z :: tidied (loosely v x op y z).reverse k) := by
  have hlonely : lonelyEquals.replace "==" (loosely v x op y z ++ k) = _ :=
    replaceWith_behind h.noLonelyEquals
  rw [hlonely, replaceWith_behind h.noComparedWords, h.spaces, tidied]

end Loose

/-- A comparison with a sign is a condition as it stands. -/
theorem condition_compared (hv : v ≠ [])
    (hvs : ∀ c ∈ v, isSign c = false ∧ isBlank c = false)
    (hk : ∀ c ∈ z :: k, isSign c = false ∧ isBlank c = false) (hname : isNameStart z = false)
    (hend : ∃ c, (z :: k).getLast? = some c ∧ c ≠ ',' ∧ c ≠ ':')
    (hlacks : Lacks comparisonHeads (compared v op (z :: k))) :
    condition (compared v op (z :: k)) = compared v op (z :: k) := by
  obtain ⟨c, hc, hcomma, hcolon⟩ := hend
  have hlast : (compared v op (z :: k)).getLast? = some c := by
    rw [compared, List.getLast?_append, List.getLast?_cons, List.getLast?_append,
      List.getLast?_cons, hc]
    rfl
  have htrim : trim (compared v op (z :: k)) = compared v op (z :: k) := by
    obtain ⟨d, r, rfl⟩ := List.exists_cons_of_ne_nil hv
    refine trimWhile_eq_self (hvs d (by simp)).2 ?_
    rw [hlast]
    exact (hk c (List.mem_of_getLast? hc)).2
  have hcut : dropEndWhile (fun c => c == ',' || c == ':') (compared v op (z :: k)) =
      compared v op (z :: k) :=
    dropEndWhile_eq_self (by rw [hlast]; simp [hcomma, hcolon])
  obtain ⟨hsign, hblank⟩ := hk z (by simp)
  have hloose : Loose v [] [] z := ⟨hvs, nofun, nofun, hsign, hblank, hname⟩
  have htidy := hloose.tidy op k
  rw [tidied_eq_self fun c hc => hk c (by simp [hc])] at htidy
  have htext : loosely v [] op [] z ++ k = compared v op (z :: k) := by simp [loosely, compared]
  rw [htext] at htidy
  rw [condition, htrim, hcut, htrim, comparisonPhrases_kept hlacks]
  exact (congrArg trim htidy).trans htrim

end Conditions

end Scribe.Instruction
