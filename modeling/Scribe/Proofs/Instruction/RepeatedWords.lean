import Mathlib.Data.List.Basic
import Scribe.Proofs.Instruction.Chains
import Scribe.Proofs.Instruction.Loops
import Scribe.Proofs.Instruction.QuotedAssignments
import Scribe.Proofs.Script.Numerals

/-!
# Words that are shown several times

`Show m n times` is a loop that says `m`, whatever word of letters `m` is: it may be a verb, a
number word or a word of another form, since what follows it is a number. Only a word that is a
count by itself is taken for one.
-/
namespace Scribe

/-! ## Patterns in front of a number -/

namespace Pattern
open Text

variable {p q : Pattern} {ss : List String} {u : List Char} {x : Char}

def NoDigit (p : Pattern) : Prop :=
  ∀ ⦃x : Char⦄, isDigit x = true → ∀ k b r g, p.run k ⟨b, x :: r, g⟩ = none

theorem noDigit_one {f : Char → Bool} (h : ∀ x, isDigit x = true → f x = false) :
    NoDigit (one f) := fun _ hx _ _ _ _ => run_one_eq_none (h _ hx)

theorem noDigit_char {c : Char} (h : isDigit c = false) : NoDigit (char c) := by
  refine noDigit_one fun x hx => beq_eq_false_iff_ne.mpr ?_
  rintro rfl
  rw [h] at hx
  cases hx

theorem NoDigit.append (h : NoDigit p) (q : Pattern) : NoDigit (p ++ q) :=
  fun _ hx _ b r g => h hx _ b r g

theorem NoDigit.or (hp : NoDigit p) (hq : NoDigit q) : NoDigit (p ||| q) :=
  fun _ hx k b r g => (run_or_right (hp hx k b r g)).trans (hq hx k b r g)

theorem NoDigit.maybe (hp : NoDigit p) (hq : NoDigit q) : NoDigit (opt p ++ q) :=
  fun _ hx k b r g => (run_or_right (hp hx (q.run k) b r g)).trans (hq hx k b r g)

theorem noDigit_word {s : String} (hs : OfLetters [s]) : NoDigit (word s) := by
  obtain ⟨hne, hletters⟩ := hs s (by simp)
  unfold word
  obtain ⟨c, r, hcs⟩ := List.exists_cons_of_ne_nil hne
  rw [hcs] at hletters ⊢
  refine NoDigit.append (noDigit_one fun x hx => beq_eq_false_iff_ne.mpr ?_) _
  rintro rfl
  rw [isDigit_of_isNameStart (hletters _ (by simp))] at hx
  cases hx

def led (ss : List String) (q : Pattern) : Pattern := edge ++ (words ss ++ (blanks1 ++ q))

theorem opens_led (hss : OfLetters ss) (q : Pattern) : Opens (fun _ => False) ss (led ss q) :=
  opens_words hss (closes_blanks1.append q)

theorem run_blanks1_digit (hq : NoDigit q) (hx : isDigit x = true) (k : Cursor → Option Cursor)
    (b : Option Char) (r : List Char) (g : List (Nat × List Char)) :
    (blanks1 ++ q).run k ⟨b, ' ' :: x :: r, g⟩ = none := by
  have hblank : (x :: r).head?.any isBlank = false := isBlank_of_isDigit hx
  rw [run_append, run_blanks1_single hblank, hq hx]

/-- Whatever the word is, a number behind it does not fit. -/
theorem matchAt_led_digit (hss : OfLetters ss) (hq : NoDigit q)
    (hu : ∀ c ∈ u, isWordChar c = true) (hx : isDigit x = true) (before r : List Char) :
    (led ss q).matchAt before (u ++ ' ' :: x :: r) = none := by
  rw [matchAt, Option.map_eq_none_iff, Option.eq_none_iff_forall_not_mem]
  intro d hd
  have hapart : ¬OpenStart (' ' :: x :: r) := Bool.false_ne_true
  obtain ⟨-, g, hrun⟩ := run_past_words hss (closes_blanks1.append q) hu hapart (run_of_edge hd)
  rw [run_blanks1_digit hq hx] at hrun
  cases hrun

end Pattern

namespace Instruction
open Text Pattern

theorem isInfix_of_holds {piece : String} {cs : List Char} (h : holds piece cs = true) :
    piece.toList <:+: cs := by
  obtain ⟨i, hi⟩ := Option.isSome_iff_exists.mp h
  exact (prefix_of_find? hi).isInfix.trans (List.drop_suffix i cs).isInfix

/-! ## The sentence -/

structure LetterWord where
  first : Char
  rest : List Char
  letters : ∀ c ∈ first :: rest, c.isAlpha = true

def LetterWord.text (m : LetterWord) : List Char := m.first :: m.rest

def LetterWord.IsMultiplier (m : LetterWord) : Prop :=
  String.ofList (lower m.text) ∈ multipliers.map Prod.fst

instance (m : LetterWord) : Decidable m.IsMultiplier :=
  inferInstanceAs (Decidable (_ ∈ _))

variable (m : LetterWord) (k : Digits)

def shownFront : List Char := ("Show".toList ++ [' ']) ++ (m.text ++ [' '])

def shownCount : List Char := k.text ++ " times".toList

def shownSentence : List Char := shownFront m ++ shownCount k

theorem shownFront_eq : shownFront m = ("Show".toList ++ [' ']) ++ (m.text ++ [' ']) := rfl

theorem shownCount_eq : shownCount k = k.text ++ " times".toList := rfl

namespace LetterWord
variable {m}

theorem forall_text {P : Char → Prop}
    (h : ∀ n : Fin 128, (Char.ofNat n).isAlpha = true → P (Char.ofNat n)) : ∀ c ∈ m.text, P c :=
  forall_of_isAlpha m.letters h

theorem word : ∀ c ∈ m.text, isWordChar c = true :=
  fun c hc => isWordChar_of_isAlpha (m.letters c hc)

theorem fold_ne (h : ¬m.IsMultiplier) : ∀ s ∈ multipliers.map Prod.fst,
    m.text.map foldCase ≠ s.toList := by
  intro s hs hfold
  have hlower : m.text.map foldCase = lower m.text := map_foldCase_letters m.letters
  rw [hlower] at hfold
  refine h ?_
  rw [IsMultiplier, hfold, String.ofList_toList]
  exact hs

end LetterWord

theorem Digits.word : ∀ c ∈ k.text, isWordChar c = true := k.forall_text (by decide)

theorem Digits.isDigit_first : isDigit k.first = true := k.isDigit_text _ List.mem_cons_self

def Digits.ofNat (n : Nat) : Digits where
  first := (Nat.toDigits 10 n).head Nat.toDigits_ne_nil
  rest := (Nat.toDigits 10 n).tail
  digits := by
    rw [List.cons_head_tail]
    exact fun c hc => Nat.isDigit_of_mem_toDigits (by decide) (by decide) hc

theorem Digits.text_ofNat (n : Nat) : (Digits.ofNat n).text = (toString n).toList := by
  rw [Nat.toString_eq_repr, Nat.toList_repr]
  exact List.cons_head_tail Nat.toDigits_ne_nil

theorem Digits.number_eq : numberOfDigits k.text = Nat.ofDigitChars 10 k.text 0 := by
  have hvalue : ∀ c ∈ k.text, (digitValue? c).getD 0 = c.toNat - '0'.toNat :=
    k.forall_text (by decide)
  rw [numberOfDigits, Nat.ofDigitChars]
  refine List.foldl_ext _ _ _ fun n c hc => ?_
  rw [hvalue c hc]

theorem Digits.number_ofNat (n : Nat) : numberOfDigits (Digits.ofNat n).text = n := by
  have htext : (Digits.ofNat n).text = Nat.toDigits 10 n := List.cons_head_tail Nat.toDigits_ne_nil
  rw [Digits.number_eq, htext, Nat.ofDigitChars_ten_toDigits]

section Sentence
variable {m k}

theorem shownSentence_eq :
    shownSentence m k = "Show".toList ++ ' ' :: (m.text ++ ' ' :: shownCount k) := by
  simp [shownSentence, shownFront_eq]

/-- What holds of the characters of the sentence. -/
theorem forall_shownSentence {P : Char → Prop} (hwords : ∀ c ∈ "Show times".toList, P c)
    (hletter : ∀ n : Fin 128, (Char.ofNat n).isAlpha = true → P (Char.ofNat n))
    (hdigit : ∀ n : Fin 128, (Char.ofNat n).isDigit = true → P (Char.ofNat n)) :
    ∀ c ∈ shownSentence m k, P c := by
  have hpart {ds : List Char} (hds : ∀ c ∈ ds, c ∈ "Show times".toList) : ∀ c ∈ ds, P c :=
    fun c hc => hwords c (hds c hc)
  exact List.forall_mem_append.mpr ⟨List.forall_mem_append.mpr ⟨hpart (by decide),
      List.forall_mem_append.mpr ⟨LetterWord.forall_text hletter, hpart (by decide)⟩⟩,
    List.forall_mem_append.mpr ⟨k.forall_text hdigit, hpart (by decide)⟩⟩

theorem trim_shownSentence : trim (shownSentence m k) = shownSentence m k := by
  refine trimWhile_eq_self rfl ?_
  have hlast : (shownSentence m k).getLast? = some 's' := by
    simp only [shownSentence, shownCount_eq, List.getLast?_append]
    rfl
  rw [hlast]
  decide

theorem unquoted_shownSentence : ∀ c ∈ shownSentence m k, isQuote c = false :=
  forall_shownSentence (by decide) (by decide) (by decide)

theorem unwrap_shownSentence : unwrap (shownSentence m k) = shownSentence m k := by
  rw [Quotation.unwrap_unquoted unquoted_shownSentence, trim_shownSentence]

/-! ## Where patterns match -/

/-- A pattern that starts with a word matches in front of the number only at one of the words. -/
theorem unmatched_shownFront {p : Pattern} {ss : List String} (hp : Opens (fun _ => False) ss p)
    (hshow : p.matchAt [] ("Show".toList ++ ' ' :: (m.text ++ ' ' :: shownCount k)) = none)
    (hword : p.matchAt " wohS".toList (m.text ++ ' ' :: shownCount k) = none) :
    p.Unmatched [] (shownFront m) (shownCount k) := by
  refine .append (hp.unmatched_word (by decide) ?_) (hp.unmatched_word LetterWord.word hword)
  rw [List.append_assoc]
  exact hshow

theorem unmatched_led {ss : List String} {q : Pattern} (hss : OfLetters ss) (hshow : "show" ∉ ss)
    (hq : NoDigit q) : (led ss q).Unmatched [] (shownFront m) (shownCount k) := by
  refine unmatched_shownFront (opens_led hss q) ?_ ?_
  · have hapart : ¬OpenStart (' ' :: (m.text ++ ' ' :: shownCount k)) := Bool.false_ne_true
    refine matchAt_words_eq_none hss (closes_blanks1.append q) (by decide) hapart ?_ []
    intro s hs heq
    exact hshow (String.toList_injective (show "show".toList = s.toList from heq) ▸ hs)
  · exact matchAt_led_digit hss hq LetterWord.word k.isDigit_first _ _

/-- From the number on, such a pattern fits only if `times` is one of its words. -/
theorem unmatched_led_count {ss : List String} {q : Pattern} (hss : OfLetters ss)
    (htimes : "times" ∉ ss) (before : List Char) :
    (led ss q).Unmatched before (shownCount k) [] := by
  have hopens := opens_led hss q
  have hclose := closes_blanks1.append q
  have hnumber : (led ss q).Unmatched before (k.text ++ [' ']) "times".toList := by
    have hapart : ¬OpenStart (' ' :: "times".toList) := Bool.false_ne_true
    refine hopens.unmatched_word k.word (matchAt_words_eq_none hss hclose k.word hapart ?_ _)
    intro s hs hfold
    have hstart := (isWord_of_fold (hss s hs).2 hfold k.first List.mem_cons_self).2
    rw [k.isDigit_first] at hstart
    cases hstart
  have hlast : (led ss q).Unmatched ((k.text ++ [' ']).reverse ++ before)
      ("time".toList ++ ['s']) [] := by
    refine hopens.unmatched_word (by decide) ?_
    refine matchAt_words_eq_none (u := "times".toList) (v := []) hss hclose (by decide)
      Bool.false_ne_true ?_ _
    intro s hs heq
    exact htimes (String.toList_injective (show "times".toList = s.toList from heq) ▸ hs)
  have hsplit : shownCount k = k.text ++ [' '] ++ ("time".toList ++ ['s']) := by
    simp [shownCount_eq]
  rw [hsplit]
  exact hnumber.append hlast

/-- Such a pattern is not found in the sentence. -/
theorem found_led {p q : Pattern} {ss : List String} (hss : OfLetters ss) (hshow : "show" ∉ ss)
    (htimes : "times" ∉ ss) (hq : NoDigit q) (hp : ∀ k c, p.run k c = (led ss q).run k c) :
    p.found (shownSentence m k) = false := by
  have hfront := unmatched_led (m := m) (k := k) hss hshow hq
  have hcount := unmatched_led_count (k := k) (q := q) hss htimes ((shownFront m).reverse ++ [])
  have hend : (led ss q).matchAt (shownSentence m k).reverse [] = none := by
    rw [matchAt, (opens_led hss q).run_nil hss]
    rfl
  rw [← List.append_nil (shownCount k)] at hfront
  rw [found, search_congr hp]
  exact found_eq_false_iff.mpr ⟨hfront.append hcount, hend⟩

/-! ## The count and the message -/

theorem noDigit_timesWord : NoDigit timesWord := by
  have hword : NoDigit (word "time") := noDigit_word (by decide)
  exact (hword.append _).append _

/-- What starts with a digit matches nowhere in front of the number. -/
theorem unmatched_digits {p : Pattern}
    (hp : ∀ c b r g, r.head?.any isDigit = false → p.run c ⟨b, r, g⟩ = none) :
    (edge ++ p).Unmatched [] (shownFront m) (shownCount k) := by
  have hfront : ∀ c ∈ shownFront m, isDigit c = false :=
    List.forall_mem_append.mpr ⟨by decide, List.forall_mem_append.mpr
      ⟨LetterWord.forall_text (by decide), by decide⟩⟩
  refine unmatched_of_forall (f := isDigit) (fun before x r hx => ?_) hfront
  rw [matchAt, Option.map_eq_none_iff, Option.eq_none_iff_forall_not_mem]
  intro d hd
  have hrun := run_of_edge hd
  rw [hp _ _ (x :: r) _ hx] at hrun
  cases hrun

/-- A search that finds nothing in front of the number and matches from it on. -/
theorem search_shownCount {p : Pattern} {b : Option Char} {g : List (Nat × List Char)}
    (hnone : (edge ++ p).Unmatched [] (shownFront m) (shownCount k))
    (hrun : p.run some ⟨some ' ', shownCount k, []⟩ = some ⟨b, [], g⟩) :
    (edge ++ p).search (shownSentence m k) = some ⟨shownFront m, shownCount k, [], g⟩ := by
  have hedge : (⟨some ' ', shownCount k, []⟩ : Cursor).atEdge = true := by
    have hfirst : isWordChar k.first = true := k.word _ List.mem_cons_self
    simp [Cursor.atEdge, shownCount_eq, Digits.text, hfirst, show isWordChar ' ' = false from rfl]
  have hhead : (shownFront m).reverse.head? = some ' ' := by simp [shownFront_eq]
  have hmatch : (edge ++ p).matchAt (shownFront m).reverse (shownCount k ++ []) =
      some ⟨(shownFront m).reverse.reverse, shownCount k, [], g⟩ := by
    refine matchAt_of_run (b := b) ?_
    rw [hhead, List.append_nil, run_append, run_edge hedge, hrun]
  rw [List.reverse_reverse, List.append_nil] at hmatch
  exact search_behind hnone hmatch

theorem search_countDigits : countDigits.search (shownSentence m k) =
    some ⟨shownFront m, shownCount k, [], [(1, k.text)]⟩ := by
  have htimes : (blanks ++ timesWord).run some (Cursor.cover ⟨some ' ', shownCount k, []⟩ 1
      ⟨k.text.getLast?.or (some ' '), " times".toList, []⟩) =
        some ⟨some 's', [], [(1, k.text)]⟩ := by
    rw [shownCount_eq, cover_append]
    rfl
  rw [search_congr (p := countDigits) (q := edge ++ (group 1 digits ++ (blanks ++ timesWord)))
    fun _ _ => rfl]
  exact search_shownCount (unmatched_digits fun _ _ _ _ hx => run_one_eq_none hx)
    (run_some1 (List.cons_ne_nil _ _) k.isDigit_text rfl htimes)

/-- A word that counts by itself does not stand in front of the number. -/
theorem unmatched_multiplier (h : ¬m.IsMultiplier) {s : String}
    (hs : s ∈ multipliers.map Prod.fst) :
    (edge ++ (word s ++ edge)).Unmatched [] (shownFront m) (shownCount k) := by
  have hall : OfLetters (multipliers.map Prod.fst) ∧
      ∀ s ∈ multipliers.map Prod.fst, "show".toList ≠ s.toList := by decide
  have hletters : OfLetters [s] := fun t ht => hall.1 t (List.mem_singleton.mp ht ▸ hs)
  have hnone {u v before : List Char} (hu : ∀ c ∈ u, isWordChar c = true)
      (hnot : u.map foldCase ≠ s.toList) :
      (edge ++ (word s ++ edge)).matchAt before (u ++ ' ' :: v) = none := by
    have hapart : ¬OpenStart (' ' :: v) := Bool.false_ne_true
    refine matchAt_words_eq_none hletters closes_edge hu hapart (fun t ht => ?_) before
    rwa [List.mem_singleton.mp ht]
  exact unmatched_shownFront (opens_word hletters closes_edge)
    (hnone (by decide) (hall.2 s hs)) (hnone LetterWord.word (LetterWord.fold_ne h s hs))

theorem search_anyCount (h : ¬m.IsMultiplier) : anyCount.search (shownSentence m k) =
    some ⟨shownFront m, shownCount k, [], []⟩ := by
  have hdigits : (digits ++ (blanks ++ timesWord)).run some ⟨some ' ', shownCount k, []⟩ =
      some ⟨some 's', [], []⟩ :=
    run_some1 (List.cons_ne_nil _ _) k.isDigit_text rfl rfl
  refine search_shownCount (unmatched_choice ?_) (run_or_left hdigits)
  have hnumber : OfLetters (numberWords.map Prod.fst) := by decide
  simp only [List.forall_mem_cons, List.not_mem_nil, false_imp_iff, implies_true, and_true]
  refine ⟨unmatched_digits fun _ _ _ _ hx => run_one_eq_none hx,
    unmatched_digits fun _ _ _ _ hx => run_one_eq_none hx,
    unmatched_multiplier h (by decide), unmatched_multiplier h (by decide),
    unmatched_multiplier h (by decide), unmatched_led hnumber (by decide) noDigit_timesWord⟩

theorem loopCount_shown (m : LetterWord) (k : Digits) :
    loopCount (shownSentence m k) = .ok (some (numberOfDigits k.text)) := by
  rw [loopCount, unwrap_shownSentence, search_countDigits]
  rfl

theorem quotedText_shown : quotedText.Unmatched [] (shownSentence m k) [] :=
  unmatched_of_unquoted _ _ (forall_shownSentence (by decide) (by decide) (by decide)) [] []

theorem firstQuoted?_shown : firstQuoted? (shownSentence m k) = none := by
  have hfound : quotedText.found (shownSentence m k) = false :=
    found_eq_false_iff.mpr ⟨quotedText_shown, rfl⟩
  rw [found, Option.isSome_eq_false_iff, Option.isNone_iff_eq_none] at hfound
  rw [firstQuoted?, hfound]
  rfl

theorem allQuoted_shown : allQuoted (shownSentence m k) = [] := by
  have hfind := findFrom_unmatched (quotedText_shown (m := m) (k := k))
  rw [List.append_nil] at hfind
  rw [allQuoted, findAll, hfind]
  rfl

/-- The verb is dropped, and what stands behind it stays. -/
theorem dropFronts_shown : messageFronts.foldl (fun head front => front.dropFront head)
    ("Show".toList ++ ' ' :: m.text) = m.text := by
  have hblank : m.text.head?.any isBlank = false :=
    LetterWord.forall_text (P := fun c => isBlank c = false) (by decide) m.first List.mem_cons_self
  have hverb : (showVerb ++ blanks1).dropFront ("Show".toList ++ ' ' :: m.text) = m.text := by
    refine dropFront_of_run (w := "Show ".toList) (b := some ' ') (g := []) rfl ?_
    rw [run_append]
    exact run_or_left ((run_word rfl).trans (run_blanks1_single hblank))
  have hthe : (word "the" ++ blanks1 ++ words ["phrase", "word", "text", "message"] ++
      blanks1).dropFront m.text = m.text := by
    refine dropFront_eq_self (Option.eq_none_iff_forall_not_mem.mpr fun d hd => ?_)
    rw [Option.mem_def, ← List.append_nil m.text] at hd
    have hletters : OfLetters ["the"] := by decide
    -- Behind the word there is nothing left for the blanks.
    obtain ⟨-, g, hrest⟩ := run_past_words (v := [])
      (q := blanks1 ++ (words ["phrase", "word", "text", "message"] ++ blanks1))
      hletters (closes_blanks1.append _) LetterWord.word nofun hd
    cases hrest
  have hkept {p : Pattern} (hp : p.run some ⟨none, "Show".toList ++ ' ' :: m.text, []⟩ = none) :
      p.dropFront ("Show".toList ++ ' ' :: m.text) = "Show".toList ++ ' ' :: m.text :=
    dropFront_eq_self hp
  simp only [messageFronts, List.foldl_cons, List.foldl_nil]
  rw [hkept rfl, hkept rfl, hkept rfl, hverb, hthe]

theorem countedHead_shown (h : ¬m.IsMultiplier) : countedHead (shownSentence m k) = m.text := by
  have hblank : ∀ c ∈ m.text, isBlank c = false := LetterWord.forall_text (by decide)
  have hmark : ∀ c ∈ m.text, (c == ':' || c == ',') = false := LetterWord.forall_text (by decide)
  have hend {p : Char → Bool} (hp : ∀ c ∈ m.text, p c = false) (u : List Char) :
      (u ++ m.text).getLast?.any p = false := getLast?_any_of_forall (List.cons_ne_nil _ _) hp u
  have hkept : dropEndWhile (fun c => c == ':' || c == ',') m.text = m.text :=
    dropEndWhile_eq_self (hend hmark [])
  have hfront : trim (shownFront m) = "Show".toList ++ ' ' :: m.text := by
    rw [shownFront_eq, ← List.append_assoc, trim_append_blanks (by decide)]
    exact trimWhile_eq_self rfl (hend hblank "Show ".toList)
  have htrim : trim m.text = m.text :=
    trimWhile_eq_self (hblank m.first List.mem_cons_self) (hend hblank [])
  have hpayload : payload m.text = m.text := payload_letters (List.cons_ne_nil _ _) m.letters
  rw [countedHead, search_anyCount h]
  dsimp only
  rw [hfront, dropFronts_shown, hkept, htrim, hpayload]

theorem loopMessage_shown (h : ¬m.IsMultiplier) :
    loopMessage (shownSentence m k) = m.text := by
  have hrun : runForm.matchStart (trim (shownSentence m k)) = none := by
    rw [trim_shownSentence]
    rfl
  simp only [loopMessage, unwrap_shownSentence, firstQuoted?_shown, hrun, countedHead_shown h]
  rfl

/-! ## The intent -/

theorem commentRequest_shown : commentRequest.found (shownSentence m k) = false := by
  have hword {s : String} (hs : OfLetters [s]) (q : Pattern) : NoDigit (word s ++ q) :=
    (noDigit_word hs).append q
  have hwrite : NoDigit (word "a" ++ (blanks1 ++ (word "comment" ++ edge))) :=
    hword (by decide) _
  have hadd : NoDigit (maybeA ++ (word "comment" ++ edge)) :=
    .maybe (hword (by decide) _) (hword (by decide) _)
  have hsays : NoDigit (opt (word "that" ++ blanks1) ++ (word "says" ++ edge)) :=
    .maybe (hword (by decide) _) (hword (by decide) _)
  have hmark : NoDigit commentMark :=
    .or ((noDigit_char (by decide)).append _) (noDigit_char (by decide))
  have hletters : OfLetters ["write", "add", "insert", "comment", "using"] := by decide
  have hone {p q : Pattern} {s : String} (hs : s ∈ ["write", "add", "insert", "comment", "using"])
      (hq : NoDigit q) (hp : ∀ k c, p.run k c = (led [s] q).run k c) :
      p.found (shownSentence m k) = false := by
    have hother {t : String} (ht : t ∉ ["write", "add", "insert", "comment", "using"]) :
        t ∉ [s] := fun h => ht (List.mem_singleton.mp h ▸ hs)
    exact found_led (fun t ht => hletters t (List.mem_singleton.mp ht ▸ hs)) (hother (by decide))
      (hother (by decide)) hq hp
  refine found_choice ?_
  simp only [List.forall_mem_cons, List.not_mem_nil, false_imp_iff, implies_true, and_true]
  exact ⟨hone (s := "write") (by decide) hwrite fun _ _ => rfl,
    hone (s := "add") (by decide) hadd fun _ _ => rfl,
    hone (s := "insert") (by decide) hadd fun _ _ => rfl,
    hone (s := "comment") (by decide) hsays fun _ _ => rfl,
    hone (s := "using") (by decide) hmark fun _ _ => rfl⟩

theorem embeddedSet_shown : embeddedSet.found (shownSentence m k) = false := by
  have hset : NoDigit (word "set" ++ (blanks1 ++ (anyName ++ (blanks ++ ((char '=' ||| word "to") ++
      blanks1))))) := (noDigit_word (by decide)).append _
  have hletters : OfLetters ["then", "and"] := by decide
  exact found_led hletters (by decide) (by decide) hset fun _ _ => rfl

theorem whenForm_shown : whenForm.matchStart (shownSentence m k) = none := by
  have hwhen : NoDigit (word "when") := noDigit_word (by decide)
  have hblank : (m.text ++ ' ' :: shownCount k).head?.any isBlank = false :=
    LetterWord.forall_text (P := fun c => isBlank c = false) (by decide) m.first List.mem_cons_self
  rw [matchStart, matchAt, Option.map_eq_none_iff, Option.eq_none_iff_forall_not_mem]
  intro d hd
  rw [Option.mem_def, shownSentence_eq] at hd
  have hfirst : ¬OpenStart (' ' :: (m.text ++ ' ' :: shownCount k)) := Bool.false_ne_true
  have hsecond : ¬OpenStart (' ' :: shownCount k) := Bool.false_ne_true
  have hletters : OfLetters ["show", "print", "output", "echo"] := by decide
  obtain ⟨-, g, hgap⟩ :=
    run_past_words hletters (closes_blanks1.append _) (by decide) hfirst hd
  rw [run_append, run_blanks1_single hblank] at hgap
  obtain ⟨g, -, hnumber⟩ := run_past_word (covers_group covers_startedName 1)
    (closes_blanks1.append _) LetterWord.word hsecond hgap
  rw [shownCount_eq, Digits.text, List.cons_append,
    run_blanks1_digit hwhen k.isDigit_first] at hnumber
  cases hnumber

theorem lower_shown : lower (shownSentence m k) = (shownSentence m k).map foldCase :=
  lower_ascii (forall_shownSentence (by decide) (by decide) (by decide))

/-- The words that stand in the sentence. -/
theorem stands_shown {w : List Char} (h : Stands w ((shownSentence m k).map foldCase)) :
    w = "show".toList ∨ w = m.text.map foldCase ∨ w = k.text.map foldCase ∨
      w = "times".toList := by
  have htext : (shownSentence m k).map foldCase = "show".toList ++ ([' '] ++ (m.text.map foldCase ++
      ([' '] ++ (k.text.map foldCase ++ ([' '] ++ "times".toList))))) := by
    simp only [shownSentence_eq, shownCount_eq, List.map_append, List.map_cons]
    rfl
  have hword : ∀ c ∈ m.text.map foldCase, isWordChar c = true :=
    List.forall_mem_map.mpr (LetterWord.forall_text (by decide))
  have hnumber : ∀ c ∈ k.text.map foldCase, isWordChar c = true :=
    List.forall_mem_map.mpr (k.forall_text (by decide))
  rw [htext] at h
  rcases h.between (by simp) (by decide) with h | h
  · exact .inl (h.eq_word (by decide))
  rcases h.between (by simp) (by decide) with h | h
  · exact .inr (.inl (h.eq_word hword))
  rcases h.between (by simp) (by decide) with h | h
  · exact .inr (.inr (.inl (h.eq_word hnumber)))
  · exact .inr (.inr (.inr (h.eq_word (by decide))))

/-- The words of a branch do not both occur: where `else` does, there is no letter `f`. -/
theorem straight_shown : (holds " else " (lower (shownSentence m k)) &&
    holds "if " (lower (shownSentence m k))) = false := by
  rw [lower_shown, Bool.eq_false_iff]
  intro h
  obtain ⟨helse, hif⟩ := Bool.and_eq_true_iff.mp h
  obtain ⟨a, b, hab⟩ := isInfix_of_holds helse
  have hstands : Stands "else".toList ((shownSentence m k).map foldCase) :=
    ⟨by decide, by decide, a ++ [' '], ' ' :: b, by rw [← hab]; simp, by simp [OpenEnd]; decide,
      Bool.false_ne_true⟩
  have hdigits : ∀ c ∈ k.text.map foldCase, c ≠ 'e' ∧ c ≠ 'f' :=
    List.forall_mem_map.mpr (k.forall_text (by decide))
  have hword : m.text.map foldCase = "else".toList := by
    rcases stands_shown hstands with h | h | h | h
    · exact absurd h (by decide)
    · exact h.symm
    · exact absurd rfl (hdigits 'e' (h ▸ by decide)).1
    · exact absurd h (by decide)
  have hf : 'f' ∈ (shownSentence m k).map foldCase := (isInfix_of_holds hif).subset (by decide)
  have habsent : ∀ c ∈ (shownSentence m k).map foldCase, c ≠ 'f' := by
    simp only [shownSentence, shownFront_eq, shownCount_eq, List.map_append, hword]
    exact List.forall_mem_append.mpr ⟨by decide,
      List.forall_mem_append.mpr ⟨fun c hc => (hdigits c hc).2, by decide⟩⟩
  exact habsent 'f' hf rfl

theorem isLoop_shown (m : LetterWord) (k : Digits) : isLoop (shownSentence m k) = .ok true := by
  rw [isLoop_eq unwrap_shownSentence, loopCount_shown]
  rfl

theorem refineIntent_shown : refineIntent .loop (shownSentence m k) = .ok .loop := by
  have hstart : assignStart.matchStart (lower (shownSentence m k)) = none := by
    rw [lower_shown]
    rfl
  have hassigned : refineAssignment .loop (lower (shownSentence m k)) (shownSentence m k) =
      .loop := by
    simp only [refineAssignment, hstart, embeddedSet_shown, Option.isSome_none, Bool.or_false,
      Bool.and_false, Bool.false_eq_true, if_false]
  have hplus : (shownSentence m k).contains '+' = false := by
    have hne : ∀ c ∈ shownSentence m k, c ≠ '+' :=
      forall_shownSentence (by decide) (by decide) (by decide)
    rw [Bool.eq_false_iff]
    exact fun h => hne '+' (List.contains_iff_mem.mp h) rfl
  have hif : "if ".toList.isPrefixOf (lower (shownSentence m k)) = false := by
    rw [lower_shown]
    rfl
  have hform : refineForm .loop (lower (shownSentence m k)) (shownSentence m k) true = .loop := by
    simp only [refineForm, allQuoted_shown, commentRequest_shown, hplus, hif, trim_shownSentence,
      whenForm_shown, straight_shown]
    simp
  have hloop : refineLoop .loop (lower (shownSentence m k)) (shownSentence m k) true =
      .ok .loop := by
    simp only [refineLoop, hif]
    rfl
  simp only [refineIntent, isLoop_shown, trim_shownSentence, hloop, Except.map, hassigned, hform]

/-- The words make it a loop, and so does a classifier that takes it for one. -/
theorem resolveIntent_shown (m : LetterWord) (k : Digits) {label : Option String}
    {score threshold : Float} (h : isUnusable label score threshold = true ∨
      label.bind Intent.ofLabel? = some .loop) :
    resolveIntent label score (shownSentence m k) threshold = .ok .loop := by
  have hinferred : inferIntent (shownSentence m k) = .ok .loop := by
    simp only [inferIntent, signalOrder, firstSignalled, Intent.isSignalled, isLoop_shown]
  have hfallback : (inferIntent (shownSentence m k)).bind (refineIntent · (shownSentence m k)) =
      .ok .loop := by
    rw [hinferred]
    exact refineIntent_shown
  rcases h with hunusable | hlabel
  · rw [Run.resolveIntent_of_isUnusable hunusable, hfallback]
  · rw [resolveIntent, hlabel]
    dsimp only
    split
    · exact hfallback
    · exact refineIntent_shown

end Sentence

end Instruction
end Scribe
