import Scribe.Proofs.Instruction.Counts
import Scribe.Proofs.Pattern.Openings
import Scribe.Proofs.Script.Drafts

/-!
# Plain words

A plain word consists of ASCII letters and means nothing to the language or to the forms of
instructions. A pattern that opens with a word which means something passes over a text that is put
together from plain words.
-/
namespace Scribe

namespace Pattern
open Text

variable {ss : List String} {x y g : List Char}

theorem Lacks.mono {ss' : List String} (h : Lacks ss' x) (hss : ss ⊆ ss') : Lacks ss x :=
  fun w hw s hs => h w hw s (hss hs)

theorem Lacks.between (hx : Lacks ss x) (hy : Lacks ss y) (hne : g ≠ [])
    (hg : ∀ c ∈ g, isWordChar c = false) : Lacks ss (x ++ (g ++ y)) :=
  fun w hw => (hw.between hne hg).elim (hx w) (hy w)

theorem lacks_word (hx : ∀ c ∈ x, isWordChar c = true)
    (hss : ∀ s ∈ ss, x.map foldCase ≠ s.toList) : Lacks ss x := by
  intro w hw
  rw [hw.eq_word hx]
  exact hss

/-- A word of small letters is found nowhere in itself but as a whole. -/
theorem lacks_spelled {s : String} (hs : ∀ c ∈ s.toList, isWordChar c = true ∧ foldCase c = c)
    (hnot : s ∉ ss) : Lacks ss s.toList := by
  have hfold : s.toList.map foldCase = s.toList :=
    (List.map_congr_left fun c hc => (hs c hc).2).trans (List.map_id _)
  refine lacks_word (fun c hc => (hs c hc).1) fun t ht heq => hnot ?_
  rw [hfold] at heq
  rwa [String.toList_injective heq]

theorem lacks_apart (hx : ∀ c ∈ x, isWordChar c = false) : Lacks ss x :=
  fun _ hw => absurd hw (not_stands_of_apart hx)

/-- A text whose words start with digits lacks all words of letters. -/
theorem lacks_digits (hx : ∀ c ∈ x, isDigit c = true) (hss : OfLetters ss) : Lacks ss x := by
  rintro w ⟨hne, -, a, b, rfl, -, -⟩ s hs hfold
  obtain ⟨c, r, rfl⟩ := List.exists_cons_of_ne_nil hne
  have hc := (isWord_of_fold (hss s hs).2 hfold c (by simp)).2
  rw [hx c (by simp)] at hc
  cases hc

end Pattern

namespace Instruction
open Text Pattern

/-- The reserved words of the language, the words of branches and comparisons, and the verbs that
display. -/
def steeringWords : List String :=
  ["ai", "set", "from", "neuro", "macro", "true", "false", "none", "null",
    "if", "elif", "else", "otherwise", "then", "and", "or",
    "say", "print", "output", "show", "display", "echo",
    "is", "greater", "less", "more", "fewer", "higher", "lower", "bigger", "smaller", "than", "at",
    "least", "most", "equal", "equals", "to", "does", "not"]

theorem ofLetters_steeringWords : OfLetters steeringWords := by
  unfold OfLetters
  decide

structure PlainWord where
  first : Char
  rest : List Char
  letters : ∀ c ∈ first :: rest, c.isAlpha = true
  plain : String.ofList (lower (first :: rest)) ∉ steeringWords

def PlainWord.text (x : PlainWord) : List Char := x.first :: x.rest

theorem of_isAlpha {P : Char → Prop}
    (h : ∀ n : Fin 128, (Char.ofNat n).isAlpha = true → P (Char.ofNat n)) {c : Char}
    (hc : c.isAlpha = true) : P c :=
  forall_ascii (P := fun c => c.isAlpha = true → P c) h
    (toNat_lt_of_isNameStart (by simp [isNameStart, hc])) hc

theorem isWordChar_of_isAlpha {c : Char} (h : c.isAlpha = true) : isWordChar c = true :=
  of_isAlpha (P := fun c => isWordChar c = true) (by decide) h

section Letters
variable {x : List Char}

/-- What holds of every ASCII letter holds of the characters of a word of letters. -/
theorem forall_of_isAlpha {P : Char → Prop} (hx : ∀ c ∈ x, c.isAlpha = true)
    (h : ∀ n : Fin 128, (Char.ofNat n).isAlpha = true → P (Char.ofNat n)) : ∀ c ∈ x, P c :=
  fun c hc => of_isAlpha h (hx c hc)

theorem lower_ascii (hx : ∀ c ∈ x, c.toNat < 128) : lower x = x.map foldCase := by
  have hfold : ∀ c ∈ x, (foldCase c).toNat < 128 := fun c hc =>
    forall_ascii (P := fun c => (foldCase c).toNat < 128) (by decide) (hx c hc)
  have hstray : ∀ c ∈ x, isStray c = false := fun c hc =>
    forall_ascii (P := fun c => isStray c = false) (by decide) (hx c hc)
  refine lowerAfter_of_fold hfold (List.any_eq_false.mpr fun c hc => ?_) []
  rw [hstray c hc]
  exact Bool.false_ne_true

theorem map_foldCase_letters (hx : ∀ c ∈ x, c.isAlpha = true) : x.map foldCase = lower x :=
  (lower_ascii (forall_of_isAlpha hx (by decide))).symm

theorem getLast?_any_of_forall {p : Char → Bool} (hne : x ≠ []) (h : ∀ c ∈ x, p c = false)
    (u : List Char) : (u ++ x).getLast?.any p = false := by
  rw [List.getLast?_append, List.getLast?_eq_some_getLast hne, Option.some_or]
  exact h _ (List.getLast_mem hne)

/-- A message of one word of letters is kept as it is. -/
theorem payload_letters (hne : x ≠ []) (hx : ∀ c ∈ x, c.isAlpha = true) : payload x = x := by
  have hblank : ∀ c ∈ x, isBlank c = false := forall_of_isAlpha hx (by decide)
  have hquote : ∀ c ∈ x, isQuote c = false := forall_of_isAlpha hx (by decide)
  have hmark : ∀ c ∈ x, "\"' .,!?…".toList.contains c = false := forall_of_isAlpha hx (by decide)
  have hfirst {p : Char → Bool} (h : ∀ c ∈ x, p c = false) : x.head?.any p = false := by
    rw [List.head?_eq_some_head hne]
    exact h _ (List.head_mem hne)
  have htrim : trim x = x :=
    trimWhile_eq_self (hfirst hblank) (getLast?_any_of_forall hne hblank [])
  have hunwrap : unwrap x = x := by
    rw [unwrap, htrim]
    refine peel_of_not_wrapped ?_
    rw [isWrapped, hfirst hquote, Bool.and_false, Bool.false_and]
  rw [payload, hunwrap, trimWhile_eq_self (hfirst hmark) (getLast?_any_of_forall hne hmark []),
    htrim]

end Letters

namespace PlainWord
variable (x : PlainWord)

/-- What holds of every ASCII letter holds of the characters of a plain word. -/
theorem forall_text {P : Char → Prop}
    (h : ∀ n : Fin 128, (Char.ofNat n).isAlpha = true → P (Char.ofNat n)) : ∀ c ∈ x.text, P c :=
  forall_of_isAlpha x.letters h

theorem word : IsWord x.text := fun c hc => isWordChar_of_isAlpha (x.letters c hc)

theorem map_foldCase : x.text.map foldCase = lower x.text := map_foldCase_letters x.letters

/-- A steering word does not occur in a plain word. -/
theorem lacks : Lacks steeringWords x.text := by
  refine lacks_word x.word fun s hs hfold => x.plain ?_
  rw [map_foldCase, text] at hfold
  rwa [hfold, String.ofList_toList]

theorem reserved_steering {s : String} (h : s ∉ steeringWords) : Script.reserved? s = none := by
  unfold Script.reserved?
  split
  all_goals first | rfl | exact absurd (by decide) h

def name : Script.Draft.Name where
  first := x.first
  rest := x.rest
  word := x.word
  start := of_isAlpha (P := fun c => isDigit c = false) (by decide) (x.letters x.first (by simp))
  free := by rw [Script.wordKind, reserved_steering x.plain]; rfl

theorem text_ne_nil : x.text ≠ [] := List.cons_ne_nil _ _

theorem isBlank_first : isBlank x.first = false :=
  x.forall_text (P := fun c => isBlank c = false) (by decide) _ (by simp [text])

theorem mem_of_getLast? {u : List Char} {z : Char} (h : (u ++ x.text).getLast? = some z) :
    z ∈ x.text := by
  rw [List.getLast?_append, List.getLast?_eq_some_getLast x.text_ne_nil, Option.some_or,
    Option.some.injEq] at h
  rw [← h]
  exact List.getLast_mem x.text_ne_nil

theorem getLast?_any {p : Char → Bool} (h : ∀ c ∈ x.text, p c = false) (u : List Char) :
    (u ++ x.text).getLast?.any p = false := getLast?_any_of_forall x.text_ne_nil h u

/-- A message of one plain word is kept as it is. -/
theorem payload_text : payload x.text = x.text := payload_letters x.text_ne_nil x.letters

end PlainWord

end Instruction
end Scribe
