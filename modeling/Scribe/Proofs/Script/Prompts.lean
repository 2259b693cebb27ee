import Scribe.Proofs.Instruction.OneLine
import Scribe.Proofs.Script.DraftReading
import Scribe.Proofs.Script.Literals
import Scribe.Proofs.Text.Trim

/-!
# Prompts in quotes

A literal is decoded in one pass, a prompt by four replacements, one kind of escape after the
other. The two agree except behind a backslash that stands in the text itself: there the prompt
takes an `n` for a line end and a `t` for a tab, since the second of the two backslashes that were
written is read together with the letter.
-/
namespace Scribe

namespace Text

theorem replace_pair (a b : Char) (new r : List Char) :
    replace [a, b] new (a :: b :: r) = new ++ replace [a, b] new r := by
  simp [replace, replaceFrom]

theorem replace_other {a b c : Char} {r : List Char} (h : c = a → r.head? ≠ some b)
    (new : List Char) : replace [a, b] new (c :: r) = c :: replace [a, b] new r := by
  have hother : List.isPrefixOf [a, b] (c :: r) = false := by
    cases r with
    | nil => simp [List.isPrefixOf]
    | cons d r =>
      by_cases hc : c = a
      · have hd : d ≠ b := by simpa using h hc
        simp [List.isPrefixOf, Ne.symm hd]
      · simp [List.isPrefixOf, Ne.symm hc]
  simp [replace, replaceFrom, hother]

end Text

namespace Script
open Text

/-- A text whose characters are written by `write`, except that an `n` or a `t` is written by
`behind`, together with the backslash before it, if there is one. -/
def spelled (write behind : Char → List Char) : List Char → List Char
  | [] => []
  | '\\' :: 'n' :: r => behind 'n' ++ spelled write behind r
  | '\\' :: 't' :: r => behind 't' ++ spelled write behind r
  | c :: r => write c ++ spelled write behind r

/-- What becomes of a text that is written as a literal and read as a prompt. -/
def misread : List Char → List Char :=
  spelled (fun c => [c]) fun c => ['\\', if c == 'n' then '\n' else '\t']

def Alone (r : List Char) : Prop := r.head? ≠ some 'n' ∧ r.head? ≠ some 't'

section Spelled
variable {write behind write' behind' : Char → List Char}

theorem spelled_cons {c : Char} {r : List Char} (h : c = '\\' → Alone r) :
    spelled write behind (c :: r) = write c ++ spelled write behind r := by
  rw [spelled.eq_4]
  · rintro r' rfl rfl
    exact (h rfl).1 rfl
  · rintro r' rfl rfl
    exact (h rfl).2 rfl

/-- A text by its characters, where a backslash goes together with an `n` or a `t` behind it. -/
@[elab_as_elim]
theorem spelled_induction {motive : List Char → Prop} (nil : motive [])
    (pair : ∀ x r, x = 'n' ∨ x = 't' → motive r → motive ('\\' :: x :: r))
    (cons : ∀ c r, (c = '\\' → Alone r) → motive r → motive (c :: r)) (t : List Char) :
    motive t := by
  fun_induction spelled (fun c => [c]) (fun c => [c]) t with
  | case1 => exact nil
  | case2 r ih => exact pair 'n' r (.inl rfl) ih
  | case3 r ih => exact pair 't' r (.inr rfl) ih
  | case4 c r hn ht ih =>
    refine cons c r (fun hc => ⟨fun hhead => ?_, fun hhead => ?_⟩) ih
    · obtain ⟨r', rfl⟩ := List.head?_eq_some_iff.mp hhead
      exact hn r' hc rfl
    · obtain ⟨r', rfl⟩ := List.head?_eq_some_iff.mp hhead
      exact ht r' hc rfl

theorem spelled_pair {x : Char} (hx : x = 'n' ∨ x = 't') (r : List Char) :
    spelled write behind ('\\' :: x :: r) = behind x ++ spelled write behind r := by
  rcases hx with rfl | rfl <;> rfl

/-- A spelling starts with a backslash, or with the first character of the text if that stands for
itself. -/
theorem head_spelled (hwrite : ∀ c, (write c).head? = some '\\' ∨ write c = [c])
    (hbehind : ∀ c, (behind c).head? = some '\\') {t : List Char} {d : Char}
    (h : (spelled write behind t).head? = some d) :
    d = '\\' ∨ t.head? = some d ∧ write d = [d] := by
  cases t using spelled_induction with
  | nil => cases h
  | pair x r hx _ =>
    rw [spelled_pair hx, List.head?_append, hbehind] at h
    cases h
    exact .inl rfl
  | cons c r hr _ =>
    rw [spelled_cons hr, List.head?_append] at h
    rcases hwrite c with hc | hc
    · rw [hc] at h
      cases h
      exact .inl rfl
    · rw [hc] at h
      cases h
      exact .inr ⟨rfl, hc⟩

/-- Replacing a pair goes through a spelling part by part. -/
theorem replace_spelled {a b : Char} {new : List Char}
    (hpair : ∀ x y, x = 'n' ∨ x = 't' →
      replace [a, b] new (behind x ++ y) = behind' x ++ replace [a, b] new y)
    (hcons : ∀ c r, (c = '\\' → Alone r) → replace [a, b] new (write c ++ spelled write behind r) =
      write' c ++ replace [a, b] new (spelled write behind r)) (t : List Char) :
    replace [a, b] new (spelled write behind t) = spelled write' behind' t := by
  induction t using spelled_induction with
  | nil => rfl
  | pair x r hx ih => rw [spelled_pair hx, spelled_pair hx, hpair x _ hx, ih]
  | cons c r hr ih => rw [spelled_cons hr, spelled_cons hr, hcons c r hr, ih]

end Spelled

/-- How a character is still written when the escapes of the characters in `done` are undone. -/
def escapeLess (done : List Char) (c : Char) : List Char :=
  if done.contains c then [c] else escape c

theorem escapeLess_cases (done : List Char) (c : Char) :
    escapeLess done c = [c] ∨ ∃ e, escapeLess done c = ['\\', e] ∧ unescape? e = some c := by
  unfold escapeLess
  split
  · exact .inl rfl
  · rcases escape_cases c with ⟨e, he, hc⟩ | ⟨he, -⟩
    · exact .inr ⟨e, he, hc⟩
    · exact .inl he

theorem escapeLess_of_mem {done : List Char} {c : Char} (h : c ∈ done) :
    escapeLess done c = [c] := by
  simp [escapeLess, h]

theorem escapeLess_of_not_mem {done : List Char} {c : Char} (h : c ∉ done) :
    escapeLess done c = escape c := by
  simp [escapeLess, h]

theorem escapeLess_cons {done : List Char} {c d : Char} (h : d ≠ c) :
    escapeLess (c :: done) d = escapeLess done d := by
  simp [escapeLess, h]

theorem unescape?_cases {e c : Char} (h : unescape? e = some c) :
    e = '"' ∧ c = '"' ∨ e = '\\' ∧ c = '\\' ∨ e = 'n' ∧ c = '\n' ∨ e = 't' ∧ c = '\t' := by
  unfold unescape? at h
  split at h <;> cases h <;> simp

/-- What is written for a backslash of the text and an `n` or a `t` behind it. -/
def behindLess (done : List Char) (x : Char) : List Char :=
  if x == 'n' then if done.contains '\n' then ['\\', '\n'] else ['\\', '\\', 'n']
  else if done.contains '\t' then ['\\', '\t'] else ['\\', '\\', 't']

theorem head_behindLess (done : List Char) (x : Char) :
    (behindLess done x).head? = some '\\' := by
  unfold behindLess
  split <;> split <;> rfl

/-- A spelling starts with the letter of an escape that is not undone yet only if the text starts
with an `n` or a `t`. -/
theorem head_spelled_ne {done r : List Char} {e c : Char} (hc : unescape? e = some c)
    (hnew : c ∉ done) (hne : e ≠ '\\') (hr : r.head? ≠ some 'n' ∧ r.head? ≠ some 't') :
    (spelled (escapeLess done) (behindLess done) r).head? ≠ some e := by
  intro hhead
  have hwrite (d : Char) :
      (escapeLess done d).head? = some '\\' ∨ escapeLess done d = [d] := by
    rcases escapeLess_cases done d with hself | ⟨x, hx, -⟩
    · exact .inr hself
    · exact .inl (by rw [hx]; rfl)
  rcases head_spelled hwrite (head_behindLess done) hhead with h | ⟨hfirst, hself⟩
  · exact hne h
  · rcases unescape?_cases hc with ⟨rfl, rfl⟩ | ⟨rfl, rfl⟩ | ⟨rfl, rfl⟩ | ⟨rfl, rfl⟩
    · rw [escapeLess_of_not_mem hnew] at hself
      cases hself
    · exact hne rfl
    · exact hr.1 hfirst
    · exact hr.2 hfirst

/-- Undoing one kind of escape in a spelling where backslashes are still escaped. -/
theorem undo_escape (done : List Char) {e c : Char} (hc : unescape? e = some c) (hnew : c ∉ done)
    (hslash : '\\' ∉ done) (hpair : ∀ x y, x = 'n' ∨ x = 't' →
      replace ['\\', e] [c] (behindLess done x ++ y) =
        behindLess (c :: done) x ++ replace ['\\', e] [c] y) (t : List Char) :
    replace ['\\', e] [c] (spelled (escapeLess done) (behindLess done) t) =
      spelled (escapeLess (c :: done)) (behindLess (c :: done)) t := by
  refine replace_spelled hpair (fun d r hr => ?_) t
  by_cases hd : d = c
  · subst hd
    have hescape : escape d = ['\\', e] := by
      rcases unescape?_cases hc with ⟨rfl, rfl⟩ | ⟨rfl, rfl⟩ | ⟨rfl, rfl⟩ | ⟨rfl, rfl⟩ <;> rfl
    rw [escapeLess_of_not_mem hnew, escapeLess_of_mem List.mem_cons_self, hescape]
    exact replace_pair _ _ _ _
  · rw [escapeLess_cons hd]
    by_cases hback : d = '\\'
    · -- The second backslash stands before what follows in the text, which is not what it escapes.
      subst hback
      have hne : e ≠ '\\' := by
        rintro rfl
        cases hc
        exact hd rfl
      have hnext := head_spelled_ne hc hnew hne (hr rfl)
      have hescape : escape '\\' = ['\\', '\\'] := rfl
      rw [escapeLess_of_not_mem hslash, hescape]
      simp only [List.cons_append, List.nil_append]
      rw [replace_other (fun _ => by simpa using Ne.symm hne), replace_other fun _ => hnext]
    · rcases escapeLess_cases done d with hself | ⟨x, hx, hxd⟩
      · rw [hself, List.singleton_append, List.singleton_append,
          replace_other fun h => absurd h hback]
      · have hxe : x ≠ e := by
          rintro rfl
          exact hd (Option.some.inj (hxd.symm.trans hc))
        have hxback : x ≠ '\\' := by
          rintro rfl
          exact hback (Option.some.inj hxd).symm
        rw [hx]
        simp only [List.cons_append, List.nil_append]
        rw [replace_other (fun _ => by simpa using hxe), replace_other fun h => absurd h hxback]

theorem flatMap_escape (t : List Char) :
    t.flatMap escape = spelled (escapeLess []) (behindLess []) t := by
  induction t using spelled_induction with
  | nil => rfl
  | pair x r hx ih =>
    rw [spelled_pair hx, ← ih]
    rcases hx with rfl | rfl <;> rfl
  | cons c r hr ih =>
    rw [spelled_cons hr, ← ih, List.flatMap_cons, escapeLess_of_not_mem (List.not_mem_nil)]

theorem spelled_done (t : List Char) :
    spelled (escapeLess ['\\', '\t', '\n', '"']) (behindLess ['\\', '\t', '\n', '"']) t =
      misread t := by
  have hwrite (c : Char) : escapeLess ['\\', '\t', '\n', '"'] c = [c] := by
    rcases escapeLess_cases ['\\', '\t', '\n', '"'] c with h | ⟨e, -, he⟩
    · exact h
    · apply escapeLess_of_mem
      rcases unescape?_cases he with ⟨-, rfl⟩ | ⟨-, rfl⟩ | ⟨-, rfl⟩ | ⟨-, rfl⟩ <;> decide
  have hbehind : behindLess ['\\', '\t', '\n', '"'] =
      fun c => ['\\', if c == 'n' then '\n' else '\t'] := by
    funext c
    unfold behindLess
    split <;> rfl
  rw [misread, hbehind, funext hwrite]

/-- What a prompt in quotes comes to. -/
theorem unwrapPrompt_quote (t : List Char) : unwrapPrompt (quote t) = misread t := by
  have hquotes := undo_escape [] (e := '"') rfl (by decide) (by decide)
    (fun x y hx => by rcases hx with rfl | rfl <;> rfl) t
  have hends := undo_escape ['"'] (e := 'n') rfl (by decide) (by decide)
    (fun x y hx => by rcases hx with rfl | rfl <;> rfl) t
  have htabs := undo_escape ['\n', '"'] (e := 't') rfl (by decide) (by decide)
    (fun x y hx => by rcases hx with rfl | rfl <;> rfl) t
  have hslashes := undo_escape ['\t', '\n', '"'] (e := '\\') rfl (by decide) (by decide)
    (fun x y hx => by rcases hx with rfl | rfl <;> rfl) t
  have hlast : (t.flatMap escape ++ ['"']).getLast? == some '"' := by
    rw [List.getLast?_concat]
    rfl
  unfold unwrapPrompt
  rw [quote, List.cons_append]
  simp only [hlast, if_true, List.dropLast_concat]
  rw [flatMap_escape, hquotes, hends, htabs, hslashes, spelled_done]

def Mistakable (t : List Char) : Prop := ['\\', 'n'] <:+: t ∨ ['\\', 't'] <:+: t

theorem mistakable_pair {x : Char} (hx : x = 'n' ∨ x = 't') (r : List Char) :
    Mistakable ('\\' :: x :: r) := by
  rcases hx with rfl | rfl
  · exact .inl ⟨[], r, rfl⟩
  · exact .inr ⟨[], r, rfl⟩

theorem mistakable_cons {c : Char} {r : List Char} (h : c = '\\' → Alone r) :
    Mistakable (c :: r) ↔ Mistakable r := by
  have hfront {x : Char} (hx : x = 'n' ∨ x = 't') : ¬['\\', x] <+: c :: r := by
    rintro ⟨w, hw⟩
    obtain ⟨rfl, rfl⟩ := List.cons_eq_cons.mp hw
    rcases hx with rfl | rfl
    · exact (h rfl).1 rfl
    · exact (h rfl).2 rfl
  simp only [Mistakable, List.infix_cons_iff, hfront (.inl rfl), hfront (.inr rfl), false_or]

theorem misread_eq_self_iff (t : List Char) : misread t = t ↔ ¬Mistakable t := by
  induction t using spelled_induction with
  | nil => simp [misread, spelled, Mistakable]
  | pair x r hx _ =>
    have hmistakable := mistakable_pair hx r
    rw [misread, spelled_pair hx]
    rcases hx with rfl | rfl <;> simpa using hmistakable
  | cons c r hr ih =>
    rw [mistakable_cons hr, ← ih, misread, spelled_cons hr]
    simp

def Draft.Instruction.quoted (t : List Char) : Draft.Instruction where
  text := quote t
  oneLine := oneLine_quote t
  trimmed := by
    have hlast : (quote t).getLast? = some '"' := getLast?_quote [] t
    exact trimWhile_eq_self rfl (by rw [hlast]; rfl)
  uncommented := stripComment_quote (w := []) nofun t

/-- A text that is written as a literal is assigned as it is, and asked as `misread` says: it
comes back only if it holds no backslash before an `n` or a `t`. -/
theorem quoted_prompt (x : Draft.Name) (t : List Char) :
    parse ("set ".toList ++ (x.text ++ (" = ".toList ++ quote t))) =
        .ok [.assign 1 (String.ofList x.text) (.lit (.text (String.ofList t)))] ∧
      readString (quote t).tail = .ok (t, (quote t).tail.length) ∧
      parse ("set ".toList ++ (x.text ++ (" from AI: ".toList ++ quote t))) =
        .ok [.ask 1 (String.ofList x.text) (String.ofList (misread t))] ∧
      unwrapPrompt (quote t) = misread t ∧
      (misread t = t ↔ ¬(['\\', 'n'] <:+: t ∨ ['\\', 't'] <:+: t)) := by
  refine ⟨?_, ?_, ?_, unwrapPrompt_quote t, misread_eq_self_iff t⟩
  · have hline := Draft.codeLine_assign x (.string (String.ofList t))
    simp only [Draft.Term.text, Draft.Term.tree, String.toList_ofList] at hline
    exact parse_of_codeLine hline
  · have hread := readString_escaped t []
    simpa [quote] using hread
  · have hparse := parse_of_codeLine (Draft.codeLine_question x (.quoted t))
    rwa [show (Draft.Instruction.quoted t).text = quote t from rfl, unwrapPrompt_quote] at hparse

end Script
end Scribe
