import Scribe.Proofs.Script.Exactness
import Scribe.Proofs.Script.LineTokens

/-!
# Instructions of a script

An instruction that a script asks to expand is what follows `from AI:` on one of its lines, so it
has no line end, however deep the statement stands.
-/
namespace Scribe.Script
open Text

inductive Occurs (x : Stmt) : Program → Prop
  | head {rest} : Occurs x (x :: rest)
  | tail {s rest} (h : Occurs x rest) : Occurs x (s :: rest)
  | arm {line arms last rest arm} (ha : arm ∈ arms) (h : Occurs x arm.2) :
      Occurs x (.choose line arms last :: rest)
  | last {line arms body rest} (h : Occurs x body) :
      Occurs x (.choose line arms (some body) :: rest)

/-- A token that is kept as it is written has no line end. -/
theorem oneLine_of_raw {source : List Char} {ts : List Token} (h : tokenize source = .ok ts)
    {t : Token} (ht : t ∈ ts) (hk : t.kind = .raw) : OneLine t.lexeme.toList := by
  rcases tokens_of_tokenize h t ht with hl | ⟨text, htext, hcode⟩
  · rw [Token.IsLayout, hk] at hl
    rcases hl with hl | hl | hl <;> cases hl
  · cases hcode with
    | lexeme _ hx hkind _ =>
      rw [hk] at hkind
      rcases lexemeAt_cases hx with hx | ⟨-, hx, -⟩ | hx | hx
      · simp [← hkind] at hx
      all_goals rw [← hkind] at hx; cases hx
    | raw hr _ hlex =>
      rw [hlex, String.toList_ofList]
      exact (oneLine_of_mem_lines htext).of_isInfix
        ((trim_isInfix _).trans (hr.isInfix.trans (codeOf_isPrefix text).isInfix))

def Phrase.InstructionsOneLine : Phrase → Prop
  | .simple s => ∀ line i, s = .expand line i → OneLine i.toList
  | .stmt s => ∀ line i, Occurs (.expand line i) [s] → OneLine i.toList
  | .stmts body => ∀ line i, Occurs (.expand line i) body → OneLine i.toList
  | .block body => ∀ line i, Occurs (.expand line i) body → OneLine i.toList
  | .elifs arms => ∀ arm ∈ arms, ∀ line i, Occurs (.expand line i) arm.2 → OneLine i.toList
  | .otherwise last => ∀ body, last = some body → ∀ line i, Occurs (.expand line i) body →
      OneLine i.toList
  | .program p => ∀ line i, Occurs (.expand line i) p → OneLine i.toList
  | _ => True

theorem occurs_simple {x s : Stmt} (h : Occurs x [s]) (hs : ∀ line arms last, s ≠ .choose line arms last) :
    s = x := by
  cases h with
  | head => rfl
  | tail h => cases h
  | arm _ _ => exact absurd rfl (hs _ _ _)
  | last _ => exact absurd rfl (hs _ _ _)

theorem Derives.instructionsOneLine {φ : Phrase} {ts : List Token} (h : Derives φ ts)
    (hraw : ∀ t ∈ ts, t.kind = .raw → OneLine t.lexeme.toList) : φ.InstructionsOneLine := by
  induction h with
  | expand ht hf hm hc hr =>
    intro line i hi
    cases hi
    exact hraw _ (by simp) hr.kind
  | selectModel | assign | assignAi | print => exact nofun
  | simpleLine h hn ih =>
    intro line i hi
    have hs := occurs_simple hi (by cases h <;> simp)
    exact ih (fun t ht => hraw t (by simp [ht])) line i hs
  | choose ht hcond hc hn hbody harms hlast _ ihbody iharms ihlast =>
    intro line i hi
    cases hi with
    | tail h => cases h
    | arm ha h =>
      rcases List.mem_cons.mp ha with rfl | ha
      · exact ihbody (fun t ht => hraw t (by simp [ht])) line i h
      · exact iharms (fun t ht => hraw t (by simp [ht])) _ ha line i h
    | last h => exact ihlast (fun t ht => hraw t (by simp [ht])) _ rfl line i h
  | elifNil => simp [Phrase.InstructionsOneLine]
  | elifCons ht hcond hc hn hbody harms _ ihbody iharms =>
    intro arm harm line i hi
    rcases List.mem_cons.mp harm with rfl | harm
    · exact ihbody (fun t ht => hraw t (by simp [ht])) line i hi
    · exact iharms (fun t ht => hraw t (by simp [ht])) arm harm line i hi
  | elseNone => exact nofun
  | elseSome ht hc hn hbody ih =>
    intro body hbody line i hi
    cases hbody
    exact ih (fun t ht => hraw t (by simp [ht])) line i hi
  | block hi h more hd ih => exact ih fun t ht => hraw t (by simp [ht])
  | stmtsNil => exact nofun
  | stmtsCons h tail ihs ihtail =>
    intro line i hi
    have hs := ihs fun t ht => hraw t (by simp [ht])
    cases hi with
    | head => exact hs line i .head
    | tail hi => exact ihtail (fun t ht => hraw t (by simp [ht])) line i hi
    | arm ha hin => exact hs line i (.arm ha hin)
    | last hin => exact hs line i (.last hin)
  | start _ ih => exact ih hraw
  | _ => trivial

theorem oneLine_of_expand {source : List Char} {p : Program} {line : Nat} {instruction : String}
    (hp : parse source = .ok p) (h : Occurs (.expand line instruction) p) :
    OneLine instruction.toList := by
  obtain ⟨tokens, htokens, hderives⟩ := derives_of_parse hp
  exact hderives.instructionsOneLine (fun t ht hk => oneLine_of_raw htokens ht hk) line _ h

end Scribe.Script
