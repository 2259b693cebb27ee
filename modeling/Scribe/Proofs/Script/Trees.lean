import Scribe.Eval
import Scribe.Proofs.Script.Instructions

/-!
# Trees that can be read

Every statement of a script that can be read is derived from tokens of its own, so what holds of
derived statements holds at every depth. Its expressions have no part that lacks a value by its
kind, its chains have at least two operands, and none of its blocks is empty.
-/
namespace Scribe.Script

def Stmt.Inner (q : List Stmt → Prop) : Stmt → Prop
  | .choose _ arms last => (∀ arm ∈ arms, q arm.2) ∧ ∀ body, last = some body → q body
  | _ => True

/-- Statements in order, where the blocks of a statement come before the statement. -/
@[elab_as_elim]
theorem Program.induction {motive : List Stmt → Prop} (nil : motive [])
    (cons : ∀ stmt rest, stmt.Inner motive → motive rest → motive (stmt :: rest))
    (p : List Stmt) : motive p := by
  have inner (stmt : Stmt) : stmt.Inner motive := by
    -- The motives are those of a statement, of arms, of a last block, of an arm and of a block.
    refine @Stmt.rec (Stmt.Inner motive) (fun arms => ∀ arm ∈ arms, motive arm.2)
      (fun last => ∀ body, last = some body → motive body) (fun arm => motive arm.2) motive
      ?_ ?_ ?_ ?_ ?_ ?_ ?_ ?_ ?_ ?_ ?_ ?_ ?_ stmt
    · exact fun _ _ => trivial
    · exact fun _ _ _ => trivial
    · exact fun _ _ _ => trivial
    · exact fun _ _ => trivial
    · exact fun _ _ => trivial
    · exact fun _ _ _ harms hlast => ⟨harms, hlast⟩
    · simp
    · intro arm rest harm hrest x hx
      rcases List.mem_cons.mp hx with rfl | hx
      · exact harm
      · exact hrest x hx
    · exact nofun
    · rintro body hbody _ ⟨⟩
      exact hbody
    · exact fun _ _ hbody => hbody
    · exact nil
    · exact cons
  induction p with
  | nil => exact nil
  | cons stmt rest ih => exact cons stmt rest (inner stmt) ih

def Phrase.Has (x : Stmt) : Phrase → Prop
  | .stmt s => Occurs x [s]
  | .stmts body | .block body | .program body => Occurs x body
  | .elifs arms => ∃ arm ∈ arms, Occurs x arm.2
  | .otherwise last => ∃ body, last = some body ∧ Occurs x body
  | _ => False

/-- Every statement that occurs in a phrase is derived from a part of its tokens. -/
theorem Derives.of_has {φ : Phrase} {ts : List Token} {x : Stmt} (h : Derives φ ts)
    (hx : φ.Has x) : ∃ us, us <:+: ts ∧ Derives (.stmt x) us := by
  induction h with
  | simpleLine h hn =>
    have hs := occurs_simple hx (by cases h <;> simp)
    subst hs
    exact ⟨_, List.infix_refl _, .simpleLine h hn⟩
  | @choose t c n condition body arms last ts us vs ws ht hcond hc hn hbody harms hlast _ ihbody
      iharms ihlast =>
    cases hx with
    | head => exact ⟨_, List.infix_refl _, .choose ht hcond hc hn hbody harms hlast⟩
    | tail hx => cases hx
    | arm ha hx =>
      rcases List.mem_cons.mp ha with rfl | ha
      · obtain ⟨ys, hys, hd⟩ := ihbody hx
        exact ⟨ys, hys.trans ⟨t :: ts ++ [c, n], vs ++ ws, by simp⟩, hd⟩
      · obtain ⟨ys, hys, hd⟩ := iharms ⟨_, ha, hx⟩
        exact ⟨ys, hys.trans ⟨t :: ts ++ c :: n :: us, ws, by simp⟩, hd⟩
    | last hx =>
      obtain ⟨ys, hys, hd⟩ := ihlast ⟨_, rfl, hx⟩
      exact ⟨ys, hys.trans ⟨t :: ts ++ c :: n :: us ++ vs, [], by simp⟩, hd⟩
  | elifNil => obtain ⟨arm, harm, -⟩ := hx; cases harm
  | @elifCons t c n condition body arms ts us vs ht hcond hc hn hbody harms _ ihbody iharms =>
    obtain ⟨arm, harm, hx⟩ := hx
    rcases List.mem_cons.mp harm with rfl | harm
    · obtain ⟨ys, hys, hd⟩ := ihbody hx
      exact ⟨ys, hys.trans ⟨t :: ts ++ [c, n], vs, by simp⟩, hd⟩
    · obtain ⟨ys, hys, hd⟩ := iharms ⟨arm, harm, hx⟩
      exact ⟨ys, hys.trans ⟨t :: ts ++ c :: n :: us, [], by simp⟩, hd⟩
  | elseNone => obtain ⟨body, hbody, -⟩ := hx; cases hbody
  | @elseSome t c n body ts ht hc hn hbody ih =>
    obtain ⟨_, ⟨⟩, hx⟩ := hx
    obtain ⟨ys, hys, hd⟩ := ih hx
    exact ⟨ys, hys.trans ⟨[t, c, n], [], by simp⟩, hd⟩
  | @block i d body ts hi h more hd ih =>
    obtain ⟨ys, hys, hd⟩ := ih hx
    exact ⟨ys, hys.trans ⟨[i], [d], by simp⟩, hd⟩
  | stmtsNil => cases hx
  | @stmtsCons s body ts us h tail ihs ihtail =>
    have ofHead (hx : Occurs x [s]) : ∃ vs, vs <:+: ts ++ us ∧ Derives (.stmt x) vs := by
      obtain ⟨ys, hys, hd⟩ := ihs hx
      exact ⟨ys, hys.trans (List.prefix_append _ _).isInfix, hd⟩
    cases hx with
    | head => exact ofHead .head
    | arm ha hin => exact ofHead (.arm ha hin)
    | last hin => exact ofHead (.last hin)
    | tail hx =>
      obtain ⟨ys, hys, hd⟩ := ihtail hx
      exact ⟨ys, hys.trans (List.suffix_append _ _).isInfix, hd⟩
  | start _ ih => exact ih hx
  | _ => exact hx.elim

/-- A statement starts with the token whose line it has. -/
theorem Derives.head_of_stmt {x : Stmt} {ts : List Token} (h : Derives (.stmt x) ts) :
    ∃ t us, ts = t :: us ∧ x.line = t.line := by
  cases h with
  | simpleLine h hn => cases h <;> exact ⟨_, _, rfl, rfl⟩
  | choose => exact ⟨_, _, rfl, rfl⟩

def Comparison.symbol : Comparison → String
  | .eq => "=="
  | .ne => "!="
  | .le => "<="
  | .ge => ">="
  | .lt => "<"
  | .gt => ">"

def Kind.symbol? : Kind → Option String
  | .arith op => some op.symbol
  | .compare op => some op.symbol
  | _ => none

theorem operator?_symbol {cs : List Char} {x : Lexeme} {symbol : String}
    (h : operator? cs = some x) (hs : x.kind.symbol? = some symbol) :
    String.ofList x.text = symbol := by
  unfold operator? at h
  split at h <;> cases h <;> cases hs <;> rfl

theorem lexemeAt_symbol {c : Char} {r : List Char} {x : Lexeme} {symbol : String}
    (h : lexemeAt c r = .ok x) (hs : x.kind.symbol? = some symbol) :
    String.ofList x.text = symbol := by
  cases lexemeAt_inv h with
  | string => cases hs
  | mark hmark =>
    simp only [List.mem_cons, Prod.mk.injEq, List.not_mem_nil, or_false] at hmark
    rcases hmark with ⟨-, rfl⟩ | ⟨-, rfl⟩ | ⟨-, rfl⟩ <;> cases hs
  | number => cases hs
  | @word w =>
    have hword := wordKind_ofWord w
    revert hs hword
    cases wordKind w <;> simp [Kind.symbol?, Kind.ofWord]
  | sign hop => exact operator?_symbol hop hs

/-- An operator of a script stands in it as it is written. -/
theorem symbol_of_tokenize {source : List Char} {ts : List Token} (h : tokenize source = .ok ts)
    {t : Token} (ht : t ∈ ts) {symbol : String} (hs : t.kind.symbol? = some symbol) :
    t.lexeme = symbol := by
  rcases tokens_of_tokenize h t ht with hl | ⟨text, -, hcode⟩
  · rcases hl with hl | hl | hl <;> rw [hl] at hs <;> cases hs
  · cases hcode with
    | lexeme _ hx hk hlex =>
      rw [hk] at hs
      rw [hlex, lexemeAt_symbol hx hs]
    | raw _ hk _ =>
      rw [hk] at hs
      cases hs

/-- Every part of an expression has a value by its kind, a comparison has at least two operands,
and so have a conjunction and a disjunction. -/
inductive Expr.WellFormed : Expr → Prop
  | lit {value} : WellFormed (.lit value)
  | var {name} : WellFormed (.var name)
  | arith {op left right} (hl : left.WellFormed) (hr : right.WellFormed) :
      WellFormed (.arith op left right)
  | neg {operand} (h : operand.WellFormed) : WellFormed (.neg operand)
  | compare {first rest} (hfirst : first.WellFormed) (hrest : ∀ p ∈ rest, p.2.WellFormed)
      (more : rest ≠ []) : WellFormed (.compare first rest)
  | all {operands} (h : ∀ e ∈ operands, e.WellFormed) (more : 2 ≤ operands.length) :
      WellFormed (.all operands)
  | any {operands} (h : ∀ e ∈ operands, e.WellFormed) (more : 2 ≤ operands.length) :
      WellFormed (.any operands)

/-- The expressions of a statement are well formed, it has an arm if it chooses, and its blocks
are not empty. -/
def Stmt.WellFormed : Stmt → Prop
  | .print _ e | .assign _ _ e | .select _ e => e.WellFormed
  | .ask .. | .expand .. => True
  | .choose _ arms last =>
    arms ≠ [] ∧ (∀ arm ∈ arms, arm.1.WellFormed ∧ arm.2 ≠ []) ∧ last ≠ some []

def Stmt.exprs : Stmt → List Expr
  | .print _ e | .assign _ _ e | .select _ e => [e]
  | .ask .. | .expand .. => []
  | .choose _ arms _ => arms.map Prod.fst

theorem Stmt.WellFormed.exprs {x : Stmt} (h : x.WellFormed) : ∀ e ∈ x.exprs, e.WellFormed := by
  cases x with
  | print | assign | select => exact List.forall_mem_singleton.mpr h
  | ask | expand => exact nofun
  | choose line arms last =>
    intro e he
    obtain ⟨arm, harm, rfl⟩ := List.mem_map.mp he
    exact (h.2.1 arm harm).1

def Phrase.WellFormed : Phrase → Prop
  | .expr _ e => e.WellFormed
  | .orTail es | .andTail es => ∀ e ∈ es, e.WellFormed
  | .compareTail rest => ∀ p ∈ rest, p.2.WellFormed
  | .simple s | .stmt s => s.WellFormed
  | .block body => body ≠ []
  | .elifs arms => ∀ arm ∈ arms, arm.1.WellFormed ∧ arm.2 ≠ []
  | .otherwise last => last ≠ some []
  | .stmts _ | .program _ => True

theorem Derives.wellFormed {φ : Phrase} {ts : List Token} (h : Derives φ ts) : φ.WellFormed := by
  have htwo {e : Expr} {es : List Expr} (more : es ≠ []) : 2 ≤ (e :: es).length := by
    have hpos := List.length_pos_iff.mpr more
    rw [List.length_cons]
    omega
  induction h with
  | orMore h tail more ih ihtail =>
    exact .any (List.forall_mem_cons.mpr ⟨ih, ihtail⟩) (htwo more)
  | andMore h tail more ih ihtail =>
    exact .all (List.forall_mem_cons.mpr ⟨ih, ihtail⟩) (htwo more)
  | orNil | andNil | compareNil | elifNil => exact nofun
  | orCons ht h tail ih ihtail | andCons ht h tail ih ihtail =>
    exact List.forall_mem_cons.mpr ⟨ih, ihtail⟩
  | compareCons ht hop h tail ih ihtail => exact List.forall_mem_cons.mpr ⟨ih, ihtail⟩
  | compareMore h tail more ih ihtail => exact .compare ih ihtail more
  | sumMore left ht hop right ihl ihr | productMore left ht hop right ihl ihr =>
    exact .arith ihl ihr
  | neg ht h ih => exact .neg ih
  | number | string | trueLit | falseLit | nullLit => exact .lit
  | var => exact .var
  | choose ht hcond hc hn hbody harms hlast ihcond ihbody iharms ihlast =>
    exact ⟨by simp, List.forall_mem_cons.mpr ⟨⟨ihcond, ihbody⟩, iharms⟩, ihlast⟩
  | elifCons ht hcond hc hn hbody harms ihcond ihbody iharms =>
    exact List.forall_mem_cons.mpr ⟨⟨ihcond, ihbody⟩, iharms⟩
  | elseNone => exact nofun
  | elseSome ht hc hn hbody ih => simpa [Phrase.WellFormed] using ih
  | block hi h more hd => exact more
  | assignAi | expand | stmtsNil | stmtsCons | start => trivial
  | orOne _ ih | andOne _ ih | compareOne _ ih | sumOne _ ih | productOne _ ih | unaryAtom _ ih
  | simpleLine _ _ ih => exact ih
  | paren hl h hr ih => exact ih
  | selectModel ht hc h ih => exact ih
  | assign ht hn ha h ih => exact ih
  | print ht h ih => exact ih

/-- Every statement of a script that can be read is well formed, at every depth. -/
theorem wellFormed_of_parse {source : List Char} {p : Program} (h : parse source = .ok p)
    {x : Stmt} (hx : Occurs x p) : x.WellFormed := by
  obtain ⟨tokens, -, hd⟩ := derives_of_parse h
  obtain ⟨us, -, hstmt⟩ := hd.of_has hx
  exact hstmt.wellFormed

end Scribe.Script
