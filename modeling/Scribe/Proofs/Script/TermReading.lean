import Scribe.Proofs.Instruction.OneLine
import Scribe.Proofs.Pattern.Words
import Scribe.Proofs.Script.Drafts
import Scribe.Proofs.Script.Literals

/-!
# Reading expressions that were written

A written expression is cut into the tokens of an atom of the grammar, whatever follows it on the
line. It is put together from pieces: a lexeme in front of a piece, two pieces in a row, and a
piece in parentheses are pieces again, so there is one lemma for each way to write an expression.
-/
namespace Scribe.Script
open Text

def Follows (rest : List Char) : Prop := ∀ c, rest.head? = some c → c ∈ [' ', ')', ':']

/-- A text that is code to its end and is cut into tokens with a property. Behind `from AI` a text
would be handed over as it is written. -/
structure Piece (line : Nat) (w : List Char) (P : List Token → Prop) : Prop where
  oneLine : OneLine w
  ended : ∃ c, w.getLast? = some c ∧ isBlank c = false
  code : ∀ rest, stripCommentFrom false (w ++ rest) = w ++ stripCommentFrom false rest
  cut : ∀ recent column rest, callsModel recent = false → Follows rest →
    ∃ ts recent' column', P ts ∧ callsModel recent' = false ∧
      lexFrom line recent column 0 (w ++ rest) = (lexFrom line recent' column' 0 rest).map (ts ++ ·)

structure Lead (u : List Char) (k : Kind) (x : List Char) : Prop where
  oneLine : OneLine u
  code : ∀ rest, stripCommentFrom false (u ++ rest) = u ++ stripCommentFrom false rest
  cut : ∀ line recent column rest, lexFrom line recent column 0 (u ++ rest) =
    (lexFrom line (k :: recent) (column + u.length) 0 rest).map
      (⟨k, String.ofList x, line, column⟩ :: ·)
  calls : k ≠ .keyword .ai

theorem map_map {ε α β γ : Type} (f : α → β) (g : β → γ) (x : Except ε α) :
    (x.map f).map g = x.map fun a => g (f a) := by
  cases x <;> rfl

theorem callsModel_cons {k : Kind} (hk : k ≠ .keyword .ai) (recent : List Kind) :
    callsModel (k :: recent) = false := by
  unfold callsModel
  split
  · rename_i heq
    exact absurd (List.cons.inj heq).1 hk
  · rfl

section Pieces
variable {line : Nat} {w v u x : List Char} {k : Kind} {P Q : List Token → Prop}

theorem Piece.imp (h : Piece line w P) (f : ∀ ts, P ts → Q ts) : Piece line w Q where
  oneLine := h.oneLine
  ended := h.ended
  code := h.code
  cut recent column rest hrecent hrest := by
    obtain ⟨ts, recent', column', hts, hlex⟩ := h.cut recent column rest hrecent hrest
    exact ⟨ts, recent', column', f ts hts, hlex⟩

theorem Piece.ended_append (h : Piece line v Q) (u : List Char) :
    ∃ c, (u ++ v).getLast? = some c ∧ isBlank c = false := by
  obtain ⟨c, hc, hblank⟩ := h.ended
  exact ⟨c, by rw [List.getLast?_append, hc]; rfl, hblank⟩

theorem Piece.follows (h : Piece line v Q) (hv : Follows v) (rest : List Char) :
    Follows (v ++ rest) := by
  obtain ⟨c, hc, -⟩ := h.ended
  cases v with
  | nil => cases hc
  | cons d r => exact hv

theorem Piece.append (h : Piece line w P) (h' : Piece line v Q) (hv : Follows v) :
    Piece line (w ++ v) fun ts => ∃ us vs, ts = us ++ vs ∧ P us ∧ Q vs where
  oneLine := oneLine_append.mpr ⟨h.oneLine, h'.oneLine⟩
  ended := h'.ended_append w
  code rest := by rw [List.append_assoc, h.code, h'.code, List.append_assoc]
  cut recent column rest hrecent hrest := by
    obtain ⟨us, recent₁, column₁, hus, hrecent₁, hw⟩ :=
      h.cut recent column (v ++ rest) hrecent (h'.follows hv rest)
    obtain ⟨vs, recent₂, column₂, hvs, hcalls, hv⟩ := h'.cut recent₁ column₁ rest hrecent₁ hrest
    refine ⟨us ++ vs, recent₂, column₂, ⟨us, vs, rfl, hus, hvs⟩, hcalls, ?_⟩
    rw [List.append_assoc, hw, hv, map_map]
    simp only [List.append_assoc]

theorem Piece.space (h : Piece line w P) : Piece line (' ' :: w) P where
  oneLine := oneLine_cons.mpr ⟨by decide, h.oneLine⟩
  ended := h.ended_append [' ']
  code rest := by
    have hspace := stripCommentFrom_append (by decide : ∀ c ∈ [' '], _) (w ++ rest)
    rw [h.code] at hspace
    exact hspace
  cut recent column rest hrecent hrest := by
    obtain ⟨ts, recent', column', hts, hcalls, hlex⟩ :=
      h.cut recent (column + 1) rest hrecent hrest
    exact ⟨ts, recent', column', hts, hcalls, by rw [List.cons_append, lexFrom_blank, hlex]⟩

theorem Lead.piece (h : Lead u k x) (hw : Piece line w P) :
    Piece line (u ++ w) fun ts => ∃ t us, ts = t :: us ∧ t.kind = k ∧ t.line = line ∧
      t.lexeme = String.ofList x ∧ P us where
  oneLine := oneLine_append.mpr ⟨h.oneLine, hw.oneLine⟩
  ended := hw.ended_append u
  code rest := by rw [List.append_assoc, h.code, hw.code, List.append_assoc]
  cut recent column rest _ hrest := by
    obtain ⟨us, recent', column', hus, hcalls, hlex⟩ :=
      hw.cut (k :: recent) (column + u.length) rest (callsModel_cons h.calls recent) hrest
    refine ⟨⟨k, String.ofList x, line, column⟩ :: us, recent', column',
      ⟨_, us, rfl, rfl, rfl, rfl, hus⟩, hcalls, ?_⟩
    rw [List.append_assoc, h.cut, hlex, map_map]
    rfl

/-- A lexeme that is written as it stands for a token. -/
theorem lexFrom_lexeme {column : Nat} {recent : List Kind} {c : Char} {r y : List Char}
    (hspace : c ≠ ' ') (htab : c ≠ '\t')
    (hx : lexemeAt c (r ++ y) = .ok ⟨k, x, (c :: r).length⟩) (hk : k ≠ .colon) :
    lexFrom line recent column 0 (c :: r ++ y) =
      (lexFrom line (k :: recent) (column + (c :: r).length) 0 y).map
        (⟨k, String.ofList x, line, column⟩ :: ·) := by
  rw [List.cons_append, lexFrom_cons hspace htab hx hk]
  simp only [List.length_cons, Nat.add_sub_cancel, lexFrom_skip]
  rw [Nat.add_assoc, Nat.add_comm 1]

/-- A lexeme of its own is a piece. -/
theorem piece_lexeme {c : Char} {r : List Char} (hline : OneLine (c :: r))
    (hended : ∃ d, (c :: r).getLast? = some d ∧ isBlank d = false)
    (hcode : ∀ rest,
      stripCommentFrom false (c :: r ++ rest) = c :: r ++ stripCommentFrom false rest)
    (hspace : c ≠ ' ') (htab : c ≠ '\t')
    (hx : ∀ rest, Follows rest → lexemeAt c (r ++ rest) = .ok ⟨k, x, (c :: r).length⟩)
    (hcolon : k ≠ .colon) (hai : k ≠ .keyword .ai) :
    Piece line (c :: r) fun ts => ∃ t, ts = [t] ∧ t.kind = k ∧ t.lexeme = String.ofList x where
  oneLine := hline
  ended := hended
  code := hcode
  cut recent _ rest _ hrest :=
    ⟨_, _, _, ⟨_, rfl, rfl, rfl⟩, callsModel_cons hai recent,
      lexFrom_lexeme hspace htab (hx rest hrest) hcolon⟩

/-- A lexeme and the blanks behind it. -/
theorem lead_lexeme {c : Char} {r g : List Char} (hg : g = [] ∨ g = [' '])
    (hline : OneLine (c :: r))
    (hcode : ∀ rest, stripCommentFrom false (c :: r ++ (g ++ rest)) =
      c :: r ++ (g ++ stripCommentFrom false rest))
    (hspace : c ≠ ' ') (htab : c ≠ '\t')
    (hx : ∀ rest, lexemeAt c (r ++ (g ++ rest)) = .ok ⟨k, x, (c :: r).length⟩)
    (hcolon : k ≠ .colon) (hai : k ≠ .keyword .ai) : Lead (c :: r ++ g) k x where
  oneLine := by
    rcases hg with rfl | rfl
    · simpa using hline
    · exact oneLine_append.mpr ⟨hline, by decide⟩
  code rest := by rw [List.append_assoc, hcode, List.append_assoc]
  cut line recent column rest := by
    rw [List.append_assoc, lexFrom_lexeme hspace htab (hx rest) hcolon]
    rcases hg with rfl | rfl
    · rw [List.nil_append, List.append_nil]
    · rw [List.singleton_append, lexFrom_blank, List.length_append, Nat.add_assoc]
      rfl
  calls := hai

/-- A piece in parentheses. -/
theorem Piece.parens (h : Piece line w P) : Piece line ('(' :: w ++ [')']) fun ts =>
    ∃ l us r, ts = l :: us ++ [r] ∧ l.Is .openParen ∧ P us ∧ r.Is .closeParen := by
  have hopen : Lead ['('] .openParen ['('] :=
    lead_lexeme (c := '(') (r := []) (.inl rfl) (by decide)
      (fun rest => stripCommentFrom_append (by decide) _) (by decide) (by decide) (fun rest => rfl)
      (by decide) (by decide)
  have hclose : Piece line [')'] fun ts => ∃ t, ts = [t] ∧ t.kind = .closeParen ∧
      t.lexeme = String.ofList [')'] :=
    piece_lexeme (by decide) ⟨')', rfl, by decide⟩
      (fun rest => stripCommentFrom_append (by decide) _) (by decide) (by decide)
      (fun rest _ => rfl) (by decide) (by decide)
  have hfollows : Follows [')'] := by
    rintro c ⟨⟩
    decide
  refine (hopen.piece (h.append hclose hfollows)).imp ?_
  rintro ts ⟨l, vs, rfl, hl, -, -, us, rs, rfl, hus, r, rfl, hr, -⟩
  exact ⟨l, us, r, rfl, Token.is_of_kind hl, hus, Token.is_of_kind hr⟩

end Pieces

/-! ## Lexemes -/

theorem follows_word {rest : List Char} (h : Follows rest) :
    rest.head?.any isWordChar = false := by
  cases hrest : rest.head? with
  | none => rfl
  | some c =>
    have hnone : ∀ d ∈ [' ', ')', ':'], isWordChar d = false := by decide
    exact hnone c (h c hrest)

/-- The last character of a word is not blank. -/
theorem ended_of_isWord {w : List Char} (h : IsWord w) (hne : w ≠ []) :
    ∃ c, w.getLast? = some c ∧ isBlank c = false :=
  ⟨w.getLast hne, List.getLast?_eq_some_getLast hne,
    isBlank_of_isWordChar (h _ (List.getLast_mem hne))⟩

theorem piece_word {line : Nat} {c : Char} {r : List Char} (hw : IsWord (c :: r))
    (hd : isDigit c = false) (hai : wordKind (c :: r) ≠ .keyword .ai) :
    Piece line (c :: r) fun ts => ∃ t, ts = [t] ∧ t.kind = wordKind (c :: r) ∧
      t.lexeme = String.ofList (c :: r) := by
  obtain ⟨hspace, htab⟩ := head_of_isWord hw
  exact piece_lexeme hw.oneLine (ended_of_isWord hw (by simp)) (stripCommentFrom_append hw.plain)
    hspace htab (fun rest hrest => lexemeAt_word hw hd (follows_word hrest)) (wordKind_ne_colon _) hai

theorem lead_word {c : Char} {r : List Char} (hw : IsWord (c :: r)) (hd : isDigit c = false)
    (hai : wordKind (c :: r) ≠ .keyword .ai) :
    Lead (c :: r ++ [' ']) (wordKind (c :: r)) (c :: r) := by
  obtain ⟨hspace, htab⟩ := head_of_isWord hw
  refine lead_lexeme (.inr rfl) hw.oneLine (fun rest => ?_) hspace htab
    (fun rest => lexemeAt_word hw hd rfl) (wordKind_ne_colon _) hai
  have hgap := stripCommentFrom_append (by decide : ∀ c ∈ [' '], _) rest
  rw [stripCommentFrom_append hw.plain, hgap]

theorem lead_arith (op : Arith) :
    Lead (op.symbol.toList ++ [' ']) (.arith op) op.symbol.toList := by
  cases op <;> exact lead_lexeme (.inr rfl) (by decide) (fun rest => rfl) (by decide) (by decide)
    (fun rest => rfl) (by decide) (by decide)

theorem lead_compare (op : Comparison) :
    Lead (op.symbol.toList ++ [' ']) (.compare op) op.symbol.toList := by
  cases op <;> exact lead_lexeme (.inr rfl) (by decide) (fun rest => rfl) (by decide) (by decide)
    (fun rest => rfl) (by decide) (by decide)

namespace Draft
variable {line : Nat}

/-- Digits end where something else follows. -/
theorem span_digits {ds y : List Char} (hds : ∀ c ∈ ds, isDigit c = true)
    (hy : y.head?.any isDigit = false) :
    (ds ++ y).takeWhile isDigit = ds ∧ (ds ++ y).dropWhile isDigit = y := by
  rw [List.takeWhile_append_of_pos hds, List.dropWhile_append_of_pos hds]
  cases y with
  | nil => simp
  | cons c r =>
    have hc : isDigit c = false := hy
    simp [hc]

theorem takeNumber_text (n : Numeral) {rest : List Char} (h : Follows rest) :
    takeNumber (n.text ++ rest) = n.text := by
  have hrest : rest.head?.any isDigit = false ∧ rest.head? ≠ some '.' := by
    cases hhead : rest.head? with
    | none => exact ⟨rfl, nofun⟩
    | some c =>
      have hnone : ∀ d ∈ [' ', ')', ':'], isDigit d = false ∧ d ≠ '.' := by decide
      obtain ⟨hd, hpoint⟩ := hnone c (h c hhead)
      exact ⟨hd, by simpa using hpoint⟩
  obtain ⟨first, whole, part, hwhole, hpart⟩ := n
  cases part with
  | nil =>
    obtain ⟨htake, hdrop⟩ := span_digits hwhole hrest.1
    simp only [Numeral.text, takeNumber, List.isEmpty_nil, if_true, List.append_nil, htake, hdrop]
    split
    · exact absurd rfl hrest.2
    · rfl
  | cons d part =>
    obtain ⟨htake, hdrop⟩ := span_digits (y := '.' :: (d :: part ++ rest)) hwhole rfl
    obtain ⟨hpart, -⟩ := span_digits hpart hrest.1
    simp only [Numeral.text, takeNumber, List.isEmpty_cons, Bool.false_eq_true, if_false,
      List.append_assoc, List.cons_append] at htake hdrop hpart ⊢
    simp only [htake, hdrop, hpart, List.isEmpty_cons, Bool.false_eq_true, if_false]
    rfl

theorem Numeral.read?_text (n : Numeral) : Decimal.read? n.text = some n.value := by
  have hfirst : isDigit n.first = true := n.whole_digits _ (by simp)
  have hsome := read?_takeNumber (n.whole ++ if n.part.isEmpty then [] else '.' :: n.part) hfirst
  have htext := @takeNumber_text n [] nofun
  rw [List.append_nil] at htext
  rw [show n.first :: (n.whole ++ if n.part.isEmpty then [] else '.' :: n.part) = n.text from rfl,
    htext] at hsome
  obtain ⟨x, hx⟩ := Option.isSome_iff_exists.mp hsome
  rw [Numeral.value, hx]
  rfl

theorem isDigit_text (n : Numeral) : ∀ c ∈ n.text, isDigit c = true ∨ c = '.' := by
  intro c hc
  unfold Numeral.text at hc
  rcases List.mem_append.mp hc with hc | hc
  · exact .inl (n.whole_digits c hc)
  · split at hc
    · cases hc
    · rcases List.mem_cons.mp hc with rfl | hc
      · exact .inr rfl
      · exact .inl (n.part_digits c hc)

theorem piece_numeral (n : Numeral) :
    Piece line n.text (Derives (.expr .atom (.lit (.number n.value)))) := by
  have hchar {p : Char → Prop} (hdigit : ∀ c, isDigit c = true → p c) (hpoint : p '.') :
      ∀ c ∈ n.text, p c := by
    intro c hc
    rcases isDigit_text n c hc with hd | rfl
    · exact hdigit c hd
    · exact hpoint
  have hfirst : isDigit n.first = true := n.whole_digits _ (by simp)
  have hne {d : Char} (hd : isDigit d = false) : ∀ c, isDigit c = true → c ≠ d := by
    rintro c hc rfl
    rw [hc] at hd
    cases hd
  have hlast : ∃ c, n.text.getLast? = some c ∧ isBlank c = false := by
    have hnil : n.text ≠ [] := List.cons_ne_nil _ _
    exact ⟨n.text.getLast hnil, List.getLast?_eq_some_getLast hnil,
      hchar (fun c hc => isBlank_of_isDigit hc) (by decide) _ (List.getLast_mem hnil)⟩
  have hlexeme {rest : List Char} (hrest : Follows rest) :
      lexemeAt n.first (n.text.tail ++ rest) = .ok ⟨.number, n.text, n.text.length⟩ := by
    have htext : takeNumber (n.first :: (n.text.tail ++ rest)) = n.text := takeNumber_text n hrest
    rw [lexemeAt_digit hfirst, htext]
  have hpiece : Piece line n.text fun ts => ∃ t, ts = [t] ∧ t.kind = .number ∧
      t.lexeme = String.ofList n.text :=
    piece_lexeme (hchar (hne (by decide)) (by decide)) hlast
      (stripCommentFrom_append (hchar (fun c hc =>
        ⟨hne (by decide) c hc, hne (by decide) c hc, hne (by decide) c hc⟩) (by decide)))
      (hne (by decide) _ hfirst) (hne (by decide) _ hfirst) (fun rest hrest => hlexeme hrest)
      (by decide) (by decide)
  refine hpiece.imp ?_
  rintro ts ⟨t, rfl, hk, ht⟩
  refine .number (Token.is_of_kind hk) ?_
  rw [ht, String.toList_ofList]
  exact n.read?_text

theorem piece_quote (s : String) :
    Piece line (quote s.toList) (Derives (.expr .atom (.lit (.text s)))) := by
  have hquote : quote s.toList = '"' :: (s.toList.flatMap escape ++ ['"']) := rfl
  have hlexeme (rest : List Char) : lexemeAt '"' (s.toList.flatMap escape ++ ['"'] ++ rest) =
      .ok ⟨.string, s.toList, (quote s.toList).length⟩ := by
    unfold lexemeAt
    rw [List.append_assoc, List.singleton_append, readString_escaped, hquote]
    simp [Except.map]
  have hpiece : Piece line (quote s.toList) fun ts => ∃ t, ts = [t] ∧ t.kind = .string ∧
      t.lexeme = String.ofList s.toList := by
    rw [hquote]
    refine piece_lexeme (oneLine_quote s.toList) ⟨'"', ?_, by decide⟩ (fun rest => ?_) (by decide)
      (by decide) (fun rest _ => hlexeme rest) (by decide) (by decide)
    · rw [← List.cons_append, List.getLast?_concat]
    · rw [List.cons_append, List.append_assoc, List.singleton_append, stripCommentFrom,
        stripCommentFrom_escaped, List.cons_append, List.append_assoc, List.singleton_append]
  refine hpiece.imp ?_
  rintro ts ⟨t, rfl, hk, ht⟩
  rw [String.ofList_toList] at ht
  rw [← ht]
  exact .string (Token.is_of_kind hk)

theorem piece_name (x : Name) :
    Piece line x.text (Derives (.expr .atom (.var (String.ofList x.text)))) := by
  have hai : wordKind (x.first :: x.rest) ≠ .keyword .ai := by
    rw [x.free]
    decide
  refine (piece_word x.word x.start hai).imp ?_
  rintro ts ⟨t, rfl, hk, ht⟩
  rw [Name.text, ← ht]
  exact .var (Token.is_of_kind (hk.trans x.free))

/-! ## Expressions -/

/-- An atom stands where an expression of any level may stand. -/
theorem sum_of_atom {e : Expr} {ts : List Token} (h : Derives (.expr .atom e) ts) :
    Derives (.expr .sum e) ts := .sumOne (.productOne (.unaryAtom h))

theorem orTest_of_sum {e : Expr} {ts : List Token} (h : Derives (.expr .sum e) ts) :
    Derives (.expr .orTest e) ts := .orOne (.andOne (.compareOne h))

theorem orTest_of_atom {e : Expr} {ts : List Token} (h : Derives (.expr .atom e) ts) :
    Derives (.expr .orTest e) ts := orTest_of_sum (sum_of_atom h)

theorem derives_arith {op : Arith} {l r : Expr} {t : Token} {ts us : List Token}
    (hl : Derives (.expr .atom l) ts) (ht : t.kind = .arith op) (hr : Derives (.expr .atom r) us) :
    Derives (.expr .sum (.arith op l r)) (ts ++ t :: us) := by
  have hleft : Derives (.expr .product l) ts := .productOne (.unaryAtom hl)
  have hright : Derives (.expr .unary r) us := .unaryAtom hr
  cases op with
  | add => exact .sumMore (.sumOne hleft) (.inl (Token.is_of_kind ht)) ht (.productOne hright)
  | sub => exact .sumMore (.sumOne hleft) (.inr (Token.is_of_kind ht)) ht (.productOne hright)
  | _ => exact .sumOne (.productMore hleft (Token.is_of_kind ht) ht hright)

/-- A piece that is an expression is an atom in parentheses. -/
theorem piece_parens {w : List Char} {e : Expr} (h : Piece line w (Derives (.expr .orTest e))) :
    Piece line ('(' :: w ++ [')']) (Derives (.expr .atom e)) := by
  refine h.parens.imp ?_
  rintro ts ⟨l, us, r, rfl, hl, hus, hr⟩
  exact .paren hl hus hr

theorem follows_space (w : List Char) : Follows (' ' :: w) := by
  rintro c ⟨⟩
  decide

/-- A further operand, behind the lexeme that joins it. -/
theorem piece_joined {u w x : List Char} {k : Kind} {P : List Token → Prop}
    (hlead : Lead (u ++ [' ']) k x) (hw : Piece line w P) :
    Piece line (' ' :: (u ++ ' ' :: w)) fun ts => ∃ t us, ts = t :: us ∧ t.kind = k ∧ P us := by
  have h := (hlead.piece hw).space
  rw [List.append_assoc] at h
  refine h.imp ?_
  rintro ts ⟨t, us, rfl, hk, -, -, hus⟩
  exact ⟨t, us, rfl, hk, hus⟩

theorem piece_joined_cons {u w v x : List Char} {k : Kind} {P Q : List Token → Prop}
    (hlead : Lead (u ++ [' ']) k x) (hw : Piece line w P) (hv : Piece line v Q) (hf : Follows v) :
    Piece line (' ' :: (u ++ ' ' :: w) ++ v) fun ts => ∃ t us vs, ts = t :: us ++ vs ∧ t.kind = k ∧
      P us ∧ Q vs := by
  refine ((piece_joined hlead hw).append hv hf).imp ?_
  rintro ts ⟨_, vs, rfl, ⟨t, us, rfl, hk, hus⟩, hvs⟩
  exact ⟨t, us, vs, rfl, hk, hus, hvs⟩

theorem follows_operands (word : List Char) (es : Operands) : Follows (es.text word) := by
  cases es <;> exact follows_space _

theorem follows_comparisons (es : Comparisons) : Follows es.text := by
  cases es <;> exact follows_space _

theorem trees_ne_nil (es : Operands) : es.trees ≠ [] := by
  cases es <;> simp [Operands.trees]

theorem comparisonTrees_ne_nil (es : Comparisons) : es.trees ≠ [] := by
  cases es <;> simp [Comparisons.trees]

/-- A chain of comparisons is an expression without parentheses as well. -/
theorem piece_comparison {w : List Char} {e : Expr} {rest : Comparisons}
    (hw : Piece line w (Derives (.expr .atom e)))
    (hrest : Piece line rest.text (Derives (.compareTail rest.trees))) :
    Piece line (w ++ rest.text) (Derives (.expr .orTest (.compare e rest.trees))) := by
  refine (hw.append hrest (follows_comparisons rest)).imp ?_
  rintro ts ⟨us, vs, rfl, hus, hvs⟩
  exact .orOne (.andOne (.compareMore (sum_of_atom hus) hvs (comparisonTrees_ne_nil rest)))

theorem lead_and : Lead ("and".toList ++ [' ']) (.keyword .andWord) "and".toList :=
  lead_word (c := 'a') (r := ['n', 'd']) (by decide) (by decide) (by decide)

theorem lead_or : Lead ("or".toList ++ [' ']) (.keyword .orWord) "or".toList :=
  lead_word (c := 'o') (r := ['r']) (by decide) (by decide) (by decide)

theorem lead_minus : Lead ['-'] (.arith .sub) ['-'] :=
  lead_lexeme (c := '-') (r := []) (.inl rfl) (by decide)
    (fun rest => stripCommentFrom_append (by decide) _) (by decide) (by decide) (fun rest => rfl)
    (by decide) (by decide)

mutual

/-- A written expression is read as an atom. -/
theorem Term.piece : (e : Term) → Piece line e.text (Derives (.expr .atom e.tree))
  | .number n => piece_numeral n
  | .string s => piece_quote s
  | .bool true =>
    (piece_word (c := 't') (r := ['r', 'u', 'e']) (by decide) (by decide) (by decide)).imp (by
      rintro ts ⟨t, rfl, hk, -⟩
      exact .trueLit (Token.is_of_kind hk))
  | .bool false =>
    (piece_word (c := 'f') (r := ['a', 'l', 's', 'e']) (by decide) (by decide) (by decide)).imp (by
      rintro ts ⟨t, rfl, hk, -⟩
      exact .falseLit (Token.is_of_kind hk))
  | .null =>
    (piece_word (c := 'n') (r := ['u', 'l', 'l']) (by decide) (by decide) (by decide)).imp (by
      rintro ts ⟨t, rfl, hk, -⟩
      exact .nullLit (Token.is_of_kind hk))
  | .var x => piece_name x
  | .arith op left right => by
    have hright := piece_joined (lead_arith op) right.piece
    refine piece_parens ((left.piece.append hright (follows_space _)).imp ?_)
    rintro ts ⟨us, _, rfl, hus, t, vs, rfl, ht, hvs⟩
    exact orTest_of_sum (derives_arith hus ht hvs)
  | .neg operand => by
    refine piece_parens ((lead_minus.piece operand.piece).imp ?_)
    rintro ts ⟨t, us, rfl, ht, -, -, hus⟩
    exact orTest_of_sum (.sumOne (.productOne (.neg (Token.is_of_kind ht) (.unaryAtom hus))))
  | .compare first rest => piece_parens (piece_comparison first.piece rest.piece)
  | .all first rest => by
    refine piece_parens ((first.piece.append rest.piece_all (follows_operands _ rest)).imp ?_)
    rintro ts ⟨us, vs, rfl, hus, hvs⟩
    exact .orOne (.andMore (.compareOne (sum_of_atom hus)) hvs (trees_ne_nil rest))
  | .any first rest => by
    refine piece_parens ((first.piece.append rest.piece_any (follows_operands _ rest)).imp ?_)
    rintro ts ⟨us, vs, rfl, hus, hvs⟩
    exact .orMore (.andOne (.compareOne (sum_of_atom hus))) hvs (trees_ne_nil rest)

theorem Operands.piece_all :
    (es : Operands) → Piece line (es.text "and".toList) (Derives (.andTail es.trees))
  | .one operand => by
    refine (piece_joined lead_and operand.piece).imp ?_
    rintro ts ⟨t, us, rfl, ht, hus⟩
    have h := Derives.andCons (Token.is_of_kind ht) (.compareOne (sum_of_atom hus)) .andNil
    rwa [List.append_nil] at h
  | .cons operand rest => by
    refine (piece_joined_cons lead_and operand.piece rest.piece_all
      (follows_operands _ rest)).imp ?_
    rintro ts ⟨t, us, vs, rfl, ht, hus, hvs⟩
    exact .andCons (Token.is_of_kind ht) (.compareOne (sum_of_atom hus)) hvs

theorem Operands.piece_any :
    (es : Operands) → Piece line (es.text "or".toList) (Derives (.orTail es.trees))
  | .one operand => by
    refine (piece_joined lead_or operand.piece).imp ?_
    rintro ts ⟨t, us, rfl, ht, hus⟩
    have h := Derives.orCons (Token.is_of_kind ht) (.andOne (.compareOne (sum_of_atom hus))) .orNil
    rwa [List.append_nil] at h
  | .cons operand rest => by
    refine (piece_joined_cons lead_or operand.piece rest.piece_any (follows_operands _ rest)).imp ?_
    rintro ts ⟨t, us, vs, rfl, ht, hus, hvs⟩
    exact .orCons (Token.is_of_kind ht) (.andOne (.compareOne (sum_of_atom hus))) hvs

theorem Comparisons.piece :
    (es : Comparisons) → Piece line es.text (Derives (.compareTail es.trees))
  | .one op operand => by
    refine (piece_joined (lead_compare op) operand.piece).imp ?_
    rintro ts ⟨t, us, rfl, ht, hus⟩
    have h := Derives.compareCons (Token.is_of_kind ht) ht (sum_of_atom hus) .compareNil
    rwa [List.append_nil] at h
  | .cons op operand rest => by
    refine (piece_joined_cons (lead_compare op) operand.piece rest.piece
      (follows_comparisons rest)).imp ?_
    rintro ts ⟨t, us, vs, rfl, ht, hus, hvs⟩
    exact .compareCons (Token.is_of_kind ht) ht (sum_of_atom hus) hvs

end

end Draft
end Scribe.Script
