import Scribe.Proofs.Instruction.Counts
import Scribe.Proofs.Pattern.Words
import Scribe.Proofs.Run.LineMap
import Scribe.Proofs.Script.LineShapes
import Scribe.Proofs.Script.Numerals

/-!
# Scripts in the present form

A script that can be read is left alone when it is modernized. No line of it starts with `say` or
`print`, since these are no words of the language, in whatever case and with whatever letters that
count as theirs; and where a line starts as the header of an arm, its first colon outside quotes is
the colon that ends the header.
-/
namespace Scribe.Run
open Text Pattern Script

def Passes (w : List Char) : Prop :=
  ∀ y, cutAtColonFrom false (w ++ y) = (cutAtColonFrom false y).map fun (a, b) => (w ++ a, b)

theorem passes_plain {w : List Char} (h : ∀ c ∈ w, c ≠ '"' ∧ c ≠ ':') : Passes w := by
  intro y
  induction w with
  | nil =>
    rw [List.nil_append]
    cases cutAtColonFrom false y <;> rfl
  | cons c r ih =>
    obtain ⟨hquote, hcolon⟩ := h c (by simp)
    rw [List.cons_append, cutAtColonFrom, ih fun d hd => h d (by simp [hd]), Option.map_map]
    · rfl
    · exact hquote
    · exact hcolon

/-- Inside quotes the search goes on behind the closing one. -/
theorem passes_string {r cs : List Char} {n : Nat} (h : readString r = .ok (cs, n)) :
    ∃ w y, r = w ++ y ∧ w.length = n ∧ ∀ z,
      cutAtColonFrom true (w ++ z) = (cutAtColonFrom false z).map fun (a, b) => (w ++ a, b) := by
  fun_induction readString r generalizing cs n with
  | case1 => cases h
  | case2 r =>
    cases h
    refine ⟨['"'], r, rfl, rfl, fun z => ?_⟩
    rw [List.singleton_append, cutAtColonFrom]
    rfl
  | case3 => cases h
  | case4 => cases h
  | case5 e r c he ih =>
    obtain ⟨⟨cs', n'⟩, hread, heq⟩ := Outcome.map_eq_ok.mp h
    cases heq
    obtain ⟨w, y, rfl, rfl, hw⟩ := ih hread
    refine ⟨'\\' :: e :: w, y, rfl, rfl, fun z => ?_⟩
    rw [List.cons_append, List.cons_append, cutAtColonFrom, hw, Option.map_map]
    rfl
  | case6 c r hquote hlone hescape ih =>
    obtain ⟨⟨cs', n'⟩, hread, heq⟩ := Outcome.map_eq_ok.mp h
    cases heq
    obtain ⟨w, y, rfl, rfl, hw⟩ := ih hread
    refine ⟨c :: w, y, rfl, rfl, fun z => ?_⟩
    have hback : c ≠ '\\' := by
      rintro rfl
      cases hwy : w ++ y with
      | nil => exact hlone rfl hwy
      | cons e r => exact hescape e r rfl hwy
    rw [List.cons_append, cutAtColonFrom, hw, Option.map_map]
    · rfl
    · exact fun _ _ hc => absurd hc hback
    · exact hquote

theorem colon_of_lexemeAt {c : Char} {r : List Char} {x : Lexeme} (h : LexemeAt c r x)
    (hx : x.kind = .colon) : c = ':' ∧ x.width = 1 := by
  cases h with
  | string => cases hx
  | mark hmark =>
    simp only [List.mem_cons, Prod.mk.injEq, List.not_mem_nil, or_false] at hmark
    rcases hmark with ⟨rfl, rfl⟩ | ⟨rfl, rfl⟩ | ⟨rfl, rfl⟩
    · exact ⟨rfl, rfl⟩
    · cases hx
    · cases hx
  | number => cases hx
  | word => exact absurd hx (wordKind_ne_colon _)
  | sign hop =>
    have hsign := operator?_ofSign hop
    rw [hx] at hsign
    cases hsign

/-- Every lexeme but a colon is passed. -/
theorem passes_of_lexemeAt {c : Char} {r : List Char} {x : Lexeme} (h : LexemeAt c r x)
    (hx : x.kind ≠ .colon) : ∃ w y, r = w ++ y ∧ w.length = x.width - 1 ∧ Passes (c :: w) := by
  have hfront (text : List Char) (hp : text <+: c :: r) (hne : text ≠ [])
      (hplain : ∀ d ∈ text, d ≠ '"' ∧ d ≠ ':') :
      ∃ w y, r = w ++ y ∧ w.length = text.length - 1 ∧ Passes (c :: w) := by
    obtain ⟨y, hy⟩ := hp
    cases text with
    | nil => exact absurd rfl hne
    | cons d w =>
      cases hy
      exact ⟨w, y, rfl, by simp, passes_plain hplain⟩
  cases h with
  | string hc hread =>
    obtain ⟨w, y, rfl, rfl, hw⟩ := passes_string hread
    refine ⟨w, y, rfl, rfl, fun z => ?_⟩
    rw [hc, List.cons_append, cutAtColonFrom, hw, Option.map_map]
    rfl
  | mark hmark =>
    simp only [List.mem_cons, Prod.mk.injEq, List.not_mem_nil, or_false] at hmark
    refine hfront [c] (by simp) (by simp) (List.forall_mem_singleton.mpr ?_)
    rcases hmark with ⟨rfl, rfl⟩ | ⟨rfl, rfl⟩ | ⟨rfl, rfl⟩
    · exact absurd rfl hx
    · decide
    · decide
  | number hd =>
    have hdigit {d : Char} (hd : isDigit d = true) : d ≠ '"' ∧ d ≠ ':' := by
      constructor <;> rintro rfl <;> revert hd <;> decide
    obtain ⟨ds, part, hds, hpart, heq | ⟨-, heq⟩⟩ := takeNumber_cases r hd
    · refine hfront _ (takeNumber_isPrefix _) (by simp [heq]) fun d hd => ?_
      rw [heq] at hd
      exact hdigit (hds d hd)
    · refine hfront _ (takeNumber_isPrefix _) (by simp [heq]) fun d hd => ?_
      rw [heq] at hd
      rcases List.mem_append.mp hd with hd | hd
      · exact hdigit (hds d hd)
      · rcases List.mem_cons.mp hd with rfl | hd
        · decide
        · exact hdigit (hpart d hd)
  | word hd hc hw =>
    subst hw
    refine hfront _ (List.takeWhile_prefix _) (by simp [hc]) fun d hd => ?_
    have hword : isWordChar d = true := List.all_eq_true.mp List.all_takeWhile d hd
    constructor <;> rintro rfl <;> revert hword <;> decide
  | sign hop =>
    obtain ⟨hp, hwidth, hne, hplain⟩ := operator?_text hop
    rw [hwidth]
    exact hfront _ hp hne hplain

theorem blank_of_lexFrom {line column : Nat} {recent : List Kind} {cs : List Char}
    (h : lexFrom line recent column 0 cs = .ok []) : ∀ d ∈ cs, isBlank d = true := by
  induction cs generalizing column with
  | nil => simp
  | cons c r ih =>
    by_cases hc : c = ' ' ∨ c = '\t'
    · have hstep : lexFrom line recent (column + 1) 0 r = .ok [] := by
        simpa [lexFrom, hc] using h
      refine List.forall_mem_cons.mpr ⟨?_, ih hstep⟩
      rcases hc with rfl | rfl <;> decide
    · obtain ⟨x, us, -, hus⟩ := head_of_lexFrom (fun hs => hc (.inl hs)) (fun ht => hc (.inr ht)) h
      cases hus

/-- Where a colon is the last token of a text and the only one of its kind, the text is cut there,
and only blanks follow in it. -/
theorem cut_of_lexFrom {line column : Nat} {recent : List Kind} {cs : List Char}
    {es : List Token} {t : Token} (h : lexFrom line recent column 0 cs = .ok (es ++ [t]))
    (hes : ∀ e ∈ es, e.kind ≠ .colon) (ht : t.kind = .colon) :
    ∃ x y, (∀ d ∈ y, isBlank d = true) ∧
      ∀ z, cutAtColonFrom false (cs ++ z) = some (x, y ++ z) := by
  -- The rest of the text behind a lexeme is shorter, but no tail that structural recursion sees.
  induction hn : cs.length using Nat.strongRecOn generalizing cs column recent es with
  | ind n ih =>
    subst hn
    cases cs with
    | nil =>
      rw [lexFrom] at h
      cases es <;> cases h
    | cons c r =>
      by_cases hc : c = ' ' ∨ c = '\t'
      · have hstep : lexFrom line recent (column + 1) 0 r = .ok (es ++ [t]) := by
          simpa [lexFrom, hc] using h
        obtain ⟨x, y, hy, hcut⟩ := ih r.length (by simp) hstep hes rfl
        refine ⟨c :: x, y, hy, fun z => ?_⟩
        have hpass : Passes [c] := passes_plain (List.forall_mem_singleton.mpr (by
          rcases hc with rfl | rfl <;> decide))
        have hz := hpass (r ++ z)
        rw [hcut] at hz
        exact hz
      · obtain ⟨x, us, hx, hts, hrest⟩ :=
          tokens_of_lexFrom (fun hs => hc (.inl hs)) (fun ht => hc (.inr ht)) h
        have hlexeme := lexemeAt_inv hx
        by_cases hcolon : x.kind = .colon
        · -- The first token is a colon, so it is the last one.
          cases es with
          | cons e es =>
            cases hts
            exact absurd hcolon (hes _ List.mem_cons_self)
          | nil =>
            cases hts
            rcases hrest with ⟨raw, hraw, -⟩ | hrest
            · cases hraw
            · obtain ⟨rfl, hwidth⟩ := colon_of_lexemeAt hlexeme hcolon
              rw [hwidth] at hrest
              exact ⟨[':'], r, blank_of_lexFrom hrest, fun z => rfl⟩
        · cases es with
          | nil =>
            cases hts
            exact absurd ht hcolon
          | cons e es =>
            cases hts
            have hes' : ∀ e ∈ es, e.kind ≠ .colon := fun e he => hes e (by simp [he])
            rcases hrest with ⟨raw, hraw, hkind⟩ | hrest
            · cases es with
              | nil =>
                cases hraw
                rw [ht] at hkind
                cases hkind
              | cons e es => cases es <;> cases hraw
            · obtain ⟨w, y, rfl, hwidth, hpass⟩ := passes_of_lexemeAt hlexeme hcolon
              rw [← hwidth, lexFrom_skip] at hrest
              have hshort : y.length < (c :: (w ++ y)).length := by
                rw [List.length_cons, List.length_append]
                omega
              obtain ⟨x', y', hy', hcut⟩ := ih y.length hshort hrest hes' rfl
              refine ⟨c :: w ++ x', y', hy', fun z => ?_⟩
              have hz := hpass (y ++ z)
              rw [hcut, ← List.append_assoc] at hz
              exact hz

theorem trim_of_blank {cs : List Char} (h : ∀ c ∈ cs, isBlank c = true) : trim cs = [] := by
  have hdrop : (cs ++ []).dropWhile isBlank = [] := List.dropWhile_append_of_pos h
  rw [List.append_nil] at hdrop
  rw [trim, trimWhile, hdrop]
  rfl

def StartsWith (ss : List String) (body : List Char) : Prop :=
  ∃ w y, ∃ s ∈ ss, body = w ++ y ∧ w.map foldCase = s.toList ∧ y.head?.any isWordChar = false

theorem ofLetters_printWords : OfLetters ["say", "print"] := by
  unfold OfLetters
  decide

theorem ofLetters_armWords : OfLetters ["if", "elif", "else"] := by
  unfold OfLetters
  decide

theorem startsWith_printWord {body : List Char} {m : Match}
    (h : printWord.matchStart body = some m) : StartsWith ["say", "print"] body := by
  obtain ⟨c, hspan, -⟩ := matchAt_sound h
  change Spans (seq (seq (words ["say", "print"]) edge) blanks) _ _ at hspan
  cases hspan with
  | seq hfront hblanks =>
    cases hfront with
    | seq hword hedge =>
      cases hedge with
      | edge hedge =>
        obtain ⟨w, s, hs, hfold, hrest, hbehind⟩ := spans_words hword
        refine ⟨w, _, s, hs, hrest, hfold, Cursor.atEdge_of_word hedge ?_⟩
        have hletters := ofLetters_printWords s hs
        have hne : w ≠ [] := by
          rintro rfl
          exact hletters.1 hfold.symm
        rw [hbehind, List.getLast?_eq_some_getLast hne]
        exact (isWord_of_fold hletters.2 hfold _ (List.getLast_mem hne)).1

theorem startsWith_armHeader {body : List Char} {m : Match}
    (h : armHeader.matchStart body = some m) : StartsWith ["if", "elif", "else"] body := by
  obtain ⟨c, hspan, -⟩ := matchAt_sound h
  change Spans (alt (seq (words ["if", "elif"]) blank)
    (seq (seq (word "else") blanks) (char ':'))) _ _ at hspan
  cases hspan with
  | altLeft hspan =>
    cases hspan with
    | seq hword hblank =>
      obtain ⟨w, s, hs, hfold, hrest, -⟩ := spans_words hword
      refine ⟨w, _, s, List.mem_append_left ["else"] hs, hrest, hfold, ?_⟩
      cases hblank with
      | one hb => simpa using isWordChar_of_isBlank hb
  | altRight hspan =>
    cases hspan with
    | seq hfront hcolon =>
      cases hfront with
      | seq hword hblanks =>
        obtain ⟨w, hrest, -⟩ := hword.behind
        have hfold := covers_word "else" hword hrest
        obtain ⟨bs, hbs, hall⟩ := hblanks.covered (P := fun b => isBlank b = true) fun _ hb => hb
        refine ⟨w, _, "else", by simp, hrest, hfold, ?_⟩
        rw [hbs]
        refine head_blanks hall ?_
        cases hcolon with
        | one hc =>
          rw [beq_iff_eq.mp hc]
          rfl

/-- A word that reads as another in any case is that reserved word, or none at all. -/
theorem wordKind_of_fold {w : List Char} {s : String} (hs : ∀ c ∈ s.toList, isNameStart c = true)
    (h : w.map foldCase = s.toList) :
    wordKind w = .identifier ∨ wordKind w = (reserved? s).getD .identifier := by
  have hascii : ∀ c ∈ w, (foldCase c).toNat < 128 := by
    intro c hc
    apply toNat_lt_of_isNameStart
    apply hs
    rw [← h]
    exact List.mem_map_of_mem hc
  cases hstray : w.any Instruction.isStray with
  | false =>
    right
    rw [wordKind, lower, Instruction.lowerAfter_of_fold hascii hstray, h, String.ofList_toList]
  | true =>
    left
    obtain ⟨x, hx, hlarge⟩ := Instruction.lowerAfter_stray hstray []
    have hreserved (t : String) (ht : reserved? t ≠ none) : ∀ c ∈ t.toList, c.toNat < 128 := by
      unfold reserved? at ht
      split at ht
      all_goals first | decide | exact absurd rfl ht
    cases hkind : reserved? (String.ofList (lower w)) with
    | none =>
      rw [wordKind, hkind]
      rfl
    | some kind =>
      have hx' : x ∈ (String.ofList (lower w)).toList := by rwa [String.toList_ofList]
      have := hreserved _ (by simp [hkind]) x hx'
      omega

/-- Where a line that can be read starts with a word, that word is its first token. -/
theorem shape_of_startsWith {text body : List Char} {k : Nat} {ss : List String}
    (h : ReadableLine text) (htext : text = List.replicate k ' ' ++ body) (hl : OfLetters ss)
    (hs : StartsWith ss body) :
    ∃ w, ∃ s ∈ ss, w.map foldCase = s.toList ∧ ∃ line column cs us,
      codeOf text = List.replicate k ' ' ++ cs ∧
      lexFrom line [] column 0 cs = .ok (⟨wordKind w, String.ofList w, line, column⟩ :: us) ∧
      LineShape (⟨wordKind w, String.ofList w, line, column⟩ :: us) := by
  obtain ⟨w, y, s, hmem, rfl, hfold, hy⟩ := hs
  have hword := isWord_of_fold (hl s hmem).2 hfold
  cases w with
  | nil => exact absurd hfold.symm (hl s hmem).1
  | cons c r =>
    have hw : IsWord (c :: r) := fun d hd => (hword d hd).1
    have hcode := codeOf_indented hw k y
    rcases h with hnil | ⟨line, column, us, hus, hshape⟩
    · rw [htext, hcode] at hnil
      simp at hnil
    · rw [htext] at hus ⊢
      obtain ⟨hlex, vs, -, rfl⟩ := lexFrom_indented hw (hword c (by simp)).2 hy hus
      exact ⟨c :: r, s, hmem, hfold, line, column, _, vs, hcode, hlex, hshape⟩

/-- A line that can be read does not print in an older spelling. -/
theorem not_startsWith_printWord {text body : List Char} {k : Nat} (h : ReadableLine text)
    (htext : text = List.replicate k ' ' ++ body) : ¬StartsWith ["say", "print"] body := by
  intro hs
  obtain ⟨w, s, hmem, hfold, line, column, cs, us, -, -, hshape⟩ :=
    shape_of_startsWith h htext ofLetters_printWords hs
  have hreserved : ∀ s ∈ ["say", "print"], reserved? s = none := by decide
  have hkind : wordKind w = .identifier := by
    rcases wordKind_of_fold (ofLetters_printWords s hmem).2 hfold with hkind | hkind
    · exact hkind
    · rw [hkind, hreserved s hmem]
      rfl
  rw [hkind] at hshape
  cases hshape with
  | simple ht => simp at ht
  | header ht => simp at ht

theorem modernPrint_of_readable {text body : List Char} {k : Nat} (h : ReadableLine text)
    (htext : text = List.replicate k ' ' ++ body) : modernPrint body = body := by
  unfold modernPrint
  split
  · rename_i m hm
    exact absurd (startsWith_printWord hm) (not_startsWith_printWord h htext)
  · rfl

/-- Where a line that can be read starts as the header of an arm, its code is cut at the colon that
ends the header, and only blanks follow in it. -/
theorem cut_of_readable {text body : List Char} {k : Nat} (h : ReadableLine text)
    (htext : text = List.replicate k ' ' ++ body) (hs : StartsWith ["if", "elif", "else"] body) :
    ∃ cs x y, codeOf text = List.replicate k ' ' ++ cs ∧ (∀ d ∈ y, isBlank d = true) ∧
      ∀ z, cutAtColonFrom false (cs ++ z) = some (x, y ++ z) := by
  obtain ⟨w, s, hmem, hfold, line, column, cs, us, hcode, hlex, hshape⟩ :=
    shape_of_startsWith h htext ofLetters_armWords hs
  have hkind := wordKind_of_fold (ofLetters_armWords s hmem).2 hfold
  obtain ⟨es, t, hus, hes, ht⟩ : ∃ es t, us = es ++ [t] ∧ (∀ e ∈ es, e.kind ≠ .colon) ∧
      t.kind = .colon := by
    cases hshape with
    | simple hsimple =>
      have hwords : ∀ s ∈ ["if", "elif", "else"], (reserved? s).getD .identifier ∉
          ([.ai, .set, .neuro, .macroWord] : List Keyword).map Kind.keyword := by decide
      rcases hkind with hkind | hkind
      · simp [hkind] at hsimple
      · rw [hkind] at hsimple
        exact absurd hsimple (hwords s hmem)
    | header _ hes hc => exact ⟨_, _, rfl, hes, hc⟩
  have hes' : ∀ e ∈ ⟨wordKind w, String.ofList w, line, column⟩ :: es, e.kind ≠ .colon :=
    List.forall_mem_cons.mpr ⟨wordKind_ne_colon w, hes⟩
  rw [hus] at hlex
  obtain ⟨x, y, hy, hcut⟩ := cut_of_lexFrom hlex hes' ht
  exact ⟨cs, x, y, hcode, hy, hcut⟩

/-- The statement of a line that can be read does not stand behind the header of an arm. -/
theorem inlineArm?_of_readable {text body : List Char} {k : Nat} (h : ReadableLine text)
    (htext : text = List.replicate k ' ' ++ body) : inlineArm? body = none := by
  unfold inlineArm?
  split
  · rename_i harm
    obtain ⟨m, hm⟩ := Option.isSome_iff_exists.mp harm
    obtain ⟨cs, x, y, hcode, hy, hcut⟩ := cut_of_readable h htext (startsWith_armHeader hm)
    obtain ⟨blanks, comment, hrest, hblanks, hcomment⟩ := codeOf_rest text
    have hbody : body = cs ++ (blanks ++ comment) := by
      rw [hcode, htext, List.append_assoc] at hrest
      exact List.append_cancel_left hrest
    have htail : trim (stripComment (y ++ (blanks ++ comment))) = [] := by
      have hall : ∀ c ∈ y ++ blanks, isBlank c = true := by
        intro c hc
        exact (List.mem_append.mp hc).elim (hy c) (hblanks c)
      rw [← List.append_assoc, stripComment,
        stripCommentFrom_append fun c hc => plain_of_isBlank (hall c hc)]
      change trim (y ++ blanks ++ stripComment comment) = []
      rw [hcomment, List.append_nil]
      exact trim_of_blank hall
    rw [cutAtColon, hbody, hcut, Option.bind_some]
    simp [htail]
  · rfl

theorem modernLines_of_readable {text : List Char} (h : ReadableLine text) :
    modernLines text = [text] := by
  have hindent : text.takeWhile (· == ' ') =
      List.replicate (text.takeWhile (· == ' ')).length ' ' := by
    refine List.eq_replicate_iff.mpr ⟨rfl, fun c hc => ?_⟩
    exact beq_iff_eq.mp (List.all_eq_true.mp List.all_takeWhile c hc)
  have htext : text.takeWhile (· == ' ') ++ text.dropWhile (· == ' ') = text :=
    List.takeWhile_append_dropWhile
  have hsplit : text = List.replicate (text.takeWhile (· == ' ')).length ' ' ++
      text.dropWhile (· == ' ') := by
    rw [← hindent, htext]
  unfold modernLines
  dsimp only
  rw [modernPrint_of_readable h hsplit, inlineArm?_of_readable h hsplit]
  exact congrArg (fun t => [t]) htext

theorem modernizeFrom_of_readable (line : Nat) {texts : List (List Char)}
    (h : ∀ text ∈ texts, ReadableLine text) :
    (modernizeFrom line texts).map Prod.fst = texts ∧
      (modernizeFrom line texts).map Prod.snd = List.range' line texts.length := by
  induction texts generalizing line with
  | nil => exact ⟨rfl, rfl⟩
  | cons text rest ih =>
    obtain ⟨hfst, hsnd⟩ := ih (line + 1) fun t ht => h t (by simp [ht])
    rw [modernizeFrom, modernLines_of_readable (h text (by simp)), List.length_cons,
      List.range'_succ]
    exact ⟨congrArg (text :: ·) hfst, congrArg (line :: ·) hsnd⟩

/-- A script that can be read stays as it is, and every line comes from itself. -/
theorem modernize_of_parse {source : List Char} {p : Program} (h : parse source = .ok p) :
    modernize source = (source, List.range' 1 (lines source).length) := by
  obtain ⟨htexts, hnumbers⟩ := modernizeFrom_of_readable 1 (readable_of_parse h)
  unfold modernize
  dsimp only
  rw [htexts, hnumbers, joinLines_lines]

/-- Colons in quotes, in comments and in the text of an instruction are no headers. -/
theorem modernize_of_parse_colons :
    let source := "if x == \"a:b\": # say: no\n  macro from AI: if y: print\nELSE :\n  neuro x".toList
    parse source = .ok [.choose 1
        [(.compare (.var "x") [(.eq, .lit (.text "a:b"))], [.expand 2 "if y: print"])]
        (some [.print 4 (.var "x")])] ∧
      modernize source = (source, [1, 2, 3, 4]) :=
  ⟨rfl, modernize_of_parse rfl⟩

end Scribe.Run
