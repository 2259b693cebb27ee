import Scribe.Evaluation.Features
import Scribe.Proofs.Run.Crashes
import Scribe.Proofs.Script.LineStarts

/-!
# The features of scripts that are written

The features of a script are told from the fronts of its lines, its statements by reading it. Of
a script that is written for an instruction, and can be read, both give the same counts: its lines
are comments, or they start with a word that the reader knows, behind which the code goes on.
-/
namespace Scribe

namespace Text

/-- Trimming drops the blanks before the front of a line, and keeps the front. -/
theorem trim_front {blanks front : List Char} (hblanks : ∀ c ∈ blanks, isBlank c = true)
    (hne : front ≠ []) (hfirst : front.head?.any isBlank = false)
    (hlast : front.getLast?.any isBlank = false) (rest : List Char) :
    trim (blanks ++ (front ++ rest)) = front ++ trimEnd rest := by
  obtain ⟨c, r, rfl⟩ := List.exists_cons_of_ne_nil hne
  rw [trim, trimWhile, List.dropWhile_append_of_pos hblanks, List.cons_append,
    List.dropWhile_cons_of_neg (by simpa using hfirst), ← List.cons_append]
  exact dropEndWhile_append hlast rest

/-- What is left of a text that starts with a blank, if anything is, starts with it. -/
theorem trimEnd_cons {c : Char} {r : List Char} (h : trimEnd (c :: r) ≠ []) :
    ∃ z, trimEnd (c :: r) = c :: z := by
  obtain ⟨d, z, hz⟩ := List.exists_cons_of_ne_nil h
  have hpre : trimEnd (c :: r) <+: c :: r := dropEndWhile_isPrefix isBlank _
  rw [hz, List.cons_prefix_cons] at hpre
  exact ⟨z, by rw [hz, hpre.1]⟩

end Text

namespace Evaluation
open Script Instruction Text

namespace Tally

theorem count_cons (name : String) (k : Nat) (t : Tally) (key : String) :
    count ((name, k) :: t) key = if key = name then k else t.count key := by
  rw [count, List.lookup_cons]
  split
  · rename_i h
    rw [if_pos (beq_iff_eq.mp h), Option.getD_some]
  · rename_i h
    rw [if_neg (beq_eq_false_iff_ne.mp h)]
    rfl

theorem count_add (t : Tally) (name key : String) :
    (t.add name).count key = t.count key + if name = key then 1 else 0 := by
  induction t with
  | nil =>
    rw [add, count_cons]
    simp only [eq_comm (a := key)]
    exact (Nat.zero_add _).symm
  | cons entry rest ih =>
    obtain ⟨n, k⟩ := entry
    rw [add]
    split
    · rename_i hn
      rw [beq_iff_eq.mp hn, count_cons, count_cons]
      by_cases hkey : key = name
      · simp [hkey]
      · simp [hkey, Ne.symm hkey]
    · rename_i hn
      rw [count_cons, count_cons, ih]
      by_cases hkey : key = n
      · have hname : name ≠ key := by
          rintro rfl
          exact hn (beq_iff_eq.mpr hkey.symm)
        simp [hkey, hkey ▸ hname]
      · simp [hkey]

/-- A tally counts a name as often as it came. -/
theorem count_ofList (names : List String) (key : String) :
    (ofList names).count key = names.count key := by
  have hfold (t : Tally) : (names.foldl (fun t name => t.add name) t).count key =
      t.count key + names.count key := by
    induction names generalizing t with
    | nil => rfl
    | cons name rest ih =>
      rw [List.foldl_cons, ih, count_add, List.count_cons]
      simp only [beq_iff_eq]
      omega
  rw [ofList, hfold]
  exact Nat.zero_add _

theorem mem_keys_add {t : Tally} {name key : String} :
    key ∈ (t.add name).map Prod.fst ↔ key = name ∨ key ∈ t.map Prod.fst := by
  induction t with
  | nil => simp [add]
  | cons entry rest ih =>
    obtain ⟨n, k⟩ := entry
    unfold add
    split
    · rename_i hn
      simp [beq_iff_eq.mp hn]
    · simp only [List.map_cons, List.mem_cons, ih]
      exact or_left_comm

/-- The names of a tally are those that came. -/
theorem mem_keys_ofList {names : List String} {key : String} :
    key ∈ (ofList names).map Prod.fst ↔ key ∈ names := by
  have hfold (t : Tally) : key ∈ (names.foldl (fun t name => t.add name) t).map Prod.fst ↔
      key ∈ t.map Prod.fst ∨ key ∈ names := by
    induction names generalizing t with
    | nil => simp
    | cons name rest ih =>
      rw [List.foldl_cons, ih, mem_keys_add, List.mem_cons, or_assoc, or_left_comm]
  rw [ofList, hfold]
  simp

end Tally

def featureWords : List Keyword := [.set, .neuro, .ifWord, .elifWord, .elseWord]

/-- A line whose feature is what the reader takes it for: a comment if it has no code, and otherwise
the word that it starts with. -/
structure Featured (line : List Char) : Prop where
  comment : codeOf line = [] → trim line ≠ [] ∧ featureOf line = some "comment"
  word : ∀ word, LineStart word line → word ∈ featureWords ∧ featureOf line = some word.text

theorem trimEnd_of_codeOf {x : List Char} (h : codeOf x ≠ []) : trimEnd x ≠ [] := by
  intro hnil
  obtain ⟨blanks, hx, hblanks⟩ := dropEndWhile_rest isBlank x
  rw [show dropEndWhile isBlank x = [] from hnil, List.nil_append] at hx
  subst hx
  have hlast : (codeOf x).getLast?.any isBlank = false := getLast?_dropEndWhile isBlank _
  have hmem := (codeOf_isPrefix x).subset (List.getLast_mem h)
  rw [List.getLast?_eq_some_getLast h, Option.any_some, hblanks _ hmem] at hlast
  cases hlast

/-- A line that is written with a word and a blank shows that word if code follows. Without it
`neuro` would be no feature, but the reader refuses a line that ends with its first word. -/
theorem featureOf_written {k : Nat} {word : Keyword} {e : List Char}
    (hword : word ∈ [Keyword.set, .neuro, .ifWord, .elifWord]) (he : codeOf (' ' :: e) ≠ []) :
    featureOf (List.replicate k ' ' ++ (word.text.toList ++ ' ' :: e)) = some word.text := by
  obtain ⟨z, hz⟩ := trimEnd_cons (trimEnd_of_codeOf he)
  have htrim : trim (List.replicate k ' ' ++ (word.text.toList ++ ' ' :: e)) =
      word.text.toList ++ ' ' :: z := by
    rw [trim_front, hz]
    · simp [show isBlank ' ' = true from rfl]
    all_goals cases word <;> decide
  rw [featureOf, htrim]
  simp only [List.mem_cons, List.not_mem_nil, or_false] at hword
  rcases hword with rfl | rfl | rfl | rfl <;> rfl

theorem Featured.written {k : Nat} {word : Keyword} {x : List Char} (hword : word ∈ featureWords)
    (hx : x.head?.any isWordChar = false)
    (h : codeOf x ≠ [] →
      featureOf (List.replicate k ' ' ++ (word.text.toList ++ x)) = some word.text) :
    Featured (List.replicate k ' ' ++ (word.text.toList ++ x)) where
  comment hcode := by
    obtain ⟨c, r, hcr, hw, -⟩ := word.text_word
    rw [hcr, codeOf_indented hw] at hcode
    simp at hcode
  word start hstart := by
    obtain ⟨rfl, hcode⟩ := hstart.written hx
    exact ⟨hword, h hcode⟩

theorem Featured.spaced (k : Nat) {word : Keyword} (e : List Char)
    (hword : word ∈ [Keyword.set, .neuro, .ifWord, .elifWord]) :
    Featured (List.replicate k ' ' ++ (word.text.toList ++ ' ' :: e)) := by
  refine .written ?_ rfl (featureOf_written hword)
  simp only [List.mem_cons, List.not_mem_nil, or_false] at hword
  rcases hword with rfl | rfl | rfl | rfl <;> decide

theorem featured_comment {mark text : List Char} (hmark : mark = "#".toList ∨ mark = "//".toList) :
    Featured (mark ++ ' ' :: text) where
  comment _ := by
    have htrim : trim (mark ++ ' ' :: text) = mark ++ trimEnd (' ' :: text) := by
      refine trim_front (List.forall_mem_nil _) ?_ ?_ ?_ _
      all_goals rcases hmark with rfl | rfl <;> decide
    rw [featureOf, htrim]
    rcases hmark with rfl | rfl
    · exact ⟨nofun, rfl⟩
    · exact ⟨nofun, rfl⟩
  word start hstart := by
    obtain ⟨line, column, us, hlex, t, u, vs, rfl, -⟩ := hstart
    have hcode : codeOf (mark ++ ' ' :: text) = [] := by
      rcases hmark with rfl | rfl <;> rfl
    rw [hcode] at hlex
    cases hlex

theorem featured_print (k : Nat) (e : List Char) :
    Featured (List.replicate k ' ' ++ printExpr e) := by
  have hline : printExpr e = Keyword.neuro.text.toList ++ ' ' :: e := by
    simp [printExpr_eq, Keyword.text]
  rw [hline]
  exact Featured.spaced k e (by decide)

theorem featured_plain {l : List Char} (h : PlainLine l) : Featured l := by
  cases h with
  | @print e he => exact featured_print 0 e
  | @set name e hname he =>
    have hline : setLine name e =
        Keyword.set.text.toList ++ ' ' :: (name ++ " = ".toList ++ e) := by
      simp [setLine_eq, Keyword.text]
    rw [hline]
    exact Featured.spaced 0 _ (by decide : Keyword.set ∈ _)
  | comment hmark ht => exact featured_comment hmark

/-- Every line that a template writes has the feature that the reader sees. -/
theorem featured_of_template {ls : List (List Char)} (h : Template ls) : ∀ l ∈ ls, Featured l := by
  induction h with
  | nil => exact List.forall_mem_nil _
  | plain hl _ ih => exact List.forall_mem_cons.mpr ⟨featured_plain hl, ih⟩
  | @arm front test e ls hfront ht he _ ih =>
    refine List.forall_mem_cons.mpr ⟨?_, List.forall_mem_cons.mpr ⟨featured_print 4 e, ih⟩⟩
    rcases hfront with rfl | rfl
    · exact Featured.spaced 0 (test ++ [':']) (by decide : Keyword.ifWord ∈ _)
    · exact Featured.spaced 0 (test ++ [':']) (by decide : Keyword.elifWord ∈ _)
  | @lastArm e ls he _ ih =>
    refine List.forall_mem_cons.mpr ⟨?_, List.forall_mem_cons.mpr ⟨featured_print 4 e, ih⟩⟩
    have hword : Keyword.elseWord ∈ featureWords := by decide
    exact Featured.written (k := 0) (x := [':']) hword rfl fun _ => rfl

/-- The lines that hold a comment and nothing else. -/
def commentLines (texts : List (List Char)) : List (List Char) :=
  texts.filter fun text => codeOf text = [] ∧ trim text ≠ []

section Lines
variable {ls : List (List Char)} {words : List Keyword}

theorem filterMap_of_lineStarts (hls : ∀ l ∈ ls, Featured l)
    (h : List.Forall₂ LineStart words ls) :
    ls.filterMap featureOf = words.map Keyword.text ∧ ∀ word ∈ words, word ∈ featureWords := by
  induction h with
  | nil => exact ⟨rfl, List.forall_mem_nil _⟩
  | cons hstart _ ih =>
    obtain ⟨hl, hrest⟩ := List.forall_mem_cons.mp hls
    obtain ⟨hword, hfeature⟩ := hl.word _ hstart
    obtain ⟨hfeatures, hwords⟩ := ih hrest
    refine ⟨?_, List.forall_mem_cons.mpr ⟨hword, hwords⟩⟩
    rw [List.filterMap_cons_some hfeature, hfeatures, List.map_cons]

/-- A line without code is a comment, and none of them is blank. -/
theorem filterMap_comments (hls : ∀ l ∈ ls, Featured l) :
    (ls.filter fun l => !decide (codeOf l ≠ [])).filterMap featureOf =
      List.replicate (commentLines ls).length "comment" := by
  induction ls with
  | nil => rfl
  | cons l ls ih =>
    obtain ⟨hl, hrest⟩ := List.forall_mem_cons.mp hls
    by_cases hcode : codeOf l = []
    · obtain ⟨hshown, hfeature⟩ := hl.comment hcode
      have hcons : commentLines (l :: ls) = l :: commentLines ls :=
        List.filter_cons_of_pos (by simp [hcode, hshown])
      rw [List.filter_cons_of_pos (by simp [hcode]), List.filterMap_cons_some hfeature, ih hrest,
        hcons]
      rfl
    · have hcons : commentLines (l :: ls) = commentLines ls :=
        List.filter_cons_of_neg (by simp [hcode])
      rw [List.filter_cons_of_neg (by simp [hcode]), ih hrest, hcons]

/-- The features of lines are, in some order, the words that the reader sees and the comments. -/
theorem features_perm (hls : ∀ l ∈ ls, Featured l)
    (h : List.Forall₂ LineStart words (codeLines ls)) :
    (ls.filterMap featureOf).Perm
        (words.map Keyword.text ++ List.replicate (commentLines ls).length "comment") ∧
      ∀ word ∈ words, word ∈ featureWords := by
  have hcode : ∀ l ∈ codeLines ls, Featured l := fun l hl => hls l (List.mem_of_mem_filter hl)
  obtain ⟨hfeatures, hwords⟩ := filterMap_of_lineStarts hcode h
  have hsplit := (List.filter_append_perm (fun l => decide (codeOf l ≠ [])) ls).filterMap featureOf
  rw [List.filterMap_append, filterMap_comments hls] at hsplit
  rw [← hfeatures]
  exact ⟨hsplit.symm, hwords⟩

/-- What is counted of a script is the words that the reader sees and the comments. -/
theorem features_lines {script : List Char} (hls : ∀ l ∈ lines script, Featured l)
    (h : List.Forall₂ LineStart words (codeLines (lines script))) :
    (∀ word : Keyword, (features script).count word.text = words.count word) ∧
    (features script).count "comment" = (commentLines (lines script)).length ∧
    ∀ key ∈ (features script).map Prod.fst,
      key ∈ ["set", "neuro", "if", "elif", "else", "comment"] := by
  obtain ⟨hperm, hwords⟩ := features_perm hls h
  have hcount (key : String) : (features script).count key = (words.map Keyword.text).count key +
      (List.replicate (commentLines (lines script)).length "comment").count key := by
    rw [features, Tally.count_ofList, hperm.count_eq, List.count_append]
  refine ⟨fun word => ?_, ?_, fun key hkey => ?_⟩
  · have hcomment : ("comment" == word.text) = false := by cases word <;> rfl
    rw [hcount, List.count_map_of_injective _ _ Keyword.text_injective, List.count_replicate,
      hcomment]
    rfl
  · have hnone : "comment" ∉ words.map Keyword.text := by
      intro hmem
      obtain ⟨word, -, heq⟩ := List.mem_map.mp hmem
      revert heq
      cases word <;> decide
    rw [hcount, List.count_eq_zero_of_not_mem hnone, List.count_replicate_self, Nat.zero_add]
  · rw [features, Tally.mem_keys_ofList, hperm.mem_iff, List.mem_append] at hkey
    rcases hkey with hkey | hkey
    · obtain ⟨word, hmem, rfl⟩ := List.mem_map.mp hkey
      have hfeature := hwords word hmem
      revert hfeature
      cases word <;> decide
    · rw [List.eq_of_mem_replicate hkey]
      decide

end Lines

/-- What a statement that a template can lead to adds to the counts of its words. -/
theorem count_ownWords {x : Stmt} (htame : x.Tame) (hx : x.WellFormed) :
    x.ownWords.count .set = x.isAssign.toNat ∧ x.ownWords.count .neuro = x.isPrint.toNat ∧
    x.ownWords.count .ifWord = x.isChoose.toNat ∧ x.ownWords.count .elifWord = x.laterArms ∧
    x.ownWords.count .elseWord = x.hasElse.toNat := by
  cases x with
  | print | assign => exact ⟨rfl, rfl, rfl, rfl, rfl⟩
  | choose line arms last =>
    obtain ⟨arm, rest, rfl⟩ := List.exists_cons_of_ne_nil hx.1
    cases last <;> simp [Stmt.ownWords, armHeaders, Stmt.isAssign, Stmt.isPrint, Stmt.isChoose,
      Stmt.laterArms, Stmt.hasElse, List.count_replicate]
  | _ => exact htame.elim

/-- Where the script for an instruction of one line can be read, its features are the statements of
its tree, at every depth, the arms of its choices and its comments. -/
theorem features_count {threshold : Float} {instruction : String} {answer : Expansion.Answer}
    {expansion : Expansion} {q : Program} (hone : OneLine instruction.toList)
    (h : Expansion.ofAnswer threshold instruction answer = .ok expansion)
    (hq : parse expansion.script.toList = .ok q) :
    let counts := features expansion.script.toList
    counts.count "set" = (statements q).countP Stmt.isAssign ∧
    counts.count "neuro" = (statements q).countP Stmt.isPrint ∧
    counts.count "if" = (statements q).countP Stmt.isChoose ∧
    counts.count "elif" = ((statements q).map Stmt.laterArms).sum ∧
    counts.count "else" = (statements q).countP Stmt.hasElse ∧
    counts.count "comment" = (commentLines (lines expansion.script.toList)).length ∧
    ∀ key ∈ counts.map Prod.fst, key ∈ ["set", "neuro", "if", "elif", "else", "comment"] := by
  intro counts
  obtain ⟨ls, hls, hne, hscript⟩ := ofAnswer_lines hone h
  have hfeatured : ∀ l ∈ lines expansion.script.toList, Featured l := by
    rw [hscript, lines_joinLines hls.oneLine hne]
    exact featured_of_template hls
  obtain ⟨hwords, hcomments, hkeys⟩ := features_lines hfeatured (lineStarts_of_parse hq)
  have hsum (word : Keyword) {f : Stmt → Nat}
      (hf : ∀ x ∈ statements q, x.ownWords.count word = f x) :
      counts.count word.text = ((statements q).map f).sum := by
    rw [hwords, count_blockWords, List.map_congr_left hf]
  have hown (x : Stmt) (hx : x ∈ statements q) := count_ownWords
    (Run.tame_of_occurs (Run.ofAnswer_tame hone h hq) (mem_statements.mp hx))
    (wellFormed_of_parse hq (mem_statements.mp hx))
  refine ⟨?_, ?_, ?_, ?_, ?_, hcomments, hkeys⟩
  · exact (hsum .set fun x hx => (hown x hx).1).trans (sum_toNat_eq_countP _ _)
  · exact (hsum .neuro fun x hx => (hown x hx).2.1).trans (sum_toNat_eq_countP _ _)
  · exact (hsum .ifWord fun x hx => (hown x hx).2.2.1).trans (sum_toNat_eq_countP _ _)
  · exact hsum .elifWord fun x hx => (hown x hx).2.2.2.1
  · exact (hsum .elseWord fun x hx => (hown x hx).2.2.2.2).trans (sum_toNat_eq_countP _ _)

theorem features_count_branch :
    ∃ expansion, Expansion.ofAnswer defaultThreshold "if x say hi else say bye" .absent =
        .ok expansion ∧
      (features expansion.script.toList).count "neuro" = 2 ∧
      (features expansion.script.toList).count "else" = 1 := by
  have htext : unwrap "if x say hi else say bye".toList = "if x say hi else say bye".toList := rfl
  have hinfer : inferIntent "if x say hi else say bye".toList = .ok .branch := rfl
  have hrefine : refineIntent .branch "if x say hi else say bye".toList = .ok .branch := rfl
  have hintent : resolveIntent none 0.0 "if x say hi else say bye".toList defaultThreshold =
      .ok .branch := by
    rw [resolveIntent, Option.bind_none]
    simp only [hinfer]
    exact hrefine
  obtain ⟨r, hscript, hread⟩ : ∃ r,
      Expansion.scriptFor .branch "if x say hi else say bye".toList = .ok r ∧
        parse r.script = .ok [.choose 1 [(.var "x", [.print 2 (.lit (.text "hi"))])]
          (some [.print 4 (.lit (.text "bye"))])] := ⟨_, rfl, rfl⟩
  obtain ⟨expansion, hanswer, hlines⟩ : ∃ expansion, Expansion.ofAnswer defaultThreshold
      "if x say hi else say bye" .absent = .ok expansion ∧
        expansion.script.toList = r.script := by
    simp only [Expansion.ofAnswer, Expansion.Answer.label?, Expansion.Answer.score, htext, hintent,
      hscript, Except.map]
    exact ⟨_, rfl, String.toList_ofList⟩
  rw [← hlines] at hread
  obtain ⟨-, hneuro, -, -, helse, -⟩ := features_count (by decide) hanswer hread
  exact ⟨expansion, hanswer, hneuro, helse⟩

end Evaluation
end Scribe
