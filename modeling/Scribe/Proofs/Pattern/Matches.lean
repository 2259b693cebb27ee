import Scribe.Proofs.Pattern.Spans

/-!
# What a search returns

A search cuts a text into what stands before the match, the match and what stands after it, and
remembers pieces of the text. What a group may consist of is read off the pattern.
-/
namespace Scribe.Pattern

variable {p : Pattern} {cs before rest : List Char} {m : Match} {n : Nat} {P : Char → Prop}
  {L : List Char → Prop}

structure Match.In (m : Match) (text : List Char) : Prop where
  parts : m.before ++ m.covered ++ m.after = text
  groups : ∀ g ∈ m.groups, g.2 <:+: text

theorem matchAt_sound (h : p.matchAt before rest = some m) :
    ∃ c, Spans p ⟨before.head?, rest, []⟩ c ∧ m.before = before.reverse ∧
      m.covered ++ m.after = rest ∧ m.after = c.rest ∧ m.groups = c.groups := by
  obtain ⟨d, hd, rfl⟩ := Option.map_eq_some_iff.mp h
  obtain ⟨c, hc, hcd⟩ := run_sound p hd
  obtain rfl : c = d := Option.some.inj hcd
  refine ⟨c, hc, rfl, ?_, rfl, rfl⟩
  obtain ⟨cs, hcs⟩ := hc.rest_suffix
  change cs ++ c.rest = rest at hcs
  rw [← hcs]
  simp

theorem matchAt_in (h : p.matchAt before rest = some m) : m.In (before.reverse ++ rest) := by
  obtain ⟨c, hc, hbefore, hparts, -, hgroups⟩ := matchAt_sound h
  constructor
  · rw [hbefore, List.append_assoc, hparts]
  · rw [hgroups]
    exact hc.groups_isInfix (List.suffix_append _ _).isInfix (by simp)

theorem Match.group?_mem {g : List Char} (h : m.group? n = some g) : (n, g) ∈ m.groups := by
  rw [Match.group?, List.lookup_eq_some_iff] at h
  obtain ⟨l₁, l₂, heq, -⟩ := h
  simp [heq]

/-- What a group remembers is a text that its pattern allows. -/
theorem matchAt_group (hp : p.GroupIn n L) (hg : p.HasGroup n)
    (h : p.matchAt before rest = some m) : L (m.group n) := by
  obtain ⟨c, hc, -, -, -, hgroups⟩ := matchAt_sound h
  have hall := hc.group_in hp (by simp)
  have hsome : (m.group? n).isSome = true := by
    obtain ⟨g, hmem⟩ := hc.has_group hg
    rw [Match.group?, List.lookup_isSome_iff]
    exact ⟨(n, g), hgroups ▸ hmem, by simp⟩
  obtain ⟨g, hgroup⟩ := Option.isSome_iff_exists.mp hsome
  rw [Match.group, hgroup]
  exact hall g (hgroups ▸ Match.group?_mem hgroup)

/-- A search finds a match at some place of the text. -/
theorem searchFrom_sound (h : p.searchFrom before rest = some m) :
    ∃ before' rest', before'.reverse ++ rest' = before.reverse ++ rest ∧
      p.matchAt before' rest' = some m := by
  induction rest generalizing before with
  | nil => exact ⟨before, [], rfl, h⟩
  | cons c r ih =>
    simp only [searchFrom] at h
    split at h
    · rename_i hm
      cases h
      exact ⟨before, c :: r, rfl, hm⟩
    · obtain ⟨before', rest', htext, hm⟩ := ih h
      exact ⟨before', rest', by simpa using htext, hm⟩

theorem search_in (h : p.search cs = some m) : m.In cs := by
  obtain ⟨before, rest, htext, hm⟩ := searchFrom_sound h
  rw [show cs = before.reverse ++ rest from htext.symm]
  exact matchAt_in hm

/-- Nothing is found that would have to end with a character the text does not have. -/
theorem search_eq_none_of_absent {x : Char} (h : ∀ c ∈ cs, c ≠ x) :
    (p ++ char x).search cs = none := by
  rw [Option.eq_none_iff_forall_ne_some]
  intro m hm
  obtain ⟨before, rest, htext, hmatch⟩ := searchFrom_sound hm
  obtain ⟨d, hspan, -⟩ := matchAt_sound hmatch
  cases hspan with
  | seq hfront hlast =>
    cases hlast with
    | @one _ y r _ _ hy =>
      have hmem : y ∈ rest := hfront.rest_suffix.subset List.mem_cons_self
      have htext : before.reverse ++ rest = cs := htext
      exact h y (htext ▸ List.mem_append_right _ hmem) (beq_iff_eq.mp hy)

theorem search_group (hp : p.GroupIn n L) (hg : p.HasGroup n) (h : p.search cs = some m) :
    L (m.group n) := by
  obtain ⟨before, rest, -, hm⟩ := searchFrom_sound h
  exact matchAt_group hp hg hm

theorem matchStart_in (h : p.matchStart cs = some m) : m.In cs := matchAt_in h

/-- A text that is matched to its end, and not by closing a line, is covered as a whole. -/
theorem covers_whole (hp : p.Covers L) (h : ((p ++ atEnd).matchStart cs).isSome = true)
    (hlast : cs.getLast? ≠ some '\n') : L cs := by
  obtain ⟨m, hm⟩ := Option.isSome_iff_exists.mp h
  obtain ⟨c, hspan, -⟩ := matchAt_sound hm
  cases hspan with
  | seq hcovers hend =>
    obtain ⟨ds, hds, -⟩ := hcovers.covered (only_true p)
    cases hend with
    | atEnd hrest =>
      have htext : cs = ds ++ c.rest := hds
      rcases hrest with hrest | hrest
      · exact hp hcovers (by rw [hrest, List.append_nil])
      · exact absurd (by rw [htext, hrest, List.getLast?_concat]) hlast

theorem Match.In.group?_isInfix (h : m.In cs) {g : List Char} (hg : m.group? n = some g) :
    g <:+: cs :=
  h.groups (n, g) (Match.group?_mem hg)

theorem Match.In.group_isInfix (h : m.In cs) (n : Nat) : m.group n <:+: cs := by
  unfold Match.group
  cases hg : m.group? n with
  | none => exact List.nil_infix
  | some g => exact h.group?_isInfix hg

theorem Match.In.before_isInfix (h : m.In cs) : m.before <:+: cs := by
  rw [← h.parts, List.append_assoc]
  exact (List.prefix_append _ _).isInfix

theorem Match.In.after_isInfix (h : m.In cs) : m.after <:+: cs := by
  rw [← h.parts]
  exact (List.suffix_append _ _).isInfix

theorem dropFront_isInfix (p : Pattern) (cs : List Char) : p.dropFront cs <:+: cs := by
  unfold dropFront
  split
  · rename_i hm
    exact (matchStart_in hm).after_isInfix
  · exact List.infix_refl cs

theorem findFrom_in {skip : Nat} : ∀ m ∈ p.findFrom before skip rest, m.In (before.reverse ++ rest) := by
  fun_induction findFrom p before skip rest with
  | case1 => simp
  | case2 before skip c r ih => simpa using ih
  | case3 before c r m hm ih =>
    intro m' hm'
    rcases List.mem_cons.mp hm' with rfl | hm'
    · exact matchAt_in hm
    · simpa using ih m' hm'
  | case4 before c r hm ih => simpa using ih

theorem findAll_in : ∀ m ∈ p.findAll cs, m.In cs := findFrom_in

/-- Replacing brings in no character but those of the text and of the replacements. -/
theorem forall_replaceWith {f : Match → List Char}
    (hf : ∀ m, m.In cs → ∀ x ∈ f m, P x) (hcs : ∀ x ∈ cs, P x) :
    ∀ x ∈ p.replaceWith f cs, P x := by
  suffices h : ∀ (before : List Char) (skip : Nat) (rest : List Char), before.reverse ++ rest = cs →
      ∀ x ∈ p.replaceFrom f before skip rest, P x from h [] 0 cs rfl
  intro before skip rest htext
  fun_induction replaceFrom p f before skip rest with
  | case1 => simp
  | case2 before skip c r ih => exact ih (by simpa using htext)
  | case3 before c r m hm ih =>
    intro x hx
    rcases List.mem_append.mp hx with hx | hx
    · exact hf m (htext ▸ matchAt_in hm) x hx
    · exact ih (by simpa using htext) x hx
  | case4 before c r hm ih =>
    intro x hx
    rcases List.mem_cons.mp hx with rfl | hx
    · exact hcs x (by simp [← htext])
    · exact ih (by simpa using htext) x hx

theorem forall_replace {new : String} (hnew : ∀ x ∈ new.toList, P x) (hcs : ∀ x ∈ cs, P x) :
    ∀ x ∈ p.replace new cs, P x :=
  forall_replaceWith (fun _ _ => hnew) hcs

/-- The pieces between matches consist of characters of the text. -/
theorem forall_split (hcs : ∀ x ∈ cs, P x) : ∀ piece ∈ p.split cs, ∀ x ∈ piece, P x := by
  suffices h : ∀ (before : List Char) (skip : Nat) (rest : List Char), (∀ x ∈ rest, P x) →
      ∀ piece ∈ p.splitFrom before skip rest, ∀ x ∈ piece, P x from h [] 0 cs hcs
  intro before skip rest hrest
  fun_induction splitFrom p before skip rest with
  | case1 => simp
  | case2 before skip c r ih => exact ih fun x hx => hrest x (by simp [hx])
  | case3 before c r m hm ih =>
    intro piece hpiece
    rcases List.mem_cons.mp hpiece with rfl | hpiece
    · simp
    · exact ih (fun x hx => hrest x (by simp [hx])) piece hpiece
  | case4 before c r hm hnil ih => simpa using hrest c (by simp)
  | case5 before c r hm piece pieces hsplit ih =>
    have htail := ih fun x hx => hrest x (by simp [hx])
    rw [hsplit] at htail
    intro piece' hpiece'
    rcases List.mem_cons.mp hpiece' with rfl | hpiece'
    · intro x hx
      rcases List.mem_cons.mp hx with rfl | hx
      · exact hrest x (by simp)
      · exact htail piece (by simp) x hx
    · exact htail piece' (by simp [hpiece'])

section Groups
variable {q : Pattern}

@[simp] theorem groupIn_append :
    (p ++ q).GroupIn n L ↔ p.GroupIn n L ∧ q.GroupIn n L := Iff.rfl

@[simp] theorem groupIn_or :
    (p ||| q).GroupIn n L ↔ p.GroupIn n L ∧ q.GroupIn n L := Iff.rfl

@[simp] theorem groupIn_group {m : Nat} :
    (group m p).GroupIn n L ↔ (m = n → p.Covers L) ∧ p.GroupIn n L := Iff.rfl

@[simp] theorem groupIn_one {f : Char → Bool} : (one f).GroupIn n L := trivial

@[simp] theorem groupIn_edge : edge.GroupIn n L := trivial

@[simp] theorem groupIn_atEnd : atEnd.GroupIn n L := trivial

@[simp] theorem groupIn_char (c : Char) : (char c).GroupIn n L := trivial

@[simp] theorem groupIn_opt : (opt p).GroupIn n L ↔ p.GroupIn n L :=
  ⟨fun h => h.1, fun h => ⟨h, trivial⟩⟩

@[simp] theorem groupIn_some1 : (some1 p).GroupIn n L ↔ p.GroupIn n L :=
  ⟨fun h => h.1, fun h => ⟨h, h⟩⟩

@[simp] theorem groupIn_lazySome1 : (lazySome1 p).GroupIn n L ↔ p.GroupIn n L :=
  ⟨fun h => h.1, fun h => ⟨h, h⟩⟩

theorem groupIn_foldr (f : Char → Char → Bool) (cs : List Char) :
    (cs.foldr (fun c p => seq (one (f c)) p) empty).GroupIn n L := by
  induction cs with
  | nil => trivial
  | cons c r ih => exact ⟨trivial, ih⟩

@[simp] theorem groupIn_word (s : String) : (word s).GroupIn n L :=
  groupIn_foldr (fun c x => foldCase x == c) s.toList

@[simp] theorem groupIn_exactly (cs : List Char) : (exactly cs).GroupIn n L :=
  groupIn_foldr (fun c x => x == c) cs

@[simp] theorem groupIn_choice {ps : List Pattern} :
    (choice ps).GroupIn n L ↔ ∀ p ∈ ps, p.GroupIn n L := by
  fun_induction choice ps with
  | case1 => simp [GroupIn]
  | case2 p => simp
  | case3 p ps hne ih =>
    change p.GroupIn n L ∧ (choice ps).GroupIn n L ↔ _
    rw [ih]
    simp

@[simp] theorem groupIn_words (ss : List String) : (words ss).GroupIn n L := by
  simp [words]

@[simp] theorem groupIn_blanks : blanks.GroupIn n L := trivial

@[simp] theorem groupIn_blanks1 : blanks1.GroupIn n L := ⟨trivial, trivial⟩

@[simp] theorem groupIn_digits : digits.GroupIn n L := ⟨trivial, trivial⟩

@[simp] theorem groupIn_inLine : inLine.GroupIn n L := trivial

@[simp] theorem groupIn_anyName : anyName.GroupIn n L := ⟨trivial, trivial⟩

@[simp] theorem hasGroup_append : (p ++ q).HasGroup n ↔ p.HasGroup n ∨ q.HasGroup n := Iff.rfl

@[simp] theorem hasGroup_group {m : Nat} : (group m p).HasGroup n ↔ m = n ∨ p.HasGroup n := Iff.rfl

end Groups

end Scribe.Pattern
