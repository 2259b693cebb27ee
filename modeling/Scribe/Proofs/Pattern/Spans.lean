import Scribe.Pattern.Search

/-!
# What a match covers

`Spans` lists the ways in which a pattern can be matched between two places, without the order in
which they are tried: whatever `run` finds is one of them. From it follows that a match stands in
the text as one piece, its groups inside it, and that a group consists of characters which its
own pattern allows.
-/
namespace Scribe.Pattern

inductive Spans : Pattern → Cursor → Cursor → Prop
  | empty {c} : Spans .empty c c
  | one {p x r b g} (h : p x = true) : Spans (.one p) ⟨b, x :: r, g⟩ ⟨some x, r, g⟩
  | seq {p q c d e} (hp : Spans p c d) (hq : Spans q d e) : Spans (.seq p q) c e
  | altLeft {p q c d} (h : Spans p c d) : Spans (.alt p q) c d
  | altRight {p q c d} (h : Spans q c d) : Spans (.alt p q) c d
  | manyNil {p c} : Spans (.many p) c c
  | manyCons {p c d e} (h : Spans p c d) (rest : Spans (.many p) d e) : Spans (.many p) c e
  | lazyNil {p c} : Spans (.lazyMany p) c c
  | lazyCons {p c d e} (h : Spans p c d) (rest : Spans (.lazyMany p) d e) :
      Spans (.lazyMany p) c e
  | group {n p c d} (h : Spans p c d) : Spans (.group n p) c (c.cover n d)
  | edge {c} (h : c.atEdge = true) : Spans .edge c c
  | atStart {c} (h : c.behind = none) : Spans .atStart c c
  | atEnd {c} (h : c.rest = [] ∨ c.rest = ['\n']) : Spans .atEnd c c
  | notAhead {p c} (h : p.run some c = none) : Spans (.notAhead p) c c
  | notBehind {p c} (h : c.behind.any p = false) : Spans (.notBehind p) c c

variable {p : Pattern} {k : Cursor → Option Cursor} {c d : Cursor}

theorem repeatMost_sound
    (ih : ∀ {k c d}, p.run k c = some d → ∃ e, Spans p c e ∧ k e = some d) {n : Nat}
    (h : repeatMost p.run k n c = some d) : ∃ e, Spans (.many p) c e ∧ k e = some d := by
  induction n generalizing c with
  | zero => exact ⟨c, .manyNil, h⟩
  | succ n ihn =>
    simp only [repeatMost] at h
    split at h
    · rename_i hstep
      cases h
      obtain ⟨e, he, hk⟩ := ih hstep
      obtain ⟨f, hf, hk⟩ := ihn hk
      exact ⟨f, .manyCons he hf, hk⟩
    · exact ⟨c, .manyNil, h⟩

theorem repeatLeast_sound
    (ih : ∀ {k c d}, p.run k c = some d → ∃ e, Spans p c e ∧ k e = some d) {n : Nat}
    (h : repeatLeast p.run k n c = some d) : ∃ e, Spans (.lazyMany p) c e ∧ k e = some d := by
  induction n generalizing c with
  | zero => exact ⟨c, .lazyNil, h⟩
  | succ n ihn =>
    simp only [repeatLeast] at h
    split at h
    · rename_i hk
      cases h
      exact ⟨c, .lazyNil, hk⟩
    · obtain ⟨e, he, hk⟩ := ih h
      obtain ⟨f, hf, hk⟩ := ihn hk
      exact ⟨f, .lazyCons he hf, hk⟩

/-- Whatever is found is a way to match, and what follows accepts the place behind it. -/
theorem run_sound (p : Pattern) {k : Cursor → Option Cursor} {c d : Cursor}
    (h : p.run k c = some d) : ∃ e, Spans p c e ∧ k e = some d := by
  induction p generalizing k c d with
  | empty => exact ⟨c, .empty, h⟩
  | one q =>
    obtain ⟨b, rest, g⟩ := c
    cases rest with
    | nil => cases h
    | cons x r =>
      simp only [run] at h
      split at h
      · rename_i hx
        exact ⟨_, .one hx, h⟩
      · cases h
  | seq p q ihp ihq =>
    obtain ⟨e, he, hk⟩ := ihp h
    obtain ⟨f, hf, hk⟩ := ihq hk
    exact ⟨f, .seq he hf, hk⟩
  | alt p q ihp ihq =>
    simp only [run] at h
    split at h
    · rename_i hp
      cases h
      obtain ⟨e, he, hk⟩ := ihp hp
      exact ⟨e, .altLeft he, hk⟩
    · obtain ⟨e, he, hk⟩ := ihq h
      exact ⟨e, .altRight he, hk⟩
  | many p ih => exact repeatMost_sound ih h
  | lazyMany p ih => exact repeatLeast_sound ih h
  | group n p ih =>
    obtain ⟨e, he, hk⟩ := ih h
    exact ⟨_, .group he, hk⟩
  | edge =>
    simp only [run] at h
    split at h
    · rename_i hc
      exact ⟨c, .edge hc, h⟩
    · cases h
  | atStart =>
    simp only [run] at h
    split at h
    · rename_i hc
      exact ⟨c, .atStart (Option.isNone_iff_eq_none.mp hc), h⟩
    · cases h
  | atEnd =>
    simp only [run] at h
    split at h
    · rename_i hc
      exact ⟨c, .atEnd (by simpa using hc), h⟩
    · cases h
  | notAhead p _ =>
    simp only [run] at h
    split at h
    · cases h
    · rename_i hc
      exact ⟨c, .notAhead (by simpa using hc), h⟩
  | notBehind q =>
    simp only [run] at h
    split at h
    · cases h
    · rename_i hc
      exact ⟨c, .notBehind (by simpa using hc), h⟩

def Only (P : Char → Prop) : Pattern → Prop
  | one q => ∀ x, q x = true → P x
  | seq p q => p.Only P ∧ q.Only P
  | alt p q => p.Only P ∧ q.Only P
  | many p => p.Only P
  | lazyMany p => p.Only P
  | group _ p => p.Only P
  | _ => True

theorem only_true (p : Pattern) : p.Only fun _ => True := by
  induction p with
  | seq p q ihp ihq => exact ⟨ihp, ihq⟩
  | alt p q ihp ihq => exact ⟨ihp, ihq⟩
  | many p ih => exact ih
  | lazyMany p ih => exact ih
  | group n p ih => exact ih
  | one q => exact fun _ _ => trivial
  | _ => trivial

theorem Spans.covered {P : Char → Prop} (h : Spans p c d) (hp : p.Only P) :
    ∃ cs, c.rest = cs ++ d.rest ∧ ∀ x ∈ cs, P x := by
  have join {c d e : Cursor} (hcd : ∃ cs, c.rest = cs ++ d.rest ∧ ∀ x ∈ cs, P x)
      (hde : ∃ cs, d.rest = cs ++ e.rest ∧ ∀ x ∈ cs, P x) :
      ∃ cs, c.rest = cs ++ e.rest ∧ ∀ x ∈ cs, P x := by
    obtain ⟨as, has, hpa⟩ := hcd
    obtain ⟨bs, hbs, hpb⟩ := hde
    refine ⟨as ++ bs, by rw [has, hbs, List.append_assoc], ?_⟩
    intro x hx
    exact (List.mem_append.mp hx).elim (hpa x) (hpb x)
  have nothing (c : Cursor) : ∃ cs, c.rest = cs ++ c.rest ∧ ∀ x ∈ cs, P x := ⟨[], rfl, by simp⟩
  induction h with
  | @one _ x _ _ _ hx => exact ⟨[x], rfl, by simpa using hp x hx⟩
  | seq _ _ ihp ihq => exact join (ihp hp.1) (ihq hp.2)
  | altLeft _ ih => exact ih hp.1
  | altRight _ ih => exact ih hp.2
  | manyCons _ _ ih ihrest => exact join (ih hp) (ihrest hp)
  | lazyCons _ _ ih ihrest => exact join (ih hp) (ihrest hp)
  | group _ ih => exact ih hp
  | _ => exact nothing _

theorem Spans.rest_suffix (h : Spans p c d) : d.rest <:+ c.rest := by
  obtain ⟨cs, hcs, -⟩ := h.covered p.only_true
  exact ⟨cs, hcs.symm⟩

/-- What a group remembers is what lies between the two places. -/
theorem Cursor.cover_groups {n : Nat} {cs : List Char} (h : c.rest = cs ++ d.rest) :
    (c.cover n d).groups = (n, cs) :: d.groups := by
  have hlen : c.rest.length - d.rest.length = cs.length := by rw [h]; simp
  simp only [Cursor.cover, hlen]
  rw [h, List.take_left]

theorem Spans.groups_isInfix {text : List Char} (h : Spans p c d) (hs : c.rest <:+: text)
    (hc : ∀ g ∈ c.groups, g.2 <:+: text) : ∀ g ∈ d.groups, g.2 <:+: text := by
  induction h with
  | one _ => exact hc
  | seq hp _ ihp ihq => exact ihq (hp.rest_suffix.isInfix.trans hs) (ihp hs hc)
  | altLeft _ ih => exact ih hs hc
  | altRight _ ih => exact ih hs hc
  | manyCons h _ ih ihrest => exact ihrest (h.rest_suffix.isInfix.trans hs) (ih hs hc)
  | lazyCons h _ ih ihrest => exact ihrest (h.rest_suffix.isInfix.trans hs) (ih hs hc)
  | group h ih =>
    intro g hg
    obtain ⟨cs, hcs, -⟩ := h.covered (only_true _)
    rw [Cursor.cover_groups hcs] at hg
    rcases List.mem_cons.mp hg with rfl | hg
    · exact (List.IsPrefix.isInfix ⟨_, hcs.symm⟩).trans hs
    · exact ih hs hc g hg
  | _ => exact hc

def Covers (p : Pattern) (L : List Char → Prop) : Prop :=
  ∀ ⦃c d : Cursor⦄ ⦃cs : List Char⦄, Spans p c d → c.rest = cs ++ d.rest → L cs

def GroupIn (n : Nat) (L : List Char → Prop) : Pattern → Prop
  | seq p q => p.GroupIn n L ∧ q.GroupIn n L
  | alt p q => p.GroupIn n L ∧ q.GroupIn n L
  | many p => p.GroupIn n L
  | lazyMany p => p.GroupIn n L
  | group m p => (m = n → p.Covers L) ∧ p.GroupIn n L
  | _ => True

def HasGroup (n : Nat) : Pattern → Prop
  | seq p q => p.HasGroup n ∨ q.HasGroup n
  | alt p q => p.HasGroup n ∧ q.HasGroup n
  | group m p => m = n ∨ p.HasGroup n
  | _ => False

theorem Spans.group_in {n : Nat} {L : List Char → Prop} (h : Spans p c d) (hp : p.GroupIn n L)
    (hc : ∀ g, (n, g) ∈ c.groups → L g) : ∀ g, (n, g) ∈ d.groups → L g := by
  induction h with
  | one _ => exact hc
  | seq _ _ ihp ihq => exact ihq hp.2 (ihp hp.1 hc)
  | altLeft _ ih => exact ih hp.1 hc
  | altRight _ ih => exact ih hp.2 hc
  | manyCons _ _ ih ihrest => exact ihrest hp (ih hp hc)
  | lazyCons _ _ ih ihrest => exact ihrest hp (ih hp hc)
  | @group m p c d h ih =>
    intro g hg
    obtain ⟨cs, hcs, -⟩ := h.covered (only_true p)
    rw [Cursor.cover_groups hcs] at hg
    rcases List.mem_cons.mp hg with heq | hg
    · cases heq
      exact hp.1 rfl h hcs
    · exact ih hp.2 hc g hg
  | _ => exact hc

theorem Spans.groups_subset (h : Spans p c d) : c.groups ⊆ d.groups := by
  induction h with
  | one _ => exact List.Subset.refl _
  | seq _ _ ihp ihq => exact List.Subset.trans ihp ihq
  | altLeft _ ih => exact ih
  | altRight _ ih => exact ih
  | manyCons _ _ ih ihrest => exact List.Subset.trans ih ihrest
  | lazyCons _ _ ih ihrest => exact List.Subset.trans ih ihrest
  | group _ ih => exact List.Subset.trans ih (List.subset_cons_self _ _)
  | _ => exact List.Subset.refl _

theorem Spans.has_group {n : Nat} (h : Spans p c d) (hp : p.HasGroup n) :
    ∃ g, (n, g) ∈ d.groups := by
  induction h with
  | seq _ hq ihp ihq =>
    rcases hp with hp | hp
    · obtain ⟨g, hg⟩ := ihp hp
      exact ⟨g, hq.groups_subset hg⟩
    · exact ihq hp
  | altLeft _ ih => exact ih hp.1
  | altRight _ ih => exact ih hp.2
  | group _ ih =>
    rcases hp with rfl | hp
    · exact ⟨_, List.mem_cons_self⟩
    · obtain ⟨g, hg⟩ := ih hp
      exact ⟨g, List.mem_cons_of_mem _ hg⟩
  | _ => exact hp.elim

theorem covers_of_only {P : Char → Prop} (hp : p.Only P) : p.Covers fun cs => ∀ x ∈ cs, P x := by
  intro c d cs h hcs
  obtain ⟨ds, hds, hP⟩ := h.covered hp
  rwa [List.append_cancel_right (hcs.symm.trans hds)]

theorem covers_or {q : Pattern} {L : List Char → Prop} (hp : p.Covers L) (hq : q.Covers L) :
    (p ||| q).Covers L := by
  intro c d cs h hcs
  cases h with
  | altLeft h => exact hp h hcs
  | altRight h => exact hq h hcs

theorem covers_opt {L : List Char → Prop} (hp : p.Covers L) :
    (opt p).Covers fun cs => cs = [] ∨ L cs := by
  refine covers_or (fun _ _ _ h hcs => .inr (hp h hcs)) fun c d cs h hcs => ?_
  cases h
  exact .inl (by simpa using hcs)

/-- Two patterns in a row cover a text of each. -/
theorem covers_append {q : Pattern} {L M : List Char → Prop} (hp : p.Covers L) (hq : q.Covers M) :
    (p ++ q).Covers fun cs => ∃ a b, cs = a ++ b ∧ L a ∧ M b := by
  intro c d cs h hcs
  cases h with
  | seq hleft hright =>
    obtain ⟨a, ha, -⟩ := hleft.covered (only_true p)
    obtain ⟨b, hb, -⟩ := hright.covered (only_true q)
    refine ⟨a, b, ?_, hp hleft ha, hq hright hb⟩
    rw [hb, ← List.append_assoc] at ha
    exact List.append_cancel_right (hcs.symm.trans ha)

theorem covers_choice {ps : List Pattern} {L : List Char → Prop} (h : ∀ p ∈ ps, p.Covers L) :
    (choice ps).Covers L := by
  fun_induction choice ps with
  | case1 =>
    intro c d cs hspan
    cases hspan with
    | notAhead hrun => cases hrun
  | case2 p => exact h p (by simp)
  | case3 p ps hne ih => exact covers_or (h p (by simp)) (ih fun q hq => h q (by simp [hq]))

/-- A pattern that asks for one character after the other covers a text that reads so. -/
theorem covers_spelled (g : Char → Char) (cs : List Char) :
    Covers (cs.foldr (fun c p => seq (one fun x => g x == c) p) empty) fun ds => ds.map g = cs := by
  induction cs with
  | nil =>
    intro c d ds h hds
    cases h
    simpa using hds
  | cons x xs ih =>
    intro c d ds h hds
    cases h with
    | seq hone hrest =>
      cases hone with
      | one hx =>
        obtain ⟨es, hes, -⟩ := hrest.covered (only_true _)
        have htail := ih hrest hes
        simp only at hes hds
        rw [hes, ← List.cons_append] at hds
        rw [← List.append_cancel_right hds, List.map_cons, htail, beq_iff_eq.mp hx]

theorem covers_word (s : String) : (word s).Covers fun cs => cs.map foldCase = s.toList :=
  covers_spelled foldCase s.toList

theorem covers_exactly (cs : List Char) : (exactly cs).Covers fun ds => ds = cs := by
  intro c d ds h hds
  simpa using covers_spelled id cs h hds

theorem covers_one (f : Char → Bool) : (one f).Covers fun ds => ∃ x, ds = [x] ∧ f x = true := by
  intro c d ds h hds
  cases h with
  | @one _ y r _ _ hy =>
    have hsame : [y] ++ r = ds ++ r := hds
    exact ⟨y, (List.append_cancel_right hsame).symm, hy⟩

theorem covers_group {L : List Char → Prop} (hp : p.Covers L) (n : Nat) : (group n p).Covers L := by
  intro c d ds h hds
  cases h with
  | group h => exact hp h hds

theorem covers_char (x : Char) : (char x).Covers fun ds => ds = [x] := by
  intro c d ds h hds
  obtain ⟨y, hy, hsame⟩ := covers_one _ h hds
  rw [hy, beq_iff_eq.mp hsame]

theorem covers_words (ss : List String) :
    (words ss).Covers fun cs => ∃ s ∈ ss, cs.map foldCase = s.toList := by
  apply covers_choice
  intro p hp
  obtain ⟨s, hs, rfl⟩ := List.mem_map.mp hp
  exact fun _ _ _ h hcs => ⟨s, hs, covers_word s h hcs⟩

end Scribe.Pattern
