import Scribe.Proofs.Script.CoverageStep
import Scribe.Proofs.Script.Numerals
import Scribe.Proofs.Script.StatementReading

/-!
# The reader is exact

On every script that is cut into tokens the reader and the grammar agree: it returns a program if
and only if the grammar derives that program from the tokens, and no tokens have two programs. A
script that the grammar does not derive is refused with what would have fitted.
-/
namespace Scribe.Script

theorem parse_of_tokenize {source : List Char} {tokens : List Token}
    (h : tokenize source = .ok tokens) :
    parse source = (parseTokens tokens).mapError Failure.fault := by
  simp only [parse, h]

theorem parse_eq_ok_iff {source : List Char} {tokens : List Token}
    (h : tokenize source = .ok tokens) {p : Program} :
    parse source = .ok p ↔ parseTokens tokens = .ok p := by
  rw [parse_of_tokenize h]
  cases parseTokens tokens with
  | ok q =>
    change Except.ok q = .ok p ↔ _
    rw [Except.ok.injEq, Except.ok.injEq]
  | error failure => exact ⟨nofun, nofun⟩

theorem parseTokens_of_parse {source : List Char} {p : Program} (h : parse source = .ok p) :
    ∃ tokens, tokenize source = .ok tokens ∧ parseTokens tokens = .ok p := by
  cases htokens : tokenize source with
  | error fault =>
    rw [parse, htokens] at h
    cases h
  | ok tokens =>
    rw [parse_eq_ok_iff htokens] at h
    exact ⟨tokens, rfl, h⟩

theorem derives_of_parse {source : List Char} {p : Program} (h : parse source = .ok p) :
    ∃ tokens, tokenize source = .ok tokens ∧ Derives (.program p) tokens := by
  obtain ⟨tokens, htokens, hparse⟩ := parseTokens_of_parse h
  exact ⟨tokens, htokens, derives_of_parseTokens (readable_of_tokenize htokens) hparse⟩

/-- The state that the reader reaches at the end of a script. -/
theorem reads_of_parse {source : List Char} {p : Program} (h : parse source = .ok p) :
    ∃ tokens s, tokenize source = .ok tokens ∧ State.initial.Reads tokens s ∧
      s.finish = .ok p := by
  obtain ⟨tokens, htokens, hparse⟩ := parseTokens_of_parse h
  rw [parseTokens] at hparse
  obtain ⟨s, hread, hfinish⟩ := Outcome.bind_eq_ok.mp hparse
  exact ⟨tokens, s, htokens, hread, hfinish⟩

/-- No tokens have two programs. -/
theorem Derives.program_unique {p q : Program} {ts : List Token} (hp : Derives (.program p) ts)
    (hq : Derives (.program q) ts) : p = q := by
  have h := hp.parseTokens.symm.trans hq.parseTokens
  exact Except.ok.inj h

theorem parseTokens_iff_derives {p : Program} {ts : List Token} (hr : ∀ t ∈ ts, t.Readable) :
    parseTokens ts = .ok p ↔ Derives (.program p) ts :=
  ⟨derives_of_parseTokens hr, Derives.parseTokens⟩

theorem Failure.fault_unexpected (f : Failure) :
    ∃ expected found line, f.fault = ⟨.unexpected expected found, some line⟩ := by
  unfold Failure.fault
  split
  · exact ⟨_, _, _, rfl⟩
  · exact ⟨_, _, _, rfl⟩

theorem parse_exact {source : List Char} {tokens : List Token}
    (h : tokenize source = .ok tokens) :
    (∀ p, parse source = .ok p ↔ Derives (.program p) tokens) ∧
    (∀ (ts : List Token) (p q : Program),
      Derives (.program p) ts → Derives (.program q) ts → p = q) ∧
    ((¬ ∃ p, Derives (.program p) tokens) →
      ∃ expected found line, parse source = .error ⟨.unexpected expected found, some line⟩) := by
  have hiff (p : Program) : parse source = .ok p ↔ Derives (.program p) tokens := by
    rw [parse_eq_ok_iff h, parseTokens_iff_derives (readable_of_tokenize h)]
  refine ⟨hiff, fun ts p q hp hq => hp.program_unique hq, fun hnone => ?_⟩
  cases hparse : parseTokens tokens with
  | ok p => exact absurd ⟨p, (parseTokens_iff_derives (readable_of_tokenize h)).mp hparse⟩ hnone
  | error failure =>
    obtain ⟨expected, found, line, hfault⟩ := failure.fault_unexpected
    refine ⟨expected, found, line, ?_⟩
    rw [parse_of_tokenize h, hparse, ← hfault]
    rfl

theorem parse_exact_block :
    Derives (.program [.choose 1 [(.var "x", [.print 2 (.lit (.text "y"))])] none])
      [⟨.keyword .ifWord, "if", 1, 1⟩, ⟨.identifier, "x", 1, 4⟩, ⟨.colon, ":", 1, 5⟩,
        ⟨.newline, "", 1, 6⟩, ⟨.indent, "", 2, 1⟩, ⟨.keyword .neuro, "neuro", 2, 3⟩,
        ⟨.string, "y", 2, 9⟩, ⟨.newline, "", 2, 12⟩, ⟨.dedent, "", 2, 1⟩] := by
  have htokens : tokenize "if x:\n  neuro \"y\"".toList = .ok
      [⟨.keyword .ifWord, "if", 1, 1⟩, ⟨.identifier, "x", 1, 4⟩, ⟨.colon, ":", 1, 5⟩,
        ⟨.newline, "", 1, 6⟩, ⟨.indent, "", 2, 1⟩, ⟨.keyword .neuro, "neuro", 2, 3⟩,
        ⟨.string, "y", 2, 9⟩, ⟨.newline, "", 2, 12⟩, ⟨.dedent, "", 2, 1⟩] := rfl
  exact ((parse_exact htokens).1 _).mp rfl

end Scribe.Script
