import FancyTokens.Proofs.Grammar.Matching
import FancyTokens.Proofs.Regex.Joints

/-!
# Rules match beginnings

A rule whose patterns do not close their anchors' groups themselves matches nothing but beginnings
of a text, the same that its patterns match at the start of a text when they are read alone
(`matches_beginnings`). A pattern that does close the group is not well formed by itself, and its
rule can match elsewhere (`match_beyond_start`).
-/

namespace FancyTokens

/-- The texts of the patterns of a rule. -/
def RuleDef.patterns (d : RuleDef) : List String :=
  d.pattern :: d.lookahead.toList

namespace Rule

variable {d : RuleDef} {rule : Rule}

/-- The lookahead of a compiled rule is the anchored lookahead of its definition. -/
theorem lookahead_of_compile? (h : compile? d = some rule) :
    d.lookahead.map (fun lookahead => Pattern.readAnchored? lookahead.toList) =
      rule.lookahead.map some := by
  obtain ⟨name, pattern, action, transition, lookahead⟩ := d
  obtain ⟨own, -, h⟩ := Option.bind_eq_some_iff.1 h
  cases lookahead with
  | none =>
    cases h
    rfl
  | some lookahead =>
    obtain ⟨read?, given, h⟩ := Option.bind_eq_some_iff.1 h
    obtain ⟨read, behind, rfl⟩ := Option.map_eq_some_iff.1 given
    cases h
    exact congrArg some behind

/-- Every pattern of a compiled rule can be read behind an anchor. -/
theorem isSome_readAnchored?_of_compile? (h : compile? d = some rule) {p : String}
    (mem : p ∈ d.patterns) : (Pattern.readAnchored? p.toList).isSome = true := by
  rcases List.mem_cons.1 mem with rfl | mem
  · rw [(of_compile? h).1]
    rfl
  · have given : d.lookahead = some p := Option.mem_toList.1 mem
    have read := lookahead_of_compile? h
    rw [given, Option.map_some] at read
    obtain ⟨lookahead, -, read⟩ := Option.map_eq_some_iff.1 read.symm
    rw [← read]
    rfl

/-- The compiled lookahead is found in what remains where the lookahead alone matches at its
start. -/
theorem follows_iff (compiled : compile? d = some rule)
    (stay : ∀ l ∈ d.lookahead, ¬ Pattern.EndsAnchor l.toList) (rest : List Char) :
    (∀ lookahead, rule.lookahead = some lookahead → (lookahead.search? rest).isSome = true) ↔
      ∀ l ∈ d.lookahead, ∃ own, Pattern.read? l.toList = some own ∧
        (own.matchAt? (.start rest)).isSome = true := by
  have read := lookahead_of_compile? compiled
  cases given : d.lookahead with
  | none =>
    rw [given] at read
    rw [Option.map_eq_none_iff.1 read.symm]
    exact ⟨fun _ => nofun, fun _ => nofun⟩
  | some l =>
    rw [given] at read
    obtain ⟨lookahead, absent, readable⟩ := Option.map_eq_some_iff.1 read.symm
    obtain ⟨own, readOwn, search⟩ :=
      Pattern.exists_read?_of_readAnchored? readable.symm (stay l given)
    simp only [absent, Option.some.injEq, forall_eq', Option.mem_def, readOwn,
      exists_eq_left', search]

/-- What is cut off a text behind a beginning of it is the rest. -/
theorem exists_cut?_iff {w rest : List Char} {q : List Char → Prop} :
    (∃ a b, cut? (w ++ rest) (byteLength w) = some (a, b) ∧ q b) ↔ q rest := by
  have cut : cut? (w ++ rest) (byteLength w) = some (w, rest) := cut?_eq_some_iff.2 ⟨rfl, rfl⟩
  simp [cut]

end Rule

/-- Of the patterns of a rule that can be compiled, those are well formed by themselves that do not
close the groups of their anchors. Where this is so of all of them, the rule matches nothing but
beginnings of a text: those that its pattern, read alone, takes at the start of the text, which are
not empty, end between two characters and have all groups inside, and behind which the lookahead,
read alone, matches at the start of what remains. -/
theorem matches_beginnings {d : RuleDef} {rule : Rule} (compiled : Rule.compile? d = some rule) :
    (∀ p ∈ d.patterns,
      (Pattern.read? p.toList).isSome = true ↔ ¬ Pattern.EndsAnchor p.toList) ∧
    ((∀ p ∈ d.patterns, ¬ Pattern.EndsAnchor p.toList) →
      ∃ own, Pattern.read? d.pattern.toList = some own ∧ ∀ s, rule.attempt s ≠ .torn ∧
        ∀ m, rule.attempt s = .matched m ↔
          ∃ w rest, s = w ++ rest ∧ w ≠ [] ∧ own.matchAt? (.start s) = some m.found ∧
            m.length = byteLength w ∧ m.found.Fits w ∧
            ∀ lookahead ∈ d.lookahead, ∃ next, Pattern.read? lookahead.toList = some next ∧
              (next.matchAt? (.start rest)).isSome = true) := by
  refine ⟨fun p mem => Pattern.isSome_read?_iff (Rule.isSome_readAnchored?_of_compile? compiled mem),
    fun stay => ?_⟩
  obtain ⟨own, read, search⟩ := Pattern.exists_read?_of_readAnchored? (Rule.of_compile? compiled).1
    (stay _ List.mem_cons_self)
  have anchored : rule.pattern.Anchored := by
    intro s found h
    rw [search] at h
    exact Pattern.start_of_matchAt? h
  have follows := Rule.follows_iff compiled fun l given =>
    stay l (List.mem_cons_of_mem _ (Option.mem_toList.2 given))
  refine ⟨own, read, fun s => ⟨Rule.attempt_ne_torn anchored, fun m => ⟨fun h => ?_, ?_⟩⟩⟩
  · obtain ⟨w, rest, rfl, nonempty, length, fits, -⟩ := Rule.fits_of_attempt anchored h
    obtain ⟨found, -, -, ahead⟩ := Rule.attempt_eq_matched_iff.1 h
    rw [search] at found
    simp only [length, Rule.exists_cut?_iff] at ahead
    exact ⟨w, rest, rfl, nonempty, found, length, fits, (follows rest).1 ahead⟩
  · rintro ⟨w, rest, rfl, nonempty, found, length, fits, ahead⟩
    refine Rule.attempt_eq_matched_iff.2 ⟨(search _).trans found, ?_, ?_, ?_⟩
    · rw [length, Rule.consumed_of_fits fits]
    · rw [length]
      exact mt byteLength_eq_zero_iff.1 nonempty
    · simp only [length, Rule.exists_cut?_iff]
      exact (follows rest).2 ahead

/-- A rule of two alternatives, one with a parenthesis among its characters, before either of two
characters. -/
def parenthesisRule : RuleDef :=
  (RuleDef.byGroups "parenthesis" "a|(b)\\)" [.name]).before "x|[?]"

theorem matches_beginnings_parenthesis : ∃ rule, Rule.compile? parenthesisRule = some rule ∧
    (∀ p ∈ parenthesisRule.patterns, ¬ Pattern.EndsAnchor p.toList) ∧
    rule.attempt "b)?".toList = .matched ⟨⟨⟨0, 2⟩, [some ⟨0, 1⟩]⟩, 2⟩ := by
  have compiles : (Rule.compile? parenthesisRule).isSome = true := by decide +kernel
  have wellFormed : ∀ p ∈ parenthesisRule.patterns, (Pattern.read? p.toList).isSome = true := by
    decide +kernel
  obtain ⟨rule, compiled⟩ := Option.isSome_iff_exists.1 compiles
  obtain ⟨alone, beginnings⟩ := matches_beginnings compiled
  have stay : ∀ p ∈ parenthesisRule.patterns, ¬ Pattern.EndsAnchor p.toList :=
    fun p mem => (alone p mem).1 (wellFormed p mem)
  obtain ⟨own, read, attempts⟩ := beginnings stay
  have found : (Pattern.read? parenthesisRule.pattern.toList).bind
      (·.matchAt? (.start "b)?".toList)) = some ⟨⟨0, 2⟩, [some ⟨0, 1⟩]⟩ := by
    decide +kernel
  have ahead : ∀ l ∈ parenthesisRule.lookahead, ((Pattern.read? l.toList).bind
      (·.matchAt? (.start "?".toList))).isSome = true := by
    decide +kernel
  rw [read] at found
  refine ⟨rule, compiled, stay, ((attempts _).2 _).2
    ⟨"b)".toList, "?".toList, by decide, by decide, found, by decide, ⟨by decide, ?_⟩, ?_⟩⟩
  · intro span mem
    cases List.mem_singleton.1 mem
    exact ⟨[], ['b'], [')'], by decide, by decide, by decide⟩
  · intro l given
    obtain ⟨found, h⟩ := Option.isSome_iff_exists.1 (ahead l given)
    obtain ⟨next, readNext, h⟩ := Option.bind_eq_some_iff.1 h
    exact ⟨next, readNext, by rw [h]; rfl⟩

/-- A rule whose pattern closes the group of the anchor and opens another one. -/
def reopenedRule : RuleDef :=
  .byGroups "reopened" "x)|b(c*" [.name]

/-- The second alternative of such a pattern is not anchored: the rule matches behind a character
that it does not take. -/
theorem match_beyond_start : ∃ rule, Rule.compile? reopenedRule = some rule ∧
    ¬ (∀ s m, rule.attempt s = .matched m →
      (Pattern.read? reopenedRule.pattern.toList).isSome = true ∧ m.found.whole.start = 0) := by
  have found : (Rule.compile? reopenedRule).map (·.attempt "ab".toList) =
      some (.matched ⟨⟨⟨1, 2⟩, [some ⟨2, 2⟩]⟩, 2⟩) := by
    decide +kernel
  obtain ⟨rule, compiled, attempt⟩ := Option.map_eq_some_iff.1 found
  refine ⟨rule, compiled, fun h => ?_⟩
  exact absurd (h _ _ attempt).2 (by decide)

end FancyTokens
