import FancyTokens.Grammar.Rule
import FancyTokens.Proofs.Regex.Anchoring

/-!
# Matches of rules

What it means that a rule matches, and that a rule is chosen. A table is anchored when its patterns
find nothing but beginnings of a text; each match of a rule is then such a beginning, cut out and
consumed as a whole (`Rule.fits_of_attempt`), and no match tears the text (`choose_ne_torn`). The
table of a grammar is anchored when every pattern of the grammar is well formed by itself
(`anchored_of_compile?`).
-/

namespace FancyTokens

/-! ## One rule -/

namespace Rule

variable {rule : Rule} {s : List Char} {m : RuleMatch}

/-- A rule matches where its pattern is found, what the match consumes is not empty, and the
lookahead, if there is one, is found behind that. -/
theorem attempt_eq_matched_iff : rule.attempt s = .matched m ↔
    rule.pattern.search? s = some m.found ∧ m.length = rule.consumed m.found ∧ m.length ≠ 0 ∧
      ∀ lookahead, rule.lookahead = some lookahead →
        ∃ w rest, cut? s m.length = some (w, rest) ∧ (lookahead.search? rest).isSome = true := by
  constructor
  · intro h
    unfold attempt at h
    cases search : rule.pattern.search? s with
    | none =>
      rw [search] at h
      cases h
    | some found =>
      rw [search] at h
      dsimp only at h
      split at h
      case isTrue => cases h
      case isFalse nonempty =>
        -- with a lookahead or without one, the match is the same
        cases given : rule.lookahead with
        | none =>
          rw [given] at h
          cases h
          exact ⟨rfl, rfl, nonempty, nofun⟩
        | some lookahead =>
          rw [given] at h
          dsimp only at h
          split at h
          · cases h
          · rename_i w rest cut
            split at h
            case isTrue follows =>
              cases h
              refine ⟨rfl, rfl, nonempty, ?_⟩
              rintro _ ⟨⟩
              exact ⟨w, rest, cut, follows⟩
            case isFalse => cases h
  · rintro ⟨search, length, nonempty, follows⟩
    rw [attempt, search]
    dsimp only
    rw [← length, if_neg nonempty]
    cases given : rule.lookahead with
    | none => rfl
    | some lookahead =>
      obtain ⟨w, rest, cut, found⟩ := follows lookahead given
      dsimp only
      rw [cut]
      exact if_pos found

/-- A rule that matches has found its pattern, and consumes what the match holds. -/
theorem of_attempt_eq_matched (h : rule.attempt s = .matched m) :
    rule.pattern.search? s = some m.found ∧ m.length = rule.consumed m.found ∧ m.length ≠ 0 :=
  have ⟨search, length, nonempty, _⟩ := attempt_eq_matched_iff.1 h
  ⟨search, length, nonempty⟩

/-- Only a text that cannot be cut behind the match is torn. -/
theorem of_attempt_eq_torn (h : rule.attempt s = .torn) :
    ∃ found, rule.pattern.search? s = some found ∧ cut? s (rule.consumed found) = none := by
  unfold attempt at h
  split at h
  · cases h
  · rename_i found search
    dsimp only at h
    split at h
    · cases h
    · split at h
      · cases h
      · split at h
        · exact ⟨found, search, ‹_›⟩
        · split at h <;> cases h

/-- A rule consumes the text that its match fits. -/
theorem consumed_of_fits {found : Pattern.Found} {w : List Char} (fits : found.Fits w) :
    rule.consumed found = byteLength w := by
  unfold consumed
  split <;> simp [fits.whole]

/-- A match of an anchored rule fits the beginning of the text, which is not empty. -/
theorem fits_of_attempt (anchored : rule.pattern.Anchored)
    (h : rule.attempt s = .matched m) :
    ∃ w rest, s = w ++ rest ∧ w ≠ [] ∧ m.length = byteLength w ∧ m.found.Fits w ∧
      rule.pattern.regex.Takes none w rest := by
  obtain ⟨search, length, nonempty⟩ := of_attempt_eq_matched h
  obtain ⟨w, rest, rfl, fits, takes⟩ := Pattern.fits_of_search? (anchored _ _ search) search
  rw [consumed_of_fits fits] at length
  refine ⟨w, rest, rfl, ?_, length, fits, takes⟩
  -- a match of nothing does not count
  rintro rfl
  exact nonempty length

/-- An anchored rule does not tear the text. -/
theorem attempt_ne_torn (anchored : rule.pattern.Anchored) :
    rule.attempt s ≠ .torn := by
  intro h
  obtain ⟨found, search, uncut⟩ := of_attempt_eq_torn h
  obtain ⟨w, rest, rfl, fits, -⟩ := Pattern.fits_of_search? (anchored _ _ search) search
  -- the text can always be cut behind a beginning of it
  have cut : cut? (w ++ rest) (byteLength w) = some (w, rest) := cut?_eq_some_iff.2 ⟨rfl, rfl⟩
  rw [consumed_of_fits fits, cut] at uncut
  cases uncut

end Rule

/-! ## The rules of a mode -/

/-- The rule that is chosen is one of the rules, and it matches. -/
theorem mem_of_choose {rules : List Rule} {s : List Char} {rule : Rule} {m : RuleMatch}
    (h : choose rules s = .rule rule m) : rule ∈ rules ∧ rule.attempt s = .matched m := by
  induction rules with
  | nil => cases h
  | cons r rules ih =>
    rw [choose] at h
    split at h
    · exact ⟨List.mem_cons_of_mem _ (ih h).1, (ih h).2⟩
    · cases h
    · cases h
      exact ⟨List.mem_cons_self, ‹_›⟩

/-- Nothing is chosen where all rules miss. -/
theorem choose_eq_nothing_iff {rules : List Rule} {s : List Char} :
    choose rules s = .nothing ↔ ∀ rule ∈ rules, rule.attempt s = .missed := by
  induction rules with
  | nil => simp [choose]
  | cons r rules ih =>
    rw [List.forall_mem_cons, ← ih, choose]
    cases attempt : r.attempt s with
    | missed => simp
    | torn => simp
    | matched m => simp

/-- The rules behind the one that is chosen do not matter. -/
theorem choose_append {rules : List Rule} (more : List Rule) {s : List Char} {rule : Rule}
    {m : RuleMatch} (h : choose rules s = .rule rule m) :
    choose (rules ++ more) s = .rule rule m := by
  induction rules with
  | nil => cases h
  | cons r rules ih =>
    rw [choose] at h
    rw [List.cons_append, choose]
    split at h
    · exact ih h
    · cases h
    · exact h

/-- Rules tear a text only if one of them does. -/
theorem exists_of_choose_eq_torn {rules : List Rule} {s : List Char} (h : choose rules s = .torn) :
    ∃ rule ∈ rules, rule.attempt s = .torn := by
  induction rules with
  | nil => cases h
  | cons r rules ih =>
    rw [choose] at h
    split at h
    · obtain ⟨rule, mem, torn⟩ := ih h
      exact ⟨rule, List.mem_cons_of_mem _ mem, torn⟩
    · exact ⟨r, List.mem_cons_self, ‹_›⟩
    · cases h

/-! ## Tables -/

/-- No pattern of the table finds anything but beginnings of a text. -/
def RuleTable.Anchored (table : RuleTable) : Prop :=
  ∀ mode, ∀ rule ∈ table.rules mode, rule.pattern.Anchored

/-- The rules of an anchored table do not tear a text. -/
theorem RuleTable.Anchored.choose_ne_torn {table : RuleTable} (anchored : table.Anchored)
    (mode : Mode) (s : List Char) : choose (table.rules mode) s ≠ .torn := by
  intro h
  obtain ⟨rule, mem, torn⟩ := exists_of_choose_eq_torn h
  exact Rule.attempt_ne_torn (anchored mode rule mem) torn

/-- Each pattern of the grammar is well formed by itself, and not only inside the group into which
the anchor puts it. -/
def WellFormed (grammar : List (Mode × List RuleDef)) : Prop :=
  ∀ entry ∈ grammar, ∀ rule ∈ entry.2, (Pattern.read? rule.pattern.toList).isSome = true

instance (grammar : List (Mode × List RuleDef)) : Decidable (WellFormed grammar) :=
  inferInstanceAs (Decidable (∀ entry ∈ grammar, ∀ rule ∈ entry.2, _))

/-- The pattern of a compiled rule is the anchored pattern of its definition, and what it does is
what the definition says. -/
theorem Rule.of_compile? {d : RuleDef} {rule : Rule} (h : Rule.compile? d = some rule) :
    Pattern.readAnchored? d.pattern.toList = some rule.pattern ∧ rule.action = d.action ∧
      rule.transition = d.transition := by
  unfold Rule.compile? at h
  obtain ⟨pattern, read, h⟩ := Option.bind_eq_some_iff.1 h
  dsimp only at h
  split at h
  · cases h
    exact ⟨read, rfl, rfl⟩
  · obtain ⟨lookahead, -, h⟩ := Option.bind_eq_some_iff.1 h
    cases h
    exact ⟨read, rfl, rfl⟩

/-- A well formed pattern makes an anchored rule. -/
theorem Rule.anchored_of_compile? {d : RuleDef} {rule : Rule} (h : Rule.compile? d = some rule)
    (wellFormed : (Pattern.read? d.pattern.toList).isSome = true) : rule.pattern.Anchored := by
  obtain ⟨own, read⟩ := Option.isSome_iff_exists.1 wellFormed
  obtain ⟨pattern, -, -⟩ := Rule.of_compile? h
  rw [Pattern.readAnchored?_of_read? read] at pattern
  rw [← Option.some.inj pattern]
  exact Pattern.anchored_of_regex (Regex.anchored_textStart_followedBy own.regex)

/-- Each of some compiled rules stems from one of the definitions. -/
theorem exists_of_mem_compiled {defs : List RuleDef} {rules : List Rule}
    (h : defs.mapM Rule.compile? = some rules) :
    ∀ rule ∈ rules, ∃ d ∈ defs, Rule.compile? d = some rule := by
  induction defs generalizing rules with
  | nil =>
    cases h
    simp
  | cons d defs ih =>
    rw [List.mapM_cons] at h
    obtain ⟨first, compiled, h⟩ := Option.bind_eq_some_iff.1 h
    obtain ⟨later, more, h⟩ := Option.bind_eq_some_iff.1 h
    cases h
    intro rule mem
    rcases List.mem_cons.1 mem with rfl | mem
    · exact ⟨d, List.mem_cons_self, compiled⟩
    · obtain ⟨d', mem', compiled'⟩ := ih more rule mem
      exact ⟨d', List.mem_cons_of_mem _ mem', compiled'⟩

/-- Each rule of a table stems from a definition that the grammar lists for its mode. -/
theorem RuleTable.exists_of_mem_rules {grammar : List (Mode × List RuleDef)} {table : RuleTable}
    (h : RuleTable.compile? grammar = some table) {mode : Mode} {rule : Rule}
    (mem : rule ∈ table.rules mode) :
    ∃ defs, (mode, defs) ∈ grammar ∧ ∃ d ∈ defs, Rule.compile? d = some rule := by
  -- entry by entry, from a table that has no rules of other origin
  have start : rule ∉ RuleTable.empty.rules mode := List.not_mem_nil
  unfold RuleTable.compile? at h
  generalize RuleTable.empty = first at h start
  induction grammar generalizing first with
  | nil =>
    cases h
    exact absurd mem start
  | cons entry grammar ih =>
    obtain ⟨mode', defs⟩ := entry
    rw [List.foldlM_cons] at h
    obtain ⟨second, compiled, h⟩ := Option.bind_eq_some_iff.1 h
    obtain ⟨rules, compiledRules, rfl⟩ := Option.map_eq_some_iff.1 compiled
    -- the rule is there after this entry, or comes with a later one
    by_cases here : rule ∈ (first.set mode' rules).rules mode
    · simp only [RuleTable.set] at here
      split at here
      · rename_i same
        subst same
        obtain ⟨d, memDefs, compiledRule⟩ := exists_of_mem_compiled compiledRules rule here
        exact ⟨defs, List.mem_cons_self, d, memDefs, compiledRule⟩
      · exact absurd here start
    · obtain ⟨defs', memGrammar, origin⟩ := ih _ h here
      exact ⟨defs', List.mem_cons_of_mem _ memGrammar, origin⟩

/-- The table of a well formed grammar is anchored. -/
theorem RuleTable.anchored_of_compile? {grammar : List (Mode × List RuleDef)} {table : RuleTable}
    (wellFormed : WellFormed grammar) (h : RuleTable.compile? grammar = some table) :
    table.Anchored := by
  intro mode rule mem
  obtain ⟨defs, memGrammar, d, memDefs, compiled⟩ := exists_of_mem_rules h mem
  exact Rule.anchored_of_compile? compiled (wellFormed _ memGrammar d memDefs)

end FancyTokens
