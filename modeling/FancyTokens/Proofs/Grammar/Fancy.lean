import FancyTokens.Grammar.Fancy
import FancyTokens.Proofs.Grammar.Delimited
import FancyTokens.Proofs.Grammar.Matching

/-!
# The rules of Fancy

What is known of the rules of `fancyTable` without looking at the grammar again: all of them are
anchored, those of the mode `balancedRegex` take one literal between delimiters and leave the mode
(`of_mem_rules_balancedRegex`), and of those of the mode `root` only the openers change the mode
(`of_mem_rules_root`).
-/

namespace FancyTokens

/-- The grammar can be read, and each of its patterns asks for the start of the text first. -/
theorem exists_compile?_fancyGrammar : ∃ table, RuleTable.compile? fancyGrammar = some table ∧
    ∀ mode, ∀ rule ∈ table.rules mode, rule.pattern.regex.anchored = true := by
  -- the grammar is read once for both facts
  have checked : (RuleTable.compile? fancyGrammar).any (fun table =>
      [Mode.root, .balancedRegex].all fun mode =>
        (table.rules mode).all (·.pattern.regex.anchored)) = true := by
    decide +kernel
  obtain ⟨table, compiled, anchored⟩ := (Option.any_eq_true _ _).1 checked
  simp only [List.all_cons, List.all_nil, Bool.and_true, Bool.and_eq_true, List.all_eq_true]
    at anchored
  refine ⟨table, compiled, fun mode => ?_⟩
  cases mode with
  | root => exact anchored.1
  | balancedRegex => exact anchored.2

theorem compile?_fancyGrammar : RuleTable.compile? fancyGrammar = some fancyTable := by
  obtain ⟨table, compiled, -⟩ := exists_compile?_fancyGrammar
  rw [fancyTable, compiled, Option.getD_some]

theorem fancyTable_anchored : fancyTable.Anchored := by
  obtain ⟨table, compiled, anchored⟩ := exists_compile?_fancyGrammar
  obtain rfl : fancyTable = table := Option.some.inj (compile?_fancyGrammar.symm.trans compiled)
  exact fun mode rule mem => Pattern.anchored_of_regex (anchored mode rule mem)

theorem mapM_rootRules : rootRules.mapM Rule.compile? = some (fancyTable.rules .root) := by
  have compiled := compile?_fancyGrammar
  rw [RuleTable.compile?, fancyGrammar, List.foldlM_cons] at compiled
  obtain ⟨first, rules_eq, compiled⟩ := Option.bind_eq_some_iff.1 compiled
  obtain ⟨rules, read, rfl⟩ := Option.map_eq_some_iff.1 rules_eq
  rw [List.foldlM_cons] at compiled
  obtain ⟨second, rules_eq, compiled⟩ := Option.bind_eq_some_iff.1 compiled
  obtain ⟨others, -, rfl⟩ := Option.map_eq_some_iff.1 rules_eq
  rw [← Option.some.inj compiled]
  exact read

/-- The first rules of ordinary source can be read without the others. -/
theorem exists_rules_root {n : Nat} {first : List Rule}
    (h : (rootRules.take n).mapM Rule.compile? = some first) :
    ∃ more, fancyTable.rules .root = first ++ more := by
  have all := mapM_rootRules
  rw [← List.take_append_drop n rootRules, List.mapM_append, h] at all
  obtain ⟨_, ⟨⟩, all⟩ := Option.bind_eq_some_iff.1 all
  obtain ⟨more, -, all⟩ := Option.bind_eq_some_iff.1 all
  exact ⟨more, (Option.some.inj all).symm⟩

/-! ## Rules of the mode for regular expressions -/

theorem readAnchored?_balancedRegexRules :
    (balancedRegexRules.map fun d => Pattern.readAnchored? d.pattern.toList) =
      literalDelimiters.map fun delimiters => some (literalPattern delimiters) := by
  decide +kernel

/-- Each rule of the mode gives one token for a literal, and leaves the mode. -/
theorem of_mem_rules_balancedRegex {rule : Rule} (mem : rule ∈ fancyTable.rules .balancedRegex) :
    rule.action = .whole .regex ∧ rule.transition = .pop ∧
      ∃ delimiters ∈ literalDelimiters, rule.pattern = literalPattern delimiters := by
  obtain ⟨defs, memGrammar, d, memDefs, compiled⟩ :=
    RuleTable.exists_of_mem_rules compile?_fancyGrammar mem
  obtain rfl : defs = balancedRegexRules := by simpa [fancyGrammar] using memGrammar
  obtain ⟨pattern, action, transition⟩ := Rule.of_compile? compiled
  have uniform : ∀ d ∈ balancedRegexRules, d.action = .whole .regex ∧ d.transition = .pop := by
    decide
  -- the pattern of the definition is among the patterns of all rules of the mode
  have listed : Pattern.readAnchored? d.pattern.toList ∈
      balancedRegexRules.map fun d => Pattern.readAnchored? d.pattern.toList :=
    List.mem_map_of_mem memDefs
  rw [readAnchored?_balancedRegexRules, pattern] at listed
  obtain ⟨delimiters, memDelimiters, eq⟩ := List.mem_map.1 listed
  rw [action, transition]
  exact ⟨(uniform d memDefs).1, (uniform d memDefs).2, delimiters, memDelimiters,
    (Option.some.inj eq).symm⟩

/-! ## Rules of the mode for ordinary source -/

theorem readAnchored?_openerRules :
    ((rootRules.filter (·.transition ≠ .stay)).map fun d =>
        Pattern.readAnchored? d.pattern.toList) =
      (substitutionDelimiters.map fun delimiters => some (substitutionPattern delimiters)) ++
        [some letterPattern] := by
  decide +kernel

/-- A rule for ordinary source stays in its mode, unless it takes an opener, gives one token for it
and enters the mode for regular expressions. -/
theorem of_mem_rules_root {rule : Rule} (mem : rule ∈ fancyTable.rules .root) :
    rule.transition = .stay ∨
      rule.action = .whole .regex ∧ rule.transition = .push .balancedRegex ∧
        (rule.pattern = letterPattern ∨
          ∃ delimiters ∈ substitutionDelimiters,
            rule.pattern = substitutionPattern delimiters) := by
  obtain ⟨defs, memGrammar, d, memDefs, compiled⟩ :=
    RuleTable.exists_of_mem_rules compile?_fancyGrammar mem
  obtain rfl : defs = rootRules := by simpa [fancyGrammar] using memGrammar
  obtain ⟨pattern, action, transition⟩ := Rule.of_compile? compiled
  rw [action, transition]
  by_cases stays : d.transition = .stay
  · exact .inl stays
  · have uniform : ∀ d ∈ rootRules, d.transition ≠ .stay →
        d.action = .whole .regex ∧ d.transition = .push .balancedRegex := by
      decide
    have listed : Pattern.readAnchored? d.pattern.toList ∈ (rootRules.filter
        (·.transition ≠ .stay)).map fun d => Pattern.readAnchored? d.pattern.toList :=
      List.mem_map_of_mem (List.mem_filter.2 ⟨memDefs, decide_eq_true stays⟩)
    rw [readAnchored?_openerRules, pattern] at listed
    refine .inr ⟨(uniform d memDefs stays).1, (uniform d memDefs stays).2, ?_⟩
    rcases List.mem_append.1 listed with listed | listed
    · obtain ⟨delimiters, memDelimiters, eq⟩ := List.mem_map.1 listed
      exact .inr ⟨delimiters, memDelimiters, (Option.some.inj eq).symm⟩
    · exact .inl (Option.some.inj (List.mem_singleton.1 listed))

end FancyTokens
