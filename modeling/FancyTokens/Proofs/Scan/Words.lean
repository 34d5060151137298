import FancyTokens.Proofs.Grammar.Labels
import FancyTokens.Proofs.Scan.RegexMode

/-!
# Tokens of words

Where a letter or an underscore stands in ordinary source and no regular expression is announced,
the next token is the word that `classifyWord` tells. A reserved word in a source is therefore never
the beginning of a longer name, and it is taken for a plain name only before a word character beyond
ASCII (`words_are_classified`).
-/

namespace FancyTokens

/-- The names of the rules that may come before words: those for what announces a regular
expression, and for one between slashes. -/
def regexRuleNames : List String := [
  "substitution-brace", "substitution-angle", "substitution-bracket", "substitution-paren",
  "regex-slash", "regex-open"]

/-- The categories of words, labels apart. -/
def wordCategories : List Category :=
  [.keyword, .constant, .builtin, .name]

theorem name_mem_regexRuleNames {rule : Rule} (mem : rule ∈ fancyTable.rules .root)
    (regex : rule.form ∈ regexForms) : rule.name ∈ regexRuleNames := by
  have checked : ∀ entry ∈ namedForms .root, entry.2 ∈ regexForms → entry.1 ∈ regexRuleNames := by
    decide +kernel
  exact checked _ (mem_namedForms mem) regex

/-- The rules for words stand behind those for regular expressions. -/
theorem no_regex_of_choose {s : List Char} {rule : Rule} {m : RuleMatch}
    (chosen : choose (fancyTable.rules .root) s = .rule rule m) (word : rule.form ∈ wordForms) :
    ∀ r ∈ fancyTable.rules .root, r.form ∈ regexForms → r.attempt s = .missed := by
  have behind : ∀ form ∈ wordForms, form ∉ rootForms.take 11 := by decide +kernel
  have before : ∀ form ∈ regexForms, form ∉ rootForms.drop 11 := by decide +kernel
  intro r mem regex
  refine missed_of_choose chosen (behind _ word) r ?_
  rw [← List.take_append_drop 11 (fancyTable.rules .root), List.mem_append] at mem
  refine mem.resolve_right fun late => before _ regex ?_
  rw [← map_form_rules_root, ← List.map_drop]
  exact List.mem_map_of_mem late

/-- Only the rules for words give words. -/
theorem word_of_mem_categories {rule : Rule} (mem : rule ∈ fancyTable.rules .root)
    {category : Category} (listed : category ∈ rule.action.categories)
    (kind : category ∈ wordCategories) :
    rule.form ∈ wordForms ∧ rule.action = .whole category := by
  have checked : ∀ form ∈ rootForms, ∀ category ∈ form.action.categories,
      category ∈ wordCategories → form ∈ wordForms ∧ form.action = .whole category := by
    decide +kernel
  exact checked _ (form_mem_rootForms mem) category listed kind

namespace Scan

variable {scan : Scan} {step : Step} {c : Char} {s : List Char} {t : Token}

/-- Where no regular expression is announced, the step gives the word that stands there. -/
theorem exists_step_word (top : scan.stack.top = .root) (rest : scan.rest = some (c :: s))
    (start : isNameStart c = true)
    (no_regex : ∀ rule ∈ fancyTable.rules .root, rule.form ∈ regexForms →
      rule.attempt (c :: s) = .missed) :
    ∃ step, scan.step? fancyTable = some step ∧
      step.tokens = [.ofText (classifyWord (c :: s)).1 scan.offset (classifyWord (c :: s)).2] := by
  obtain ⟨rule, m, chosen, action, fits, beginning⟩ := exists_choose_word start no_regex
  rw [← top] at chosen
  obtain ⟨step, taken, given⟩ := exists_step_of_choose fancyTable_anchored rest chosen
  refine ⟨step, taken, ?_⟩
  rw [action, emission?_whole_of_prefix _ beginning fits] at given
  exact (Option.some.inj given).symm

/-- A step that gives a word gives the one that stands there. -/
theorem word_of_mem_step (taken : scan.step? fancyTable = some step) (rest : scan.rest = some s)
    (mem : t ∈ step.tokens) (kind : t.category ∈ wordCategories)
    (start : t.text.head?.any isNameStart = true) :
    t = .ofText (classifyWord s).1 scan.offset (classifyWord s).2 := by
  have apart : ∀ category ∈ wordCategories,
      category ∉ [Category.whitespace, .error, .text, .regex] := by
    decide
  obtain ⟨top, rule, m, chosen, listed, given⟩ :=
    exists_rule_of_mem_step taken rest mem (apart _ kind)
  obtain ⟨memRule, attempt⟩ := mem_of_choose chosen
  obtain ⟨word, action⟩ := word_of_mem_categories memRule listed kind
  obtain ⟨w, left, rfl, nonempty, -, fits, -⟩ :=
    Rule.fits_of_attempt (fancyTable_anchored _ rule memRule) attempt
  rw [action, emission?_whole t.category fits] at given
  have tokens : step.tokens = [.ofText t.category scan.offset w] := (Option.some.inj given).symm
  rw [tokens, List.mem_singleton] at mem
  -- the text of the token starts as the source does
  obtain ⟨c, v, rfl⟩ := List.exists_cons_of_ne_nil nonempty
  rw [mem] at start
  obtain ⟨step', taken', tokens'⟩ :=
    exists_step_word top rest start (no_regex_of_choose chosen word)
  rw [taken, Option.some.injEq] at taken'
  rw [← taken', tokens, List.cons.injEq] at tokens'
  exact mem.trans tokens'.1

end Scan

/-- Where a letter or an underscore stands in ordinary source and no regular expression is
announced, the next token is the word that the classification tells. A reserved word in a source is
never the beginning of a longer name. It is given as such exactly where no word character follows,
and as a plain name only before one beyond ASCII. -/
theorem words_are_classified :
    (∀ (scan : Scan) (c : Char) (s : List Char), scan.stack.top = .root →
      scan.rest = some (c :: s) → isNameStart c = true →
      (∀ rule ∈ fancyTable.rules .root, rule.name ∈ regexRuleNames →
        ∀ m, rule.attempt (c :: s) ≠ .matched m) →
      (Cursor.next fancyTable ⟨scan, []⟩).1 =
        some (.ofText (classifyWord (c :: s)).1 scan.offset (classifyWord (c :: s)).2)) ∧
    ∀ source, ∀ t ∈ tokenize source, ∀ category, reservedCategory? t.text = some category →
      t.category ∈ wordCategories →
      ∃ before behind, source = before ++ t.text ++ behind ∧ t.start = byteLength before ∧
        (∀ d ∈ behind.head?, isNamePart d = false) ∧
        (t.category = category ∧ behind.head?.any isWordCharacter = false ∨
          t.category ∈ [.constant, .name] ∧ t.category ≠ category ∧
            ∃ d, behind.head? = some d ∧ isWordCharacter d = true ∧ 128 ≤ d.toNat) := by
  constructor
  · intro scan c s top rest start no_match
    have no_regex : ∀ rule ∈ fancyTable.rules .root, rule.form ∈ regexForms →
        rule.attempt (c :: s) = .missed := by
      intro rule mem regex
      cases attempt : rule.attempt (c :: s) with
      | missed => rfl
      | torn => exact absurd attempt (Rule.attempt_ne_torn (fancyTable_anchored _ rule mem))
      | matched m => exact absurd attempt (no_match rule mem (name_mem_regexRuleNames mem regex) m)
    obtain ⟨step, taken, tokens⟩ := Scan.exists_step_word top rest start no_regex
    rw [Cursor.next_of_step?_eq_some taken, tokens, Cursor.next_of_queue]
  · intro source t mem category reserved kind
    obtain ⟨place, step, w, left, rfl, behind, taken, memStep, -⟩ :=
      (Scan.behind_start source).exists_step_of_mem_tokens fancyTable_anchored t mem
    have word := Scan.word_of_mem_step taken behind.rest memStep kind
      (isNameStart_of_reserved reserved)
    have text : t.text = (classifyWord left).2 := congrArg Token.text word
    have own : t.category = (classifyWord left).1 := congrArg Token.category word
    have start : t.start = place.offset := congrArg Token.start word
    rw [text] at reserved ⊢
    obtain ⟨name, ending⟩ := classifyWord_of_reserved reserved
    refine ⟨w, left.dropWhile isNamePart, ?_, ?_, ?_, own ▸ ending⟩
    · rw [name, List.append_assoc, List.takeWhile_append_dropWhile]
    · rw [start, behind.offset]
      rfl
    · exact fun d head => head?_dropWhile_eq_false head

/-- Before a word character beyond ASCII a keyword is a plain name. -/
theorem words_are_classified_def :
    (Cursor.next fancyTable (.start ['d', 'e', 'f', 'é'])).1 =
        some (.ofText .name 0 ['d', 'e', 'f']) ∧
      ∃ t ∈ tokenize ['d', 'e', 'f', 'é'], reservedCategory? t.text = some .keyword ∧
        t.category ∈ wordCategories ∧ ∃ before behind, ['d', 'e', 'f', 'é'] =
          before ++ t.text ++ behind ∧ t.start = byteLength before ∧
            (∀ d ∈ behind.head?, isNamePart d = false) ∧
            (t.category = .keyword ∧ behind.head?.any isWordCharacter = false ∨
              t.category ∈ [.constant, .name] ∧ t.category ≠ .keyword ∧
                ∃ d, behind.head? = some d ∧ isWordCharacter d = true ∧ 128 ≤ d.toNat) := by
  have no_match : ∀ rule ∈ fancyTable.rules .root, rule.name ∈ regexRuleNames →
      ∀ m, rule.attempt ['d', 'e', 'f', 'é'] ≠ .matched m := by
    intro rule mem regex m
    have form : rule.form ∈ regexForms := by
      have checked : ∀ entry ∈ namedForms .root, entry.1 ∈ regexRuleNames →
          entry.2 ∈ regexForms := by
        decide +kernel
      exact checked _ (mem_namedForms mem) regex
    have checked : ∀ entry ∈ rootStarts, entry.1 ∈ regexForms → entry.2 'd' = false := by
      decide +kernel
    rw [Rule.attempt_eq_missed_of_starts mem fun entry listed same =>
      checked entry listed (same ▸ form)]
    nofun
  have first := words_are_classified.1 (.start ['d', 'e', 'f', 'é']) 'd' ['e', 'f', 'é'] rfl rfl
    (by decide) no_match
  have word : classifyWord ['d', 'e', 'f', 'é'] = (.name, ['d', 'e', 'f']) := by decide +kernel
  rw [word] at first
  have mem : Token.ofText .name 0 ['d', 'e', 'f'] ∈ tokenize ['d', 'e', 'f', 'é'] := by
    have handed := Cursor.next_after fancyTable (.start ['d', 'e', 'f', 'é']) 0
    rw [Cursor.after, Cursor.start, first, ← Cursor.start, Cursor.remaining_start] at handed
    exact List.mem_of_getElem? handed.symm
  have reserved : reservedCategory? ['d', 'e', 'f'] = some .keyword := by decide
  exact ⟨first, _, mem, reserved, by decide,
    words_are_classified.2 _ _ mem .keyword reserved (by decide)⟩

end FancyTokens
