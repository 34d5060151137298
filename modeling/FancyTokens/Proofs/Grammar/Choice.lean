import FancyTokens.Proofs.Grammar.TokenTexts
import FancyTokens.Proofs.Regex.Preference
import Mathlib.Data.List.Nodup

/-!
# Which rule is chosen

A rule misses a text of which its expression takes no beginning, and matches what its expression
prefers (`Rule.exists_attempt_of_prefers`). Of the rules for ordinary source, most miss by the first
character of the text alone (`rootStarts`); the others can be tried as a list of their own
(`exists_choose_root_eq`).
-/

namespace FancyTokens

/-! ## Names -/

theorem Rule.name_of_compile? {d : RuleDef} {rule : Rule} (h : Rule.compile? d = some rule) :
    rule.name = d.name := by
  unfold Rule.compile? at h
  obtain ⟨pattern, -, h⟩ := Option.bind_eq_some_iff.1 h
  dsimp only at h
  split at h
  · cases h
    rfl
  · obtain ⟨lookahead, -, h⟩ := Option.bind_eq_some_iff.1 h
    cases h
    rfl

theorem map_name_of_mapM {defs : List RuleDef} {rules : List Rule}
    (h : defs.mapM Rule.compile? = some rules) : rules.map Rule.name = defs.map RuleDef.name := by
  induction defs generalizing rules with
  | nil =>
    cases h
    rfl
  | cons d defs ih =>
    rw [List.mapM_cons] at h
    obtain ⟨rule, first, h⟩ := Option.bind_eq_some_iff.1 h
    obtain ⟨others, more, h⟩ := Option.bind_eq_some_iff.1 h
    cases h
    rw [List.map_cons, List.map_cons, Rule.name_of_compile? first, ih more]

theorem mapM_balancedRegexRules :
    balancedRegexRules.mapM Rule.compile? = some (fancyTable.rules .balancedRegex) := by
  have compiled := compile?_fancyGrammar
  rw [RuleTable.compile?, fancyGrammar, List.foldlM_cons] at compiled
  obtain ⟨first, -, compiled⟩ := Option.bind_eq_some_iff.1 compiled
  rw [List.foldlM_cons] at compiled
  obtain ⟨second, rules_eq, compiled⟩ := Option.bind_eq_some_iff.1 compiled
  obtain ⟨rules, read, rfl⟩ := Option.map_eq_some_iff.1 rules_eq
  rw [← Option.some.inj compiled]
  exact read

/-- The forms of the rules for a literal between delimiters, in their order. -/
def balancedForms : List Form :=
  literalDelimiters.map fun delimiters => ⟨.whole .regex, literalPattern delimiters, none⟩

theorem map_compile?_balancedRegexRules :
    (balancedRegexRules.map fun d => (Rule.compile? d).map Rule.form) =
      balancedForms.map some := by
  decide +kernel

/-- The names of the rules of a mode with their forms, in their order. -/
def namedForms : Mode → List (String × Form)
  | .root => (rootRules.map RuleDef.name).zip rootForms
  | .balancedRegex => (balancedRegexRules.map RuleDef.name).zip balancedForms

/-- The rules of a mode have these names and forms. -/
theorem map_rules (mode : Mode) :
    (fancyTable.rules mode).map (fun rule => (rule.name, rule.form)) = namedForms mode := by
  rw [← List.zip_map']
  cases mode with
  | root => rw [map_form_rules_root, map_name_of_mapM mapM_rootRules, namedForms]
  | balancedRegex =>
    rw [map_form_of_mapM mapM_balancedRegexRules map_compile?_balancedRegexRules,
      map_name_of_mapM mapM_balancedRegexRules, namedForms]

theorem nodup_names (mode : Mode) : ((namedForms mode).map Prod.fst).Nodup := by
  cases mode <;> decide +kernel

variable {mode : Mode} {rule : Rule} {name : String} {form : Form}

theorem mem_namedForms (mem : rule ∈ fancyTable.rules mode) :
    (rule.name, rule.form) ∈ namedForms mode := by
  rw [← map_rules mode]
  exact List.mem_map_of_mem mem

theorem exists_rule_of_mem_namedForms (listed : (name, form) ∈ namedForms mode) :
    ∃ rule ∈ fancyTable.rules mode, rule.name = name ∧ rule.form = form := by
  rw [← map_rules mode] at listed
  obtain ⟨rule, mem, eq⟩ := List.mem_map.1 listed
  exact ⟨rule, mem, congrArg Prod.fst eq, congrArg Prod.snd eq⟩

/-- The name of a rule tells its form. -/
theorem form_of_name (listed : (name, form) ∈ namedForms mode)
    (mem : rule ∈ fancyTable.rules mode) (named : rule.name = name) : rule.form = form := by
  have own := mem_namedForms mem
  rw [named] at own
  exact congrArg Prod.snd (List.inj_on_of_nodup_map (nodup_names mode) own listed rfl)

theorem form_mem_rootForms (mem : rule ∈ fancyTable.rules .root) : rule.form ∈ rootForms := by
  rw [← map_form_rules_root]
  exact List.mem_map_of_mem mem

theorem exists_rule_of_mem_rootForms (mem : form ∈ rootForms) :
    ∃ rule ∈ fancyTable.rules .root, rule.form = form := by
  rw [← map_form_rules_root] at mem
  exact List.mem_map.1 mem

/-! ## One rule -/

namespace Rule

variable {s w rest : List Char} {m : RuleMatch} {r : Regex} {groups : Nat}

/-- An anchored rule misses a text of which its expression takes nothing. -/
theorem attempt_eq_missed (anchored : rule.pattern.Anchored)
    (h : ∀ w rest, s = w ++ rest → w ≠ [] → ¬ rule.pattern.regex.Takes none w rest) :
    rule.attempt s = .missed := by
  cases attempt : rule.attempt s with
  | missed => rfl
  | torn => exact absurd attempt (attempt_ne_torn anchored)
  | matched m =>
    obtain ⟨w, rest, eq, nonempty, -, -, takes⟩ := fits_of_attempt anchored attempt
    exact absurd takes (h w rest eq nonempty)

theorem attempt_eq_missed_of_misses (mem : rule ∈ fancyTable.rules mode)
    (pattern : rule.pattern = anchoredPattern r groups) (misses : r.Misses none s) :
    rule.attempt s = .missed := by
  apply attempt_eq_missed (fancyTable_anchored mode rule mem)
  intro w rest eq _ takes
  rw [pattern] at takes
  exact misses w rest eq takes.of_textStart_seq

/-- A rule that asks for nothing behind it matches the text that its expression prefers. -/
theorem exists_attempt_of_prefers (mem : rule ∈ fancyTable.rules mode)
    (alone : rule.lookahead = none) (pattern : rule.pattern = anchoredPattern r groups)
    (nonempty : w ≠ []) (prefers : r.Prefers none w rest) :
    ∃ m, rule.attempt (w ++ rest) = .matched m ∧ m.length = byteLength w ∧ m.found.Fits w := by
  have anchored : rule.pattern.regex.anchored = true := by
    rw [pattern]
    rfl
  obtain ⟨found, search, whole⟩ := Pattern.exists_search?_of_prefers anchored
    (by rw [pattern]; exact prefers.textStart_seq)
  obtain ⟨u, v, eq, fits, -⟩ :=
    Pattern.fits_of_search? (fancyTable_anchored mode rule mem _ _ search) search
  -- the text that the match fits is the one that is preferred, as both have its size
  have size : byteLength w = byteLength u := congrArg Span.stop (whole.symm.trans fits.whole)
  obtain ⟨rfl, rfl⟩ := append_inj_of_byteLength eq size
  have consumed : rule.consumed found = byteLength w := consumed_of_fits fits
  refine ⟨⟨found, byteLength w⟩, ?_, rfl, fits⟩
  rw [attempt, search]
  dsimp only
  rw [consumed, if_neg (mt byteLength_eq_zero_iff.1 nonempty), alone]

end Rule

/-! ## The first rule that matches -/

section Choose

variable {rules more : List Rule} {s : List Char} {m : RuleMatch}

theorem choose_of_matched (h : rule.attempt s = .matched m) :
    choose (rule :: rules) s = .rule rule m := by
  rw [choose, h]

theorem choose_of_missed (h : rule.attempt s = .missed) :
    choose (rule :: rules) s = choose rules s := by
  rw [choose, h]

/-- Something is chosen where the text begins as the expression of a form takes it. -/
theorem choose_ne_nothing_of_takes {n : Nat} {action : Action} {r : Regex} {groups : Nat}
    (place : rootForms[n]? = some ⟨action, anchoredPattern r groups, none⟩)
    (advances : r.loopsAdvance = true) (nonempty : r.nullable = false) {w rest : List Char}
    (takes : r.Takes none w rest) : choose (fancyTable.rules .root) (w ++ rest) ≠ .nothing := by
  obtain ⟨rule, mem, form⟩ := exists_rule_of_mem_rootForms (List.mem_of_getElem? place)
  intro nothing
  exact Rule.attempt_ne_missed form advances nonempty takes
    (choose_eq_nothing_iff.1 nothing rule mem)

/-- Rules that miss may be left out. -/
theorem choose_filter {keep : Rule → Bool}
    (others : ∀ rule ∈ rules, keep rule = false → rule.attempt s = .missed) :
    choose (rules.filter keep) s = choose rules s := by
  induction rules with
  | nil => rfl
  | cons r rules ih =>
    obtain ⟨first, others⟩ := List.forall_mem_cons.1 others
    rw [List.filter_cons]
    by_cases kept : keep r = true
    · rw [if_pos kept, choose, choose, ih others]
    · rw [if_neg kept, ih others, choose_of_missed (first (by simpa using kept))]

/-- If all rules for ordinary source but those of some forms miss, the first of these that matches
is chosen. -/
theorem exists_choose_root_eq {forms : List Form}
    (others : ∀ rule ∈ fancyTable.rules .root, rule.form ∉ forms → rule.attempt s = .missed) :
    ∃ rules, rules.map Rule.form = rootForms.filter (· ∈ forms) ∧
      (∀ rule ∈ rules, rule ∈ fancyTable.rules .root) ∧
      choose (fancyTable.rules .root) s = choose rules s := by
  refine ⟨(fancyTable.rules .root).filter (fun rule => rule.form ∈ forms), ?_, ?_, ?_⟩
  · rw [← map_form_rules_root, List.filter_map]
    rfl
  · exact fun rule mem => List.mem_of_mem_filter mem
  · refine (choose_filter fun rule mem out => others rule mem ?_).symm
    simpa using out

/-- Of the rules of some forms, in their order, the first one that matches the text is of the
form, and takes the beginning `w`. -/
def Wins (forms : List Form) (s : List Char) (form : Form) (w : List Char) : Prop :=
  w <+: s ∧ ∀ rules : List Rule, rules.map Rule.form = forms →
    (∀ rule ∈ rules, rule ∈ fancyTable.rules .root) →
    ∃ rule m, choose rules s = .rule rule m ∧ rule.form = form ∧ m.found.Fits w

variable {forms : List Form} {action : Action} {r : Regex} {groups : Nat} {w rest : List Char}

theorem wins_of_prefers (nonempty : w ≠ []) (prefers : r.Prefers none w rest) :
    Wins (⟨action, anchoredPattern r groups, none⟩ :: forms) (w ++ rest)
      ⟨action, anchoredPattern r groups, none⟩ w := by
  refine ⟨List.prefix_append w rest, fun rules same mem => ?_⟩
  obtain ⟨rule, rules, rfl, form, -⟩ := List.map_eq_cons_iff.1 same
  obtain ⟨m, attempt, -, fits⟩ := Rule.exists_attempt_of_prefers (mem rule List.mem_cons_self)
    (congrArg Form.lookahead form) (congrArg Form.pattern form) nonempty prefers
  exact ⟨rule, m, choose_of_matched attempt, form, fits⟩

theorem Wins.of_misses {lookahead : Option Pattern} (misses : r.Misses none s)
    (h : Wins forms s form w) :
    Wins (⟨action, anchoredPattern r groups, lookahead⟩ :: forms) s form w := by
  refine ⟨h.1, fun rules same mem => ?_⟩
  obtain ⟨rule, rules, rfl, first, same⟩ := List.map_eq_cons_iff.1 same
  obtain ⟨memRule, mem⟩ := List.forall_mem_cons.1 mem
  rw [choose_of_missed (Rule.attempt_eq_missed_of_misses memRule (congrArg Form.pattern first)
    misses)]
  exact h.2 rules same mem

/-- What wins among some forms is chosen, if the rules of all other forms miss. -/
theorem Wins.exists_choose (h : Wins forms s form w)
    (ordered : rootForms.filter (· ∈ forms) = forms)
    (others : ∀ rule ∈ fancyTable.rules .root, rule.form ∉ forms → rule.attempt s = .missed) :
    ∃ rule m, choose (fancyTable.rules .root) s = .rule rule m ∧ rule.form = form ∧
      m.found.Fits w := by
  obtain ⟨rules, same, mem, eq⟩ := exists_choose_root_eq others
  rw [eq]
  exact h.2 rules (same.trans ordered) mem

end Choose

/-! ## One character of some -/

namespace Regex

theorem prefers_oneOf {cs : List Char} {c : Char} {before : Option Char} {behind : List Char}
    (mem : c ∈ cs) : Prefers (oneOf cs) before [c] behind := by
  apply prefers_one
  rw [CharClass.covers_ofChars_false]
  exact decide_eq_true mem

theorem misses_oneOf {cs s : List Char} {before : Option Char} (other : ∀ c ∈ s.head?, c ∉ cs) :
    Misses (oneOf cs) before s := by
  refine misses_one fun c head => ?_
  rw [CharClass.covers_ofChars_false]
  exact decide_eq_false (other c head)

/-! ## First characters -/

/-- A text that the expression takes may start with the character. -/
def mayStart : Regex → Char → Bool
  | .one set, c => set.covers c
  | .seq r s, c => r.mayStart c || (r.nullable && s.mayStart c)
  | .alt r s, c => r.mayStart c || s.mayStart c
  | .star _ r, c | .plus _ r, c | .group _ r, c => r.mayStart c
  | _, _ => false

variable {r : Regex} {before : Option Char} {w behind : List Char} {c : Char}

theorem Takes.nullable (h : Takes r before [] behind) : r.nullable = true := by
  by_contra advances
  exact h.ne_nil (Bool.eq_false_iff.2 advances) rfl

theorem Takes.mayStart (h : Takes r before w behind) : ∀ c ∈ w.head?, r.mayStart c = true := by
  -- two texts start as the first one does, unless this is empty
  have head {p q : Char → Bool} {u v : List Char} (first : ∀ c ∈ u.head?, p c = true)
      (second : ∀ c ∈ v.head?, q c = true) :
      ∀ c ∈ (u ++ v).head?, p c = true ∨ u = [] ∧ q c = true := by
    intro c mem
    cases u with
    | nil => exact Or.inr ⟨rfl, second c mem⟩
    | cons d u => exact Or.inl (first c mem)
  induction h with
  | empty | textStart | textEnd | wordBoundary | starNil => simp
  | one covered => simpa [Regex.mayStart] using covered
  | seq first _ ih ih' =>
    intro c mem
    rw [Regex.mayStart, Bool.or_eq_true, Bool.and_eq_true]
    refine (head ih ih' c mem).imp_right fun ⟨gone, starts⟩ => ⟨?_, starts⟩
    rw [gone] at first
    exact first.nullable
  | altLeft _ ih =>
    intro c mem
    rw [Regex.mayStart, ih c mem, Bool.true_or]
  | altRight _ ih =>
    intro c mem
    rw [Regex.mayStart, ih c mem, Bool.or_true]
  | starCons _ _ ih ih' => exact fun c mem => (head ih ih' c mem).elim id And.right
  | plus _ _ ih ih' => exact fun c mem => (head ih ih' c mem).elim id And.right
  | group _ ih => exact ih

theorem mayStart_char (c d : Char) : (char d).mayStart c = decide (c = d) := by
  rw [char, mayStart, CharClass.covers, CharClass.single, List.any_cons,
    ClassItem.covers_range_self]
  simp

theorem mayStart_char_seq (c d : Char) (r : Regex) :
    (seq (char d) r).mayStart c = decide (c = d) := by
  rw [Regex.mayStart, mayStart_char, char, nullable, Bool.false_and, Bool.or_false]

theorem nullable_char (c : Char) : (char c).nullable = false := rfl

theorem nullable_oneOf (cs : List Char) : (oneOf cs).nullable = false := rfl

theorem mayStart_oneOf (cs : List Char) (c : Char) : (oneOf cs).mayStart c = decide (c ∈ cs) :=
  CharClass.covers_ofChars_false cs c

theorem head?_of_mayStart_literal {s : List Char} (h : (literal s).mayStart c = true) :
    s.head? = some c := by
  cases s with
  | nil => cases h
  | cons d s =>
    have same : c = d := by
      cases s with
      | nil => exact of_decide_eq_true ((mayStart_char c d).symm.trans h)
      | cons e s => exact of_decide_eq_true ((mayStart_char_seq c d _).symm.trans h)
    rw [same]
    rfl

theorem exists_of_mayStart_anyWord {words : List (List Char)}
    (h : (anyWord words).mayStart c = true) : ∃ s ∈ words, s.head? = some c := by
  fun_induction anyWord words with
  | case1 => cases h
  | case2 s => exact ⟨s, List.mem_cons_self, head?_of_mayStart_literal h⟩
  | case3 s words _ ih =>
    rw [Regex.mayStart, Bool.or_eq_true] at h
    rcases h with h | h
    · exact ⟨s, List.mem_cons_self, head?_of_mayStart_literal h⟩
    · obtain ⟨t, mem, head⟩ := ih h
      exact ⟨t, List.mem_cons_of_mem _ mem, head⟩

end Regex

/-- The forms of the rules for ordinary source, each with the characters with which a text may start
that it takes. -/
def rootStarts : List (Form × (Char → Bool)) := rootForms.zip [
  isBlank,
  (· = 's'), (· = 's'), (· = 's'), (· = 's'), fun c => c = 'm' || c = '/', (· = 'm'),
  (· = '#'), (· = '\''), (· = '"'), (· = '"'),
  fun c => c.isAlpha || (c = '-' || c = '='), Char.isAlpha, Char.isAlpha, Char.isAlpha,
  (· ∈ operatorChars), (· ∈ punctuationChars),
  Char.isUpper, (· = '@'), (· = '@'), (· = '@'), isNameStart,
  (· = '0'), (· = '0'), (· = '0'), isDecimalDigit, fun c => isDecimalDigit c || c = '.',
  isDecimalDigit]

theorem map_fst_rootStarts : rootStarts.map Prod.fst = rootForms := rfl

theorem starts_of_mayStart : ∀ entry ∈ rootStarts, ∀ c,
    entry.1.pattern.regex.mayStart c = true → entry.2 c = true := by
  have word {names : List String} (letters : ∀ s ∈ names, s.toList.head?.all Char.isAlpha = true)
      {c : Char} (h : (Regex.anyWord (names.map String.toList)).mayStart c = true) :
      c.isAlpha = true := by
    obtain ⟨s, mem, head⟩ := Regex.exists_of_mayStart_anyWord h
    obtain ⟨name, memNames, rfl⟩ := List.mem_map.1 mem
    have letter := letters name memNames
    rwa [head] at letter
  simp only [rootStarts, rootForms, List.zip_cons_cons, List.forall_mem_cons, Form.whole,
    Form.number, numberPattern, anchoredPattern, substitutionPattern, letterPattern,
    Regex.slashLiteral, Regex.maybe, Regex.comment, Regex.symbol, Regex.tripleString, Regex.string,
    Regex.keyword, Regex.wholeWord, Regex.literal, Regex.function, Regex.name, Regex.suffixed,
    Regex.octal, Regex.hexadecimal, Regex.binary, Regex.grouped, Regex.float, Regex.pointed,
    Regex.mayStart_char, Regex.mayStart_oneOf, Regex.nullable_char, Regex.nullable_oneOf,
    Regex.mayStart, Regex.nullable, CharClass.covers_blanks, CharClass.covers_letters,
    CharClass.covers_capitals, CharClass.covers_nameStarts, CharClass.covers_decimalDigits,
    Bool.false_and, Bool.true_and, Bool.and_false, Bool.false_or, Bool.or_false,
    Bool.or_self_left, imp_self, implies_true, true_and, List.zip_nil_left, List.not_mem_nil,
    false_implies, and_true]
  refine ⟨fun c h => ?_, fun c h => word (by decide) h, fun c h => word (by decide) h⟩
  rw [Bool.or_eq_true] at h ⊢
  exact h.imp_left (word (by decide))

/-- A rule misses a text that does not start with one of the characters for its form. -/
theorem Rule.attempt_eq_missed_of_starts (mem : rule ∈ fancyTable.rules .root) {c : Char}
    (other : ∀ entry ∈ rootStarts, entry.1 = rule.form → entry.2 c = false) (s : List Char) :
    rule.attempt (c :: s) = .missed := by
  apply attempt_eq_missed (fancyTable_anchored _ rule mem)
  intro w rest eq nonempty takes
  obtain ⟨d, v, rfl⟩ := List.exists_cons_of_ne_nil nonempty
  obtain ⟨rfl, -⟩ := List.cons.inj eq
  have form := form_mem_rootForms mem
  rw [← map_fst_rootStarts] at form
  obtain ⟨entry, listed, same⟩ := List.mem_map.1 form
  have start : entry.2 c = true := by
    apply starts_of_mayStart entry listed
    rw [same]
    exact takes.mayStart c rfl
  rw [other entry listed same] at start
  cases start

/-- A rule that matches a text is of a form that may start as the text does. -/
theorem Rule.exists_start_of_attempt (mem : rule ∈ fancyTable.rules .root) {c : Char}
    {s : List Char} {m : RuleMatch} (h : rule.attempt (c :: s) = .matched m) :
    ∃ entry ∈ rootStarts, entry.1 = rule.form ∧ entry.2 c = true := by
  by_contra none
  have other : ∀ entry ∈ rootStarts, entry.1 = rule.form → entry.2 c = false :=
    fun entry listed same => Bool.eq_false_iff.2 fun start => none ⟨entry, listed, same, start⟩
  rw [attempt_eq_missed_of_starts mem other] at h
  cases h

end FancyTokens
