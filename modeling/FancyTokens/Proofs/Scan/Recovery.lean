import FancyTokens.Proofs.Grammar.Literals
import FancyTokens.Proofs.Grammar.Numbers
import FancyTokens.Proofs.Scan.Coverage

/-!
# Where ordinary source holds errors

In ordinary source the scanner recovers from a character exactly where `Recovers` says: from
characters that start no token at all, and from points and quotation marks that are left alone. The
first character decides for all rules but those for numbers with a point, symbols and strings
(`rootStarts`).
-/

namespace FancyTokens

/-- The characters of ASCII that may start a token, besides letters, digits and white space. -/
def markChars : List Char :=
  ['_', '#', '@', '\'', '"', '.'] ++ operatorChars ++ punctuationChars

/-- No token of ordinary source starts with the character where the text follows. -/
inductive Recovers : Char → List Char → Prop
  | ascii {c s} : c.toNat < 128 → c.isAlphanum = false → isBlank c = false → c ∉ markChars →
      Recovers c s
  | beyond {c s} : 128 ≤ c.toNat → isBlank c = false → isDecimalDigit c = false → Recovers c s
  /-- A point before no digit. -/
  | point {s} : (∀ d ∈ s.head?, isDecimalDigit d = false) → Recovers '.' s
  /-- An apostrophe without a symbol. -/
  | quote {s} : ¬ ['[', ']'] <+: s →
      (∀ d ∈ s.head?, d ∈ ['\'', '[', ']', '(', ')', '\x7b', '\x7d', ','] ∨ isBlank d = true) →
      Recovers '\'' s
  /-- A quotation mark without another one that ends the string. -/
  | quotation {s} : ¬ DelimitedRule.string.delimiters.Closed ('"' :: s) →
      ¬ DelimitedRule.tripleString.delimiters.Closed ('"' :: s) → Recovers '"' s

variable {c d : Char} {s : List Char}

/-! ## Texts that no rule takes -/

/-- Nothing is chosen where the rules that may start with the character miss. -/
theorem choose_eq_nothing_of_starts
    (h : ∀ rule ∈ fancyTable.rules .root, ∀ entry ∈ rootStarts, entry.1 = rule.form →
      entry.2 c = true → rule.attempt (c :: s) = .missed) :
    choose (fancyTable.rules .root) (c :: s) = .nothing := by
  refine choose_eq_nothing_iff.2 fun rule mem => ?_
  by_contra hit
  refine hit (Rule.attempt_eq_missed_of_starts mem (fun entry listed same => ?_) s)
  exact Bool.eq_false_iff.2 fun start => hit (h rule mem entry listed same start)

/-- Nothing is chosen where the only expression that may start with the character misses. -/
theorem choose_eq_nothing_of_misses (r : Regex) (groups : Nat)
    (only : ∀ entry ∈ rootStarts, entry.2 c = true → entry.1.pattern = anchoredPattern r groups)
    (misses : r.Misses none (c :: s)) : choose (fancyTable.rules .root) (c :: s) = .nothing := by
  refine choose_eq_nothing_of_starts fun rule mem entry listed same start => ?_
  have pattern := only entry listed start
  rw [same] at pattern
  exact Rule.attempt_eq_missed_of_misses mem pattern misses

/-- Beyond ASCII only white space and digits start a token. -/
theorem starts_eq_false_of_beyond (beyond : 128 ≤ c.toNat) (white : isBlank c = false)
    (digit : isDecimalDigit c = false) : ∀ entry ∈ rootStarts, entry.2 c = false := by
  have other {d : Char} (ascii : d.toNat < 128) : c ≠ d := by
    rintro rfl
    omega
  have numbers : ∀ entry ∈ rootStarts.drop 22, entry.2 c = false := by
    simp only [rootStarts, rootForms, List.zip_cons_cons, List.zip_nil_left, List.drop_succ_cons,
      List.drop_zero, List.forall_mem_cons]
    simp (disch := decide) [other, digit]
  intro entry listed
  rw [← List.take_append_drop 22 rootStarts, List.mem_append] at listed
  exact listed.elim (starts_beyond beyond white entry) (numbers entry)

theorem takes_float {u v : List Char} (eq : '.' :: s = u ++ v) (h : Regex.float.Takes none u v) :
    ∃ d ∈ s.head?, isDecimalDigit d = true := by
  obtain ⟨a, b, rfl, number, -⟩ := h.exists_of_seq
  cases number with
  | group number =>
    rw [List.append_assoc] at eq
    -- the number starts with the point
    have head : ∀ c ∈ a.head?, isDecimalDigit c = false := by
      intro c mem
      obtain ⟨a, rfl⟩ := List.head?_eq_some_iff.1 mem
      obtain ⟨rfl, -⟩ := List.cons.inj eq
      decide
    obtain ⟨digits, ⟨nonempty, all⟩, rfl⟩ := number.exists_of_pointed head
    obtain ⟨d, digits, rfl⟩ := List.exists_cons_of_ne_nil nonempty
    obtain ⟨-, rfl⟩ := List.cons.inj eq
    exact ⟨d, rfl, all d List.mem_cons_self⟩

theorem takes_symbol {u v : List Char} (eq : '\'' :: s = u ++ v) (h : Regex.symbol.Takes none u v) :
    ['[', ']'] <+: s ∨ ∃ d ∈ s.head?,
      d ∉ ['\'', '[', ']', '(', ')', '\x7b', '\x7d', ','] ∧ isBlank d = false := by
  rcases h.fits_symbol with rfl | ⟨name, nonempty, rfl, all⟩
  · exact Or.inl ⟨v, (List.cons.inj eq).2.symm⟩
  · obtain ⟨d, name, rfl⟩ := List.exists_cons_of_ne_nil nonempty
    obtain ⟨-, rfl⟩ := List.cons.inj eq
    exact Or.inr ⟨d, rfl, all d List.mem_cons_self⟩

/-- Where no token starts, no rule matches. -/
theorem Recovers.choose_eq_nothing (h : Recovers c s) :
    choose (fancyTable.rules .root) (c :: s) = .nothing := by
  cases h with
  | ascii ascii noAlphanum white noMark =>
    refine choose_eq_nothing_of_starts fun rule _ entry listed _ start => ?_
    have checked : ∀ entry ∈ rootStarts, entry.2 c = false :=
      of_ascii (p := fun c => c.isAlphanum = false → isBlank c = false → c ∉ markChars →
        ∀ entry ∈ rootStarts, entry.2 c = false) (by decide +kernel) ascii noAlphanum white noMark
    rw [checked entry listed] at start
    cases start
  | beyond beyond white digit =>
    refine choose_eq_nothing_of_starts fun rule _ entry listed _ start => ?_
    rw [starts_eq_false_of_beyond beyond white digit entry listed] at start
    cases start
  | point noDigit =>
    refine choose_eq_nothing_of_misses .float 2 (by decide +kernel) fun u v eq takes => ?_
    obtain ⟨d, head, digit⟩ := takes_float eq takes
    rw [noDigit d head] at digit
    cases digit
  | quote noBrackets other =>
    refine choose_eq_nothing_of_misses .symbol 1 (by decide +kernel) fun u v eq takes => ?_
    obtain brackets | ⟨d, head, part, ink⟩ := takes_symbol eq takes
    · exact noBrackets brackets
    · rcases other d head with bracket | white
      · exact part bracket
      · rw [ink] at white
        cases white
  | quotation noString noTriple =>
    refine choose_eq_nothing_of_starts fun rule mem entry listed same start => ?_
    have only : ∀ entry ∈ rootStarts, entry.2 '"' = true →
        entry.1 = .whole .string .string 1 ∨ entry.1 = .whole .string .tripleString 1 := by
      decide +kernel
    rcases only entry listed start with form | form
    · refine attempt_eq_missed_of_not_closed mem ?_ noString
      rw [← same, form]
      exact ⟨_, 1, rfl, rfl, Regex.delimits_string⟩
    · refine attempt_eq_missed_of_not_closed mem ?_ noTriple
      rw [← same, form]
      exact ⟨_, 1, rfl, rfl, Regex.delimits_tripleString⟩

/-! ## Texts that some rule takes -/

section Taken

open Regex

variable (nothing : choose (fancyTable.rules .root) (c :: s) = .nothing)
include nothing

/-- Where nothing is chosen, the first character is none that an expression takes alone. -/
theorem covers_eq_false_of_choose {n : Nat} {action : Action} {r : Regex} {groups : Nat}
    (place : rootForms[n]? = some ⟨action, anchoredPattern r groups, none⟩)
    (advances : r.loopsAdvance = true) (nonempty : r.nullable = false) {set : CharClass}
    (alone : ∀ {c behind}, set.covers c = true → r.Takes none [c] behind) :
    set.covers c = false :=
  Bool.eq_false_iff.2 fun covered =>
    choose_ne_nothing_of_takes place advances nonempty (w := [c]) (alone covered) nothing

theorem isBlank_of_choose : isBlank c = false := by
  rw [← CharClass.covers_blanks]
  exact covers_eq_false_of_choose nothing (n := 0) rfl rfl rfl
    fun covered => .plus (u := [_]) (.one covered) .starNil

theorem isDecimalDigit_of_choose : isDecimalDigit c = false := by
  rw [← CharClass.covers_decimalDigits]
  refine covers_eq_false_of_choose nothing (n := 27) rfl rfl rfl
    fun covered => .plus (u := [_]) (.one covered) .starNil

theorem isNameStart_of_choose : isNameStart c = false := by
  rw [← CharClass.covers_nameStarts]
  exact covers_eq_false_of_choose nothing (n := 21) rfl rfl rfl
    fun covered => .seq (u := [_]) (.one covered) .starNil

theorem notMem_operatorChars_of_choose : c ∉ operatorChars := by
  rw [← decide_eq_false_iff_not, ← CharClass.covers_ofChars_false]
  exact covers_eq_false_of_choose nothing (n := 15) rfl rfl rfl
    fun covered => .plus (u := [_]) (.one covered) .starNil

theorem notMem_punctuationChars_of_choose : c ∉ punctuationChars := by
  rw [← decide_eq_false_iff_not, ← CharClass.covers_ofChars_false]
  exact covers_eq_false_of_choose nothing (n := 16) rfl rfl rfl fun covered => .one covered

theorem ne_sigil_of_choose : c ≠ '@' := by
  rintro rfl
  refine choose_ne_nothing_of_takes (n := 20) rfl rfl rfl (w := ['@']) ?_ nothing
  exact .seq (u := ['@']) (prefers_char '@').takes (.altRight .empty)

theorem ne_hash_of_choose : c ≠ '#' := by
  rintro rfl
  have inLine {behind : List Char} :
      Takes (.star true (.one (.ofChars true ['\n']))) (some '#') (s.takeWhile (· ≠ '\n')) behind :=
    takes_star_one fun d mem => by
      simpa [CharClass.covers_ofChars] using List.mem_takeWhile_imp mem
  have parts := List.takeWhile_append_dropWhile (p := (· ≠ '\n')) (l := s)
  -- the comment ends with its line, or with the text
  cases left : s.dropWhile (· ≠ '\n') with
  | nil =>
    rw [left] at parts
    rw [← parts] at nothing
    refine choose_ne_nothing_of_takes (n := 7) rfl rfl rfl (w := '#' :: s.takeWhile (· ≠ '\n')) ?_
      nothing
    refine .seq (u := ['#']) (prefers_char '#').takes ?_
    have ended : Takes (.alt (.char '\n') .textEnd)
        (lastOr (some '#') (s.takeWhile (· ≠ '\n'))) [] [] := .altRight .textEnd
    have all := inLine.seq ended
    rwa [List.append_nil] at all
  | cons d t =>
    obtain rfl : d = '\n' := by
      have head : d ∈ (s.dropWhile (· ≠ '\n')).head? := by
        rw [left]
        rfl
      simpa using head?_dropWhile_eq_false head
    rw [left] at parts
    rw [← parts] at nothing
    have takes : Takes comment none ('#' :: (s.takeWhile (· ≠ '\n') ++ ['\n'])) t :=
      .seq (u := ['#']) (prefers_char '#').takes (inLine.seq (.altLeft (prefers_char '\n').takes))
    exact choose_ne_nothing_of_takes (n := 7) rfl rfl rfl takes (by simpa using nothing)

/-- A point before a digit starts a number. -/
theorem no_digit_of_choose (point : c = '.') : ∀ d ∈ s.head?, isDecimalDigit d = false := by
  intro d head
  obtain ⟨t, rfl⟩ := List.head?_eq_some_iff.1 head
  rw [← CharClass.covers_decimalDigits, Bool.eq_false_iff]
  intro digit
  have fraction : Takes (.plus true (.one .decimalDigits)) (some '.') [d] t :=
    .plus (u := [d]) (.one digit) .starNil
  refine choose_ne_nothing_of_takes (n := 26) rfl rfl rfl (w := ['.', d]) ?_ (point ▸ nothing)
  refine .seq (u := ['.', d]) (.group (.altRight ?_)) (.altRight .empty)
  exact .seq (u := []) .starNil (.seq (u := ['.']) (prefers_char '.').takes fraction)

/-- An apostrophe before a pair of brackets starts a symbol. -/
theorem no_brackets_of_choose (quote : c = '\'') : ¬ ['[', ']'] <+: s := by
  rintro ⟨t, rfl⟩
  refine choose_ne_nothing_of_takes (n := 8) rfl rfl rfl (w := ['\'', '[', ']']) ?_
    (quote ▸ nothing)
  exact .seq (u := ['\'']) (prefers_char '\'').takes (.group (.altRight (prefers_literal _).takes))

/-- An apostrophe before a character that may stand in a symbol starts one. -/
theorem no_part_of_choose (quote : c = '\'') : ∀ d ∈ s.head?,
    d ∈ ['\'', '[', ']', '(', ')', '\x7b', '\x7d', ','] ∨ isBlank d = true := by
  intro d head
  obtain ⟨t, rfl⟩ := List.head?_eq_some_iff.1 head
  by_contra other
  rw [not_or, Bool.not_eq_true] at other
  have part : CharClass.symbolParts.covers d = true := CharClass.covers_symbolParts_iff.2 other
  refine choose_ne_nothing_of_takes (n := 8) rfl rfl rfl (w := ['\'', d]) ?_ (quote ▸ nothing)
  exact .seq (u := ['\'']) (prefers_char '\'').takes
    (.group (.altLeft (.plus (u := [d]) (.one part) .starNil)))

/-- A text that is opened and closed is taken. -/
theorem not_closed_of_choose {n : Nat} {form : Form} {d : Delimiters}
    (place : rootForms[n]? = some form) (delimits : form.Delimits d) (closing : d.closing ≠ [])
    (opens : ∀ opener ∈ d.openers, opener ≠ []) : ¬ d.Closed (c :: s) := by
  intro closed
  obtain ⟨rule, mem, rfl⟩ := exists_rule_of_mem_rootForms (List.mem_of_getElem? place)
  obtain ⟨w, ends⟩ := closed.exists_ends closing
  obtain ⟨m, h, -⟩ := exists_attempt_of_ends mem delimits opens ends
  rw [choose_eq_nothing_iff.1 nothing rule mem] at h
  cases h

/-- Where no rule matches, no token starts. -/
theorem recovers_of_choose : Recovers c s := by
  have white := isBlank_of_choose nothing
  have digit := isDecimalDigit_of_choose nothing
  by_cases ascii : c.toNat < 128
  · by_cases point : c = '.'
    · rw [point]
      exact .point (no_digit_of_choose nothing point)
    by_cases quote : c = '\''
    · rw [quote]
      exact .quote (no_brackets_of_choose nothing quote) (no_part_of_choose nothing quote)
    by_cases quotation : c = '"'
    · rw [quotation] at nothing ⊢
      refine .quotation ?_ ?_
      · exact not_closed_of_choose nothing (n := 10) rfl ⟨_, 1, rfl, rfl, delimits_string⟩
          (by decide) (by decide)
      · exact not_closed_of_choose nothing (n := 9) rfl ⟨_, 1, rfl, rfl, delimits_tripleString⟩
          (by decide) (by decide)
    have start := isNameStart_of_choose nothing
    rw [isNameStart, Bool.or_eq_false_iff, decide_eq_false_iff_not] at start
    rw [isDecimalDigit_eq_isDigit ascii] at digit
    refine .ascii ascii ?_ white ?_
    · rw [Char.isAlphanum, start.1, digit]
      rfl
    · simp only [markChars, List.mem_append, not_or]
      refine ⟨⟨?_, notMem_operatorChars_of_choose nothing⟩,
        notMem_punctuationChars_of_choose nothing⟩
      simp [start.2, ne_hash_of_choose nothing, ne_sigil_of_choose nothing, quote, quotation, point]
  · exact .beyond (Nat.le_of_not_lt ascii) white digit

end Taken

/-! ## Steps -/

/-- No rule for ordinary source gives errors. -/
theorem category_ne_error {rule : Rule} (mem : rule ∈ fancyTable.rules .root) {offset : Nat}
    {s : List Char} {found : Pattern.Found} {tokens : List Token}
    (given : emission? offset s rule.action found = some tokens) :
    ∀ t ∈ tokens, t.category ≠ .error := by
  have checked : ∀ form ∈ rootForms, Category.error ∉ form.action.categories := by decide
  intro t memT error
  rcases category_of_mem_emission? given t memT with text | listed
  · rw [error] at text
    cases text
  · rw [error] at listed
    exact checked _ (form_mem_rootForms mem) listed

/-- In ordinary source the scanner recovers exactly where no token starts, with an error of one
character that is no line break. Letters, digits, operators, punctuation, sigils and comments are
never errors. -/
theorem root_recovers_iff {scan : Scan} (top : scan.stack.top = .root)
    (rest : scan.rest = some (c :: s)) :
    (choose (fancyTable.rules .root) (c :: s) = .nothing ↔ Recovers c s) ∧
      (∃ step, scan.step? fancyTable = some step ∧
        ((∃ t ∈ step.tokens, t.category = .error) ↔ Recovers c s) ∧
        (Recovers c s → step = ⟨[.ofText .error scan.offset [c]],
          [.unmatched scan.offset .root c], ⟨scan.offset + c.utf8Size, scan.stack, some s⟩⟩)) ∧
      (Recovers c s → c ≠ '\n' ∧ isNameStart c = false ∧ isDecimalDigit c = false ∧
        c ∉ operatorChars ∧ c ∉ punctuationChars ∧ c ≠ '@' ∧ c ≠ '#') := by
  have nothing_iff : choose (fancyTable.rules .root) (c :: s) = .nothing ↔ Recovers c s :=
    ⟨recovers_of_choose, Recovers.choose_eq_nothing⟩
  have clean (nothing : choose (fancyTable.rules .root) (c :: s) = .nothing) : c ≠ '\n' := by
    have white := isBlank_of_choose nothing
    rintro rfl
    revert white
    decide
  refine ⟨nothing_iff, ?_, fun recovers => ?_⟩
  · cases chosen : choose (fancyTable.rules .root) (c :: s) with
    | nothing =>
      have step : scan.recover c s = ⟨[.ofText .error scan.offset [c]],
          [.unmatched scan.offset .root c], ⟨scan.offset + c.utf8Size, scan.stack, some s⟩⟩ := by
        rw [Scan.recover, if_neg (clean chosen), top]
      rw [← top] at chosen
      refine ⟨_, Scan.step?_eq_some_iff.2 ⟨c, s, rest, .inl ⟨chosen, rfl⟩⟩, ?_, fun _ => step⟩
      rw [top] at chosen
      rw [step]
      exact iff_of_true ⟨_, List.mem_singleton_self _, rfl⟩ (recovers_of_choose chosen)
    | torn => exact absurd chosen (fancyTable_anchored.choose_ne_torn .root _)
    | rule rule m =>
      have not_recovers : ¬ Recovers c s := by
        rw [← nothing_iff, chosen]
        intro other
        cases other
      have mem := (mem_of_choose chosen).1
      rw [← top] at chosen
      obtain ⟨step, taken, given⟩ := Scan.exists_step_of_choose fancyTable_anchored rest chosen
      refine ⟨step, taken, iff_of_false ?_ not_recovers, fun h => absurd h not_recovers⟩
      rintro ⟨t, memT, error⟩
      exact category_ne_error mem given t memT error
  · have nothing := recovers.choose_eq_nothing
    exact ⟨clean nothing, isNameStart_of_choose nothing, isDecimalDigit_of_choose nothing,
      notMem_operatorChars_of_choose nothing, notMem_punctuationChars_of_choose nothing,
      ne_sigil_of_choose nothing, ne_hash_of_choose nothing⟩

/-- A point before a letter is an error. -/
theorem root_recovers_iff_point : Recovers '.' ['x'] ∧
    ∃ step, (Scan.start ['.', 'x']).step? fancyTable = some step ∧
      step.tokens = [.ofText .error 0 ['.']] := by
  have recovers : Recovers '.' ['x'] := by
    refine .point ?_
    rintro _ ⟨⟩
    decide
  have top : (Scan.start ['.', 'x']).stack.top = .root := rfl
  have holds := root_recovers_iff top rfl
  obtain ⟨step, taken, -, error⟩ := holds.2.1
  refine ⟨recovers, step, taken, ?_⟩
  rw [error recovers]
  rfl

end FancyTokens
