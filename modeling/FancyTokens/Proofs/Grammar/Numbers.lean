import FancyTokens.Proofs.Grammar.Choice
import FancyTokens.Proofs.Text.Classes

/-!
# Numbers of ordinary source

Six rules may take a text that starts with a digit. The first character behind the prefix tells
which of them wins (`numberCategory`), and the number goes on as long as a digit follows, or an
underscore with a digit (`EndsGrouped`). White space behind it is taken too, and then a slash or a
question mark (`exists_prefers_suffixed`). The rules for numbers with a point and for plain ones
come too late: `exists_choose_number` never chooses them.
-/

namespace FancyTokens

/-! ## Groups of digits -/

/-- What stands behind some digits does not go on with a digit, nor with an underscore before
one. -/
structure EndsGrouped (digit : Char → Bool) (behind : List Char) : Prop where
  digits : ∀ c ∈ behind.head?, digit c = false
  group : ∀ c s, behind = '_' :: c :: s → digit c = false

variable {digit : Char → Bool} {c : Char} {s w behind : List Char}

theorem isDigits_takeWhile (first : s.head?.any digit = true) :
    IsDigits digit (s.takeWhile digit) := by
  obtain ⟨c, head, covered⟩ := (Option.any_eq_true _ _).1 first
  obtain ⟨s, rfl⟩ := List.head?_eq_some_iff.1 head
  refine ⟨?_, fun d mem => List.mem_takeWhile_imp mem⟩
  rw [List.takeWhile_cons, if_pos covered]
  exact List.cons_ne_nil _ _

/-- Behind the digits at its start a text has some groups of digits, as many as it can. -/
theorem exists_groups_ahead (digit : Char → Bool) (s : List Char) :
    ∃ (groups : List (List Char)) (after : List Char),
      s = s.takeWhile digit ++ groups.flatMap ('_' :: ·) ++ after ∧
        (∀ g ∈ groups, IsDigits digit g) ∧ EndsGrouped digit after := by
  induction s with
  | nil => exact ⟨[], [], rfl, by simp, by simp, by simp⟩
  | cons c s ih =>
    obtain ⟨groups, after, eq, all, ends⟩ := ih
    rw [List.takeWhile_cons]
    by_cases covered : digit c = true
    · rw [if_pos covered]
      exact ⟨groups, after, congrArg (c :: ·) eq, all, ends⟩
    rw [if_neg covered]
    by_cases group : c = '_' ∧ s.head?.any digit = true
    · -- the digits at the start of the rest are those of the first group
      obtain ⟨rfl, first⟩ := group
      refine ⟨s.takeWhile digit :: groups, after, ?_,
        List.forall_mem_cons.2 ⟨isDigits_takeWhile first, all⟩, ends⟩
      rw [List.flatMap_cons, List.nil_append, List.cons_append, List.cons_append, ← eq]
    · refine ⟨[], c :: s, rfl, by simp, ?_, ?_⟩
      · rintro d ⟨⟩
        simpa using covered
      · rintro d t ⟨⟩
        simpa using group

/-- A text that starts with a digit starts with grouped digits that go as far as they can. -/
theorem exists_isGrouped (first : s.head?.any digit = true) :
    ∃ digits after, s = digits ++ after ∧ IsGrouped digit digits ∧ EndsGrouped digit after := by
  obtain ⟨groups, after, eq, all, ends⟩ := exists_groups_ahead digit s
  exact ⟨_, after, eq, ⟨_, groups, rfl, isDigits_takeWhile first, all⟩, ends⟩

theorem IsGrouped.head?_any (h : IsGrouped digit w) (rest : List Char) :
    (w ++ rest).head?.any digit = true := by
  obtain ⟨first, groups, rfl, ⟨nonempty, all⟩, -⟩ := h
  obtain ⟨c, first, rfl⟩ := List.exists_cons_of_ne_nil nonempty
  exact all c List.mem_cons_self

theorem IsGrouped.eq_or_digit (h : IsGrouped digit w) : ∀ c ∈ w, c = '_' ∨ digit c = true := by
  obtain ⟨first, groups, rfl, ⟨-, all⟩, grouped⟩ := h
  intro c mem
  rcases List.mem_append.1 mem with mem | mem
  · exact Or.inr (all c mem)
  · obtain ⟨g, memG, mem⟩ := List.mem_flatMap.1 mem
    exact (List.mem_cons.1 mem).imp_right ((grouped g memG).2 c)

/-! ## Numbers -/

namespace Category

/-- What may stand before the digits of a number of the category. -/
def numberPrefixes : Category → List (List Char)
  | .octal => [['0'], ['0', 'o'], ['0', 'O']]
  | .hexadecimal => [['0', 'x'], ['0', 'X']]
  | .binary => [['0', 'b'], ['0', 'B']]
  | _ => [[]]

/-- The character is a digit of numbers of the category. -/
def isNumberDigit : Category → Char → Bool
  | .octal => isOctalDigit
  | .hexadecimal => isHexadecimalDigit
  | .binary => (· ∈ ['0', '1'])
  | _ => isDecimalDigit

/-- The text is a number of the category. -/
def IsNumber (category : Category) (w : List Char) : Prop :=
  ∃ start ∈ category.numberPrefixes, ∃ digits, w = start ++ digits ∧
    IsGrouped category.isNumberDigit digits

/-- The text starts with what makes it a number of the category: a prefix and a digit. -/
def StartsNumber (category : Category) (s : List Char) : Prop :=
  ∃ start ∈ category.numberPrefixes, start <+: s ∧
    (s.drop start.length).head?.any category.isNumberDigit = true

instance (category : Category) (s : List Char) : Decidable (category.StartsNumber s) :=
  inferInstanceAs (Decidable (∃ start ∈ category.numberPrefixes, _ ∧ _))

variable {category : Category}

theorem IsNumber.startsNumber (h : category.IsNumber w) (rest : List Char) :
    category.StartsNumber (w ++ rest) := by
  obtain ⟨start, mem, digits, rfl, grouped⟩ := h
  refine ⟨start, mem, ⟨digits ++ rest, (List.append_assoc ..).symm⟩, ?_⟩
  rw [List.append_assoc, List.drop_left]
  exact grouped.head?_any rest

theorem IsNumber.ne_nil (h : category.IsNumber w) : w ≠ [] := by
  rintro rfl
  obtain ⟨start, -, digits, empty, grouped⟩ := h
  obtain ⟨-, rfl⟩ := List.append_eq_nil_iff.1 empty.symm
  cases grouped.head?_any []

/-- The number that a text starts with goes as far as it can. -/
theorem StartsNumber.exists_isNumber (h : category.StartsNumber s) :
    ∃ number after, s = number ++ after ∧ category.IsNumber number ∧
      EndsGrouped category.isNumberDigit after := by
  obtain ⟨start, mem, ⟨rest, rfl⟩, first⟩ := h
  rw [List.drop_left] at first
  obtain ⟨digits, after, rfl, grouped, ends⟩ := exists_isGrouped first
  exact ⟨start ++ digits, after, (List.append_assoc ..).symm, ⟨start, mem, digits, rfl, grouped⟩,
    ends⟩

end Category

/-- The category of the number with which a text starts whose first character is a digit. -/
def numberCategory (s : List Char) : Category :=
  if Category.octal.StartsNumber s then .octal
  else if Category.hexadecimal.StartsNumber s then .hexadecimal
  else if Category.binary.StartsNumber s then .binary
  else .integer

/-- Where a digit stands, a number of the category starts. -/
theorem exists_isNumber (first : isDecimalDigit c = true) (s : List Char) :
    ∃ number after, c :: s = number ++ after ∧ (numberCategory (c :: s)).IsNumber number ∧
      EndsGrouped (numberCategory (c :: s)).isNumberDigit after := by
  have starts : (numberCategory (c :: s)).StartsNumber (c :: s) := by
    unfold numberCategory
    split
    · assumption
    split
    · assumption
    split
    · assumption
    · exact ⟨[], List.mem_singleton_self _, List.nil_prefix, first⟩
  exact starts.exists_isNumber

/-! ## What the expressions for numbers prefer -/

namespace Regex

variable {set : CharClass} {before : Option Char}

theorem head?_groups {groups : List (List Char)} (apart : digit '_' = false)
    (ends : EndsGrouped digit behind) :
    ∀ c ∈ (groups.flatMap ('_' :: ·) ++ behind).head?, digit c = false := by
  cases groups with
  | nil => exact ends.digits
  | cons g groups =>
    rintro c ⟨⟩
    exact apart

theorem prefers_digits (covers : ∀ c, set.covers c = digit c) (h : IsDigits digit w)
    (stops : ∀ c ∈ behind.head?, digit c = false) :
    Prefers (.plus true (.one set)) before w behind :=
  prefers_plus_one h.1 (fun c mem => (covers c).trans (h.2 c mem))
    fun c head => (covers c).trans (stops c head)

/-- An underscore without a digit behind it is no group. -/
theorem EndsGrouped.misses (covers : ∀ c, set.covers c = digit c)
    (ends : EndsGrouped digit behind) :
    Misses (.seq (.char '_') (.plus true (.one set))) before behind := by
  rintro u v rfl takes
  obtain ⟨u, rfl, _, more⟩ := takes.exists_of_char_seq
  obtain ⟨nonempty, all⟩ := more.isDigits covers
  obtain ⟨c, u, rfl⟩ := List.exists_cons_of_ne_nil nonempty
  have covered := all c List.mem_cons_self
  rw [ends.group c (u ++ v) rfl] at covered
  cases covered

/-- Grouped digits are taken as far as they go. -/
theorem prefers_grouped (covers : ∀ c, set.covers c = digit c) (apart : digit '_' = false)
    (h : IsGrouped digit w) (ends : EndsGrouped digit behind) :
    Prefers (grouped set) before w behind := by
  obtain ⟨first, groups, rfl, digits, all⟩ := h
  have each : PrefersEach (.seq (.char '_') (.plus true (.one set))) (lastOr before first)
      (groups.map ('_' :: ·)) behind := by
    intro done u more eq
    obtain ⟨earlier, rest, rfl, rfl, left⟩ := List.map_eq_append_iff.1 eq
    obtain ⟨g, later, rfl, rfl, rfl⟩ := List.map_eq_cons_iff.1 left
    rw [← List.flatMap_def]
    exact .char_seq (prefers_digits covers (all g (by simp)) (head?_groups apart ends))
  have more := prefers_star rfl each (EndsGrouped.misses covers ends)
  rw [← List.flatMap_def] at more
  exact .seq (prefers_digits covers digits (head?_groups apart ends)) more

/-- The expression for numbers of a category. -/
def number : Category → Regex
  | .octal => octal
  | .hexadecimal => hexadecimal
  | .binary => binary
  | _ => grouped .decimalDigits

variable {category : Category}

theorem Takes.isNumber_of_isPrefixed {marks : List Char}
    (same : category.numberPrefixes = marks.map fun mark => ['0', mark])
    (h : IsPrefixed marks category.isNumberDigit w) : category.IsNumber w := by
  obtain ⟨mark, mem, digits, rfl, grouped⟩ := h
  exact ⟨['0', mark], same ▸ List.mem_map_of_mem mem, digits, rfl, grouped⟩

theorem Takes.isNumber (h : Takes (number category) before w behind) : category.IsNumber w := by
  cases category with
  | octal =>
    obtain ⟨digits, grouped, rfl | rfl | rfl⟩ := h.fits_octal
    · exact ⟨['0'], by simp [Category.numberPrefixes], digits, rfl, grouped⟩
    · exact ⟨['0', 'o'], by simp [Category.numberPrefixes], digits, rfl, grouped⟩
    · exact ⟨['0', 'O'], by simp [Category.numberPrefixes], digits, rfl, grouped⟩
  | hexadecimal =>
    exact isNumber_of_isPrefixed rfl (h.isPrefixed CharClass.covers_hexadecimalDigits)
  | binary =>
    exact isNumber_of_isPrefixed rfl (h.isPrefixed (CharClass.covers_ofChars_false _))
  | _ =>
    exact ⟨[], List.mem_singleton_self _, w, rfl, h.isGrouped_of CharClass.covers_decimalDigits⟩

theorem prefers_marked {marks : List Char} {mark : Char} (mem : mark ∈ marks)
    (h : Prefers (grouped set) (some mark) w behind) :
    Prefers (.seq (.char '0') (.seq (oneOf marks) (grouped set))) before ('0' :: mark :: w)
      behind :=
  .char_seq (.seq (u := [mark]) (prefers_oneOf mem) h)

theorem prefers_octal {start digits : List Char} (mem : start ∈ Category.octal.numberPrefixes)
    (isGrouped : IsGrouped isOctalDigit digits) (ends : EndsGrouped isOctalDigit behind) :
    Prefers octal before (start ++ digits) behind := by
  have more {before : Option Char} : Prefers (grouped .octalDigits) before digits behind :=
    prefers_grouped CharClass.covers_octalDigits (by decide) isGrouped ends
  simp only [Category.numberPrefixes, List.mem_cons, List.not_mem_nil, or_false] at mem
  obtain rfl | rfl | rfl := mem
  · -- a digit stands where the letter could
    have no_letter : Misses (oneOf ['o', 'O']) (some '0') ([] ++ (digits ++ behind)) := by
      refine misses_oneOf fun c head => ?_
      obtain ⟨d, head', digit⟩ := (Option.any_eq_true _ _).1 (isGrouped.head?_any behind)
      obtain rfl : c = d := Option.some.inj (head.symm.trans head')
      rw [List.mem_cons, List.mem_singleton]
      rintro (rfl | rfl)
      · exact absurd digit (by decide)
      · exact absurd digit (by decide)
    exact .char_seq (.seq (u := []) (.altRight no_letter prefers_empty) more)
  · exact .char_seq (.seq (u := ['o']) (.altLeft (prefers_oneOf (by decide))) more)
  · exact .char_seq (.seq (u := ['O']) (.altLeft (prefers_oneOf (by decide))) more)

/-- A number is taken as far as it goes. -/
theorem prefers_number (h : category.IsNumber w)
    (ends : EndsGrouped category.isNumberDigit behind) :
    Prefers (number category) before w behind := by
  obtain ⟨start, mem, digits, rfl, isGrouped⟩ := h
  cases category with
  | octal => exact prefers_octal mem isGrouped ends
  | hexadecimal =>
    obtain ⟨mark, listed, rfl⟩ : ∃ mark ∈ ['x', 'X'], ['0', mark] = start := List.mem_map.1 mem
    exact prefers_marked listed
      (prefers_grouped CharClass.covers_hexadecimalDigits (by decide) isGrouped ends)
  | binary =>
    obtain ⟨mark, listed, rfl⟩ : ∃ mark ∈ ['b', 'B'], ['0', mark] = start := List.mem_map.1 mem
    exact prefers_marked listed
      (prefers_grouped (CharClass.covers_ofChars_false _) (by decide) isGrouped ends)
  | _ =>
    rw [List.mem_singleton.1 mem]
    exact prefers_grouped CharClass.covers_decimalDigits (by decide) isGrouped ends

theorem misses_number (h : ¬ category.StartsNumber s) : Misses (number category) before s := by
  rintro u v rfl takes
  exact h (takes.isNumber.startsNumber v)

end Regex

/-! ## What stands behind a number -/

/-- The slash or question mark that a text starts with, if there is one. -/
def slashAhead (s : List Char) : List Char :=
  (s.take 1).filter (· ∈ ['/', '?'])

theorem slashAhead_cases (s : List Char) :
    (slashAhead s = [] ∧ ∀ c ∈ s.head?, c ∉ ['/', '?']) ∨
      ∃ c ∈ ['/', '?'], slashAhead s = [c] ∧ ∃ rest, s = c :: rest := by
  cases s with
  | nil => exact Or.inl ⟨rfl, by simp⟩
  | cons c s =>
    by_cases mark : c ∈ ['/', '?']
    · exact Or.inr ⟨c, mark, by simpa [slashAhead] using mark, s, rfl⟩
    · refine Or.inl ⟨by simpa [slashAhead] using mark, ?_⟩
      rintro _ ⟨⟩
      exact mark

namespace Regex

variable {before : Option Char} {digits : Regex} {number after : List Char}

theorem exists_prefers_slash (s : List Char) : ∃ rest, s = slashAhead s ++ rest ∧
    ∀ before, Prefers (maybe (.group 2 (oneOf ['/', '?']))) before (slashAhead s) rest := by
  rcases slashAhead_cases s with ⟨ahead, other⟩ | ⟨c, mem, ahead, rest, rfl⟩
  · rw [ahead]
    exact ⟨s, rfl, fun before => .altRight (.group (misses_oneOf other)) prefers_empty⟩
  · rw [ahead]
    exact ⟨rest, rfl, fun before => .altLeft (.group (prefers_oneOf mem))⟩

/-- Behind a number all white space is taken, and then a slash or a question mark. -/
theorem exists_prefers_suffixed (h : Prefers digits none number after) :
    ∃ rest, after = after.takeWhile isBlank ++ slashAhead (after.dropWhile isBlank) ++ rest ∧
      Prefers (suffixed digits) none
        (number ++ (after.takeWhile isBlank ++ slashAhead (after.dropWhile isBlank))) rest := by
  obtain ⟨rest, eq, operator⟩ := exists_prefers_slash (after.dropWhile isBlank)
  have parts : after = after.takeWhile isBlank ++ slashAhead (after.dropWhile isBlank) ++ rest := by
    rw [List.append_assoc, ← eq, List.takeWhile_append_dropWhile]
  refine ⟨rest, parts, .seq (.group ?_) (.seq (.group ?_) (operator _))⟩
  · rwa [← parts]
  · rw [← eq]
    exact prefers_star_takeWhile CharClass.covers_blanks _ after

theorem misses_suffixed (h : Misses digits before s) : Misses (suffixed digits) before s :=
  .seq (.group h)

end Regex

/-! ## The rules for numbers -/

/-- The forms of the rules for numbers, in their order. -/
def numberForms : List Form := [
  .number .octal .octal,
  .number .hexadecimal .hexadecimal,
  .number .binary .binary,
  .number .integer (.grouped .decimalDigits),
  .whole .float .float 2,
  .whole .integer (.plus true (.one .decimalDigits))]

theorem drop_rootForms : rootForms.drop 22 = numberForms := rfl

theorem filter_numberForms : rootForms.filter (· ∈ numberForms) = numberForms := by
  decide +kernel

/-- Beyond ASCII a text that rules before those for numbers take starts with white space. -/
theorem starts_beyond (beyond : 128 ≤ c.toNat) (white : isBlank c = false) :
    ∀ entry ∈ rootStarts.take 22, entry.2 c = false := by
  have other {d : Char} (ascii : d.toNat < 128) : c ≠ d := by
    rintro rfl
    omega
  have foreign : c.isAlphanum = false :=
    Bool.eq_false_iff.2 fun h => absurd (toNat_lt_of_isAlphanum h) (by omega)
  have no_letter : c.isAlpha = false := (Bool.or_eq_false_iff.1 foreign).1
  have no_capital : c.isUpper = false := (Bool.or_eq_false_iff.1 no_letter).1
  have no_start : isNameStart c = false := by
    rw [isNameStart, no_letter, decide_eq_false (other (by decide)), Bool.or_false]
  simp only [rootStarts, rootForms, List.zip_cons_cons, List.take_succ_cons, List.take_zero,
    List.forall_mem_cons, operatorChars, punctuationChars]
  -- all other characters are of ASCII
  simp (disch := decide) [other, white, no_letter, no_capital, no_start]

/-- No rule before those for numbers takes a text that starts with a digit. -/
theorem starts_of_isDecimalDigit (first : isDecimalDigit c = true) :
    ∀ entry ∈ rootStarts.take 22, entry.2 c = false := by
  by_cases ascii : c.toNat < 128
  · exact of_ascii (p := fun c => isDecimalDigit c = true →
      ∀ entry ∈ rootStarts.take 22, entry.2 c = false) (by decide +kernel) ascii first
  · exact starts_beyond (Nat.le_of_not_lt ascii) (isBlank_eq_false_of_isDecimalDigit first)

section Number

variable {category : Category} {number after : List Char} {form : Form}

/-- The rule for numbers of a category takes the number, and what it may take behind it. -/
theorem wins_number (isNumber : category.IsNumber number)
    (ends : EndsGrouped category.isNumberDigit after) (forms : List Form) :
    Wins (.number category (.number category) :: forms) (number ++ after)
      (.number category (.number category))
      (number ++ (after.takeWhile isBlank ++ slashAhead (after.dropWhile isBlank))) := by
  obtain ⟨rest, parts, prefers⟩ :=
    Regex.exists_prefers_suffixed (Regex.prefers_number isNumber ends)
  have nonempty : number ++ (after.takeWhile isBlank ++ slashAhead (after.dropWhile isBlank)) ≠
      [] :=
    mt (fun empty => (List.append_eq_nil_iff.1 empty).1) isNumber.ne_nil
  have wins : Wins (.number category (.number category) :: forms) _
      (.number category (.number category)) _ := wins_of_prefers nonempty prefers
  rwa [List.append_assoc, ← parts] at wins

/-- Of the rules for numbers the one of the category wins. -/
theorem wins_of_numberCategory
    (h : ∀ forms,
      Wins (.number (numberCategory s) (.number (numberCategory s)) :: forms) s form w) :
    Wins numberForms s form w := by
  have misses {category : Category} (other : ¬ category.StartsNumber s) :
      Regex.Misses (.suffixed (.number category)) none s :=
    Regex.misses_suffixed (Regex.misses_number other)
  unfold numberCategory at h
  by_cases octal : Category.octal.StartsNumber s
  · rw [if_pos octal] at h
    exact h _
  rw [if_neg octal] at h
  refine .of_misses (misses octal) ?_
  by_cases hexadecimal : Category.hexadecimal.StartsNumber s
  · rw [if_pos hexadecimal] at h
    exact h _
  rw [if_neg hexadecimal] at h
  refine .of_misses (misses hexadecimal) ?_
  by_cases binary : Category.binary.StartsNumber s
  · rw [if_pos binary] at h
    exact h _
  · rw [if_neg binary] at h
    exact .of_misses (misses binary) (h _)

/-- Where a digit stands, the rule for numbers of the category is chosen, and takes the number with
what may stand behind it. -/
theorem exists_choose_number (first : isDecimalDigit c = true) (eq : c :: s = number ++ after)
    (isNumber : (numberCategory (c :: s)).IsNumber number)
    (ends : EndsGrouped (numberCategory (c :: s)).isNumberDigit after) :
    ∃ rule m, choose (fancyTable.rules .root) (c :: s) = .rule rule m ∧
      rule.form = .number (numberCategory (c :: s)) (.number (numberCategory (c :: s))) ∧
      m.found.Fits
        (number ++ (after.takeWhile isBlank ++ slashAhead (after.dropWhile isBlank))) ∧
      number ++ (after.takeWhile isBlank ++ slashAhead (after.dropWhile isBlank)) <+: c :: s := by
  have others : ∀ rule ∈ fancyTable.rules .root, rule.form ∉ numberForms →
      rule.attempt (c :: s) = .missed := by
    intro rule mem no_number
    refine Rule.attempt_eq_missed_of_starts mem (fun entry listed same => ?_) s
    rw [← List.take_append_drop 22 rootStarts, List.mem_append] at listed
    refine starts_of_isDecimalDigit first entry (listed.resolve_right fun late => no_number ?_)
    rw [← same, ← drop_rootForms, ← map_fst_rootStarts, ← List.map_drop]
    exact List.mem_map_of_mem late
  have wins := wins_of_numberCategory fun forms => by
    have wins := wins_number isNumber ends forms
    rwa [← eq] at wins
  obtain ⟨rule, m, chosen, form, fits⟩ := wins.exists_choose filter_numberForms others
  exact ⟨rule, m, chosen, form, fits, wins.1⟩

end Number
end FancyTokens
