import FancyTokens.Proofs.Grammar.Choice
import FancyTokens.Proofs.Grammar.Units
import FancyTokens.Proofs.Text.Classes
import FancyTokens.Proofs.Text.Splitting
import FancyTokens.Proofs.Text.Trimming

/-!
# Words of ordinary source

Six rules compete for a text that starts with a letter or an underscore. Which of them wins, and
what it takes, is told by the longest name that stands there, by the character behind it, and by the
longest label (`classifyWord`). The expressions for reserved words only ever take the whole name, as
a word ends where a name does unless a word character beyond ASCII follows
(`Regex.Takes.of_wholeWord`).
-/

namespace FancyTokens

/-! ## Classification -/

/-- The category of the words that have a meaning of their own. -/
def reservedCategory? (w : List Char) : Option Category :=
  if (keywordNames.map String.toList).contains w then some .keyword
  else if (constantNames.map String.toList).contains w then some .constant
  else if (builtinNames.map String.toList).contains w then some .builtin
  else none

/-- The character may stand in the name of a function. -/
def isLabelPart (c : Char) : Bool :=
  isNamePart c || c ∈ functionMarks

/-- The category and text of a word without a meaning of its own: a label with its colon, or a
name. -/
def classifyName (s : List Char) : Category × List Char :=
  if s.head?.any Char.isAlpha ∧ (s.dropWhile isLabelPart).head? = some ':' then
    (.function, s.takeWhile isLabelPart ++ [':'])
  else if s.head?.any Char.isUpper then (.constant, s.takeWhile isNamePart)
  else (.name, s.takeWhile isNamePart)

/-- The category of the reserved word that a text starts with, if the word ends there. -/
def reservedAhead? (s : List Char) : Option Category :=
  if (s.dropWhile isNamePart).head?.any isWordCharacter then none
  else reservedCategory? (s.takeWhile isNamePart)

/-- The category and text of the word that a text starts with. -/
def classifyWord (s : List Char) : Category × List Char :=
  match reservedAhead? s with
  | some category => (category, s.takeWhile isNamePart)
  | none => classifyName s

/-! ## Characters -/

variable {c : Char} {s w rest : List Char}

theorem isNamePart_of_isNameStart (h : isNameStart c = true) : isNamePart c = true := by
  rw [isNameStart, Bool.or_eq_true] at h
  rw [isNamePart, Char.isAlphanum, Bool.or_eq_true, Bool.or_eq_true]
  exact h.imp_left Or.inl

theorem toNat_lt_of_isNamePart (h : isNamePart c = true) : c.toNat < 128 := by
  rw [isNamePart, Bool.or_eq_true, decide_eq_true_eq] at h
  rcases h with h | rfl
  · exact toNat_lt_of_isAlphanum h
  · decide

/-- Names are made of the word characters of ASCII. -/
theorem isWordCharacter_of_isNamePart (h : isNamePart c = true) : isWordCharacter c = true := by
  rw [isWordCharacter_eq (toNat_lt_of_isNamePart h)]
  exact h

theorem le_toNat_of_not_isNamePart (word : isWordCharacter c = true) (h : isNamePart c = false) :
    128 ≤ c.toNat := by
  by_contra ascii
  rw [isWordCharacter_eq (Nat.lt_of_not_le ascii)] at word
  rw [isNamePart, word] at h
  cases h

/-! ## Reserved words -/

/-- The text is one that a name can be. -/
def IsWord (w : List Char) : Prop :=
  w ≠ [] ∧ ∀ c ∈ w, isNamePart c = true

instance (w : List Char) : Decidable (IsWord w) :=
  decidable_of_iff (w ≠ [] ∧ w.all isNamePart = true) (and_congr_right fun _ => List.all_eq_true)

theorem isWord_of_mem_reserved : ∀ names ∈ [keywordNames, constantNames, builtinNames],
    ∀ w ∈ names.map String.toList, IsWord w := by
  decide +kernel

variable {category : Category}

/-- The lists of reserved words are looked through one after the other. -/
theorem reserved_cases (reserved : reservedCategory? w = some category) :
    (category = .keyword ∧ w ∈ keywordNames.map String.toList) ∨
      (category = .constant ∧ w ∉ keywordNames.map String.toList ∧
        w ∈ constantNames.map String.toList) ∨
      (category = .builtin ∧ w ∉ keywordNames.map String.toList ∧
        w ∉ constantNames.map String.toList ∧ w ∈ builtinNames.map String.toList) := by
  simp only [reservedCategory?, List.contains_iff_mem] at reserved
  split at reserved
  · exact Or.inl ⟨(Option.some.inj reserved).symm, ‹_›⟩
  · split at reserved
    · exact Or.inr (Or.inl ⟨(Option.some.inj reserved).symm, ‹_›, ‹_›⟩)
    · split at reserved
      · exact Or.inr (Or.inr ⟨(Option.some.inj reserved).symm, ‹_›, ‹_›, ‹_›⟩)
      · cases reserved

theorem exists_names_of_reserved (reserved : reservedCategory? w = some category) :
    ∃ names ∈ [keywordNames, constantNames, builtinNames], w ∈ names.map String.toList := by
  rcases reserved_cases reserved with ⟨-, mem⟩ | ⟨-, -, mem⟩ | ⟨-, -, -, mem⟩
  · exact ⟨keywordNames, by simp, mem⟩
  · exact ⟨constantNames, by simp, mem⟩
  · exact ⟨builtinNames, by simp, mem⟩

theorem notMem_of_not_reserved (other : reservedCategory? w = none) :
    ∀ names ∈ [keywordNames, constantNames, builtinNames], w ∉ names.map String.toList := by
  simp only [reservedCategory?, List.contains_iff_mem] at other
  split at other
  · cases other
  split at other
  · cases other
  split at other
  · cases other
  · simp only [List.forall_mem_cons]
    exact ⟨‹_›, ‹_›, ‹_›, nofun⟩

theorem isWord_of_reserved (reserved : reservedCategory? w = some category) : IsWord w := by
  obtain ⟨names, listed, mem⟩ := exists_names_of_reserved reserved
  exact isWord_of_mem_reserved names listed w mem

theorem isNameStart_of_reserved (reserved : reservedCategory? w = some category) :
    w.head?.any isNameStart = true := by
  have checked : ∀ names ∈ [keywordNames, constantNames, builtinNames],
      ∀ w ∈ names.map String.toList, w.head?.any isNameStart = true := by
    decide +kernel
  obtain ⟨names, listed, mem⟩ := exists_names_of_reserved reserved
  exact checked names listed w mem

theorem of_reservedAhead? (ahead : reservedAhead? s = some category) :
    (s.dropWhile isNamePart).head?.any isWordCharacter = false ∧
      reservedCategory? (s.takeWhile isNamePart) = some category := by
  unfold reservedAhead? at ahead
  split at ahead
  · cases ahead
  · exact ⟨Bool.eq_false_iff.2 ‹_›, ahead⟩

/-- Where no reserved word stands, one only stands there as the beginning of a longer word. -/
theorem goes_on_of_reservedAhead? (ahead : reservedAhead? s = none) :
    ∀ names ∈ [keywordNames, constantNames, builtinNames],
      s.takeWhile isNamePart ∈ names.map String.toList →
      (s.dropWhile isNamePart).head?.any isWordCharacter = true := by
  intro names listed mem
  unfold reservedAhead? at ahead
  split at ahead
  · assumption
  · exact absurd mem (notMem_of_not_reserved ahead names listed)

namespace Regex

variable {words : List (List Char)} {before : Option Char} {behind : List Char}

theorem takes_anyWord (mem : w ∈ words) : Takes (anyWord words) before w behind := by
  induction words with
  | nil => cases mem
  | cons s words ih =>
    cases words with
    | nil =>
      rw [List.mem_singleton.1 mem]
      exact (prefers_literal s).takes
    | cons t words =>
      rcases List.mem_cons.1 mem with rfl | mem
      · exact .altLeft (prefers_literal w).takes
      · exact .altRight (ih mem)

theorem lastOr_isWord (word : IsWord w) : (lastOr before w).any isWordCharacter = true := by
  obtain ⟨nonempty, all⟩ := word
  rw [lastOr, List.getLast?_eq_some_getLast nonempty]
  exact isWordCharacter_of_isNamePart (all _ (List.getLast_mem nonempty))

/-- A whole word is all of the name that stands there, and no word character follows. -/
theorem Takes.of_wholeWord (parts : ∀ w ∈ words, IsWord w)
    (h : Takes (wholeWord words) before w behind) :
    w ∈ words ∧ behind.head?.any isWordCharacter = false ∧
      (w ++ behind).takeWhile isNamePart = w ∧ (w ++ behind).dropWhile isNamePart = behind := by
  have mem := h.mem_of_wholeWord
  have word := parts w mem
  have ends : behind.head?.any isWordCharacter = false := by
    cases h with
    | seq _ boundary =>
      cases boundary with
      | wordBoundary apart =>
        rw [List.append_nil] at word
        rw [lastOr_isWord word] at apart
        simpa using apart
  have outside : ∀ c ∈ behind.head?, isNamePart c = false := by
    intro c head
    refine Bool.eq_false_iff.2 fun part => ?_
    rw [Option.mem_def.1 head, Option.any_some, isWordCharacter_of_isNamePart part] at ends
    cases ends
  have split := span_append word.2 outside
  rw [List.span_eq_takeWhile_dropWhile, Prod.mk.injEq] at split
  exact ⟨mem, ends, split⟩

theorem takes_wholeWord (mem : w ∈ words) (word : IsWord w)
    (ends : behind.head?.any isWordCharacter = false) :
    Takes (wholeWord words) before w behind := by
  have boundary : Takes (.wordBoundary false) (lastOr before w) [] behind :=
    .wordBoundary (by rw [lastOr_isWord word, ends]; decide)
  have inner : Takes (.group 0 (anyWord words)) before w ([] ++ behind) :=
    .group (takes_anyWord mem)
  have both := inner.seq boundary
  rwa [List.append_nil] at both

theorem loopsAdvance_literal (s : List Char) : (literal s).loopsAdvance = true := by
  induction s with
  | nil => rfl
  | cons c s ih =>
    cases s with
    | nil => rfl
    | cons d s => exact ih

theorem loopsAdvance_anyWord (words : List (List Char)) : (anyWord words).loopsAdvance = true := by
  induction words with
  | nil => rfl
  | cons s words ih =>
    cases words with
    | nil => exact loopsAdvance_literal s
    | cons t words => exact Bool.and_eq_true_iff.2 ⟨loopsAdvance_literal s, ih⟩

/-- Where a word of the list ends, it is all that the expression takes. -/
theorem prefers_wholeWord (parts : ∀ w ∈ words, IsWord w) (mem : w ∈ words)
    (ends : behind.head?.any isWordCharacter = false) :
    Prefers (wholeWord words) before w behind := by
  have takes : Takes (wholeWord words) before w behind := takes_wholeWord mem (parts w mem) ends
  refine prefers_of_unique ?_ takes fun u v eq other => ?_
  · exact Bool.and_eq_true_iff.2 ⟨loopsAdvance_anyWord words, rfl⟩
  · rw [← (other.of_wholeWord parts).2.2.1, ← eq]
    exact (takes.of_wholeWord parts).2.2.1

/-- The expression misses where the name that stands there is not in the list, or does not end a
word. -/
theorem misses_wholeWord (parts : ∀ w ∈ words, IsWord w)
    (other : s.takeWhile isNamePart ∈ words →
      (s.dropWhile isNamePart).head?.any isWordCharacter = true) :
    Misses (wholeWord words) before s := by
  rintro u v rfl takes
  obtain ⟨mem, ends, name, behind⟩ := takes.of_wholeWord parts
  rw [name, behind, ends] at other
  cases other mem

/-! ## Labels -/

theorem isLabelPart_of_isAlpha (h : c.isAlpha = true) : isLabelPart c = true := by
  rw [isLabelPart, isNamePart, Char.isAlphanum, h]
  rfl

/-- The expression for a label takes all of it, and a colon. -/
theorem Takes.of_function (h : Takes function before w behind) :
    (w ++ behind).head?.any Char.isAlpha = true ∧
      ((w ++ behind).dropWhile isLabelPart).head? = some ':' := by
  obtain ⟨c, part, letter, all, rfl⟩ := h.fits_function
  have label : ∀ d ∈ c :: part, isLabelPart d = true := by
    refine List.forall_mem_cons.2 ⟨isLabelPart_of_isAlpha letter, fun d mem => ?_⟩
    simpa [isLabelPart] using all d mem
  refine ⟨letter, ?_⟩
  rw [List.append_assoc, List.dropWhile_append_of_pos label]
  rfl

/-- The expression for one character of a label. -/
theorem prefers_labelPart (part : isLabelPart c = true) :
    Prefers (.group 0 (.alt (.one .nameParts) (oneOf functionMarks))) before [c] behind := by
  by_cases name : isNamePart c = true
  · exact .group (.altLeft (prefers_one (CharClass.covers_nameParts c ▸ name)))
  · rw [isLabelPart, Bool.or_eq_true, decide_eq_true_eq] at part
    refine .group (.altRight (misses_one ?_) (prefers_oneOf (part.resolve_left name)))
    simpa [CharClass.covers_nameParts] using name

/-- Where a label starts that has a colon behind it, both are taken. -/
theorem exists_prefers_function (letter : s.head?.any Char.isAlpha = true)
    (colon : (s.dropWhile isLabelPart).head? = some ':') :
    ∃ rest, s = s.takeWhile isLabelPart ++ [':'] ++ rest ∧
      Prefers function none (s.takeWhile isLabelPart ++ [':']) rest := by
  obtain ⟨c, head, letter⟩ := (Option.any_eq_true _ _).1 letter
  obtain ⟨t, rfl⟩ := List.head?_eq_some_iff.1 head
  have first : isLabelPart c = true := isLabelPart_of_isAlpha letter
  have parts := List.takeWhile_append_dropWhile (p := isLabelPart) (l := c :: t)
  obtain ⟨rest, left⟩ := List.head?_eq_some_iff.1 colon
  rw [left] at parts
  refine ⟨rest, by rw [List.append_assoc]; exact parts.symm, ?_⟩
  rw [List.takeWhile_cons, if_pos first]
  have each : PrefersEach (.group 0 (.alt (.one .nameParts) (oneOf functionMarks))) (some c)
      ((t.takeWhile isLabelPart).map fun d => [d]) ([':'] ++ rest) := by
    refine prefersEach fun u mem before behind => ?_
    obtain ⟨d, memD, rfl⟩ := List.mem_map.1 mem
    exact prefers_labelPart (List.mem_takeWhile_imp memD)
  have stops : Misses (.group 0 (.alt (.one .nameParts) (oneOf functionMarks)))
      (lastOr (some c) ((t.takeWhile isLabelPart).map fun d => [d]).flatten) ([':'] ++ rest) :=
    .group (.alt (misses_one (by simp; decide)) (misses_one (by simp; decide)))
  have all := prefers_star rfl each stops
  rw [flatten_map_singleton] at all
  exact .seq (u := [c]) (prefers_one (CharClass.covers_letters c ▸ letter))
    (.seq all (prefers_char ':'))

end Regex

/-! ## The rules for words -/

/-- The forms of the rules for labels and names, in their order. -/
def nameForms : List Form := [
  .whole .function .function 1,
  .whole .constant (.name .capitals),
  .whole .name (.name .nameStarts)]

/-- The forms of the rules for words, in their order. -/
def wordForms : List Form :=
  .whole .keyword .keyword 1 ::
  .whole .constant (.wholeWord (constantNames.map String.toList)) 1 ::
  .whole .builtin (.wholeWord (builtinNames.map String.toList)) 1 :: nameForms

/-- The forms of the rules for what announces a regular expression, and for one between slashes. -/
def regexForms : List Form :=
  (rootForms.drop 1).take 6

theorem filter_wordForms : rootForms.filter (· ∈ wordForms) = wordForms := by
  decide +kernel

/-- Besides the rules for words only those for regular expressions may take a text that starts with
a letter or an underscore. -/
theorem starts_of_isNameStart (start : isNameStart c = true) :
    ∀ entry ∈ rootStarts, entry.1 ∉ regexForms ++ wordForms → entry.2 c = false := by
  have checked : ∀ entry ∈ rootStarts, entry.1 ∉ regexForms ++ wordForms →
      ∀ n < 128, isNameStart (Char.ofNat n) = true → entry.2 (Char.ofNat n) = false := by
    decide +kernel
  intro entry listed other
  exact of_ascii (p := fun c => isNameStart c = true → entry.2 c = false)
    (checked entry listed other) (toNat_lt_of_isNamePart (isNamePart_of_isNameStart start)) start

section Words

variable (start : isNameStart c = true)
include start

theorem takeWhile_isNamePart_cons :
    (c :: s).takeWhile isNamePart = c :: s.takeWhile isNamePart := by
  rw [List.takeWhile_cons, if_pos (isNamePart_of_isNameStart start)]

theorem dropWhile_isNamePart_cons : (c :: s).dropWhile isNamePart = s.dropWhile isNamePart := by
  rw [List.dropWhile_cons, if_pos (isNamePart_of_isNameStart start)]

/-- A rule that prefers the name that stands at the start of the text takes it. -/
theorem wins_takeWhile {r : Regex} (category : Category) (groups : Nat)
    (prefers : r.Prefers none ((c :: s).takeWhile isNamePart) ((c :: s).dropWhile isNamePart))
    (forms : List Form) :
    Wins (.whole category r groups :: forms) (c :: s) (.whole category r groups)
      ((c :: s).takeWhile isNamePart) := by
  have nonempty : (c :: s).takeWhile isNamePart ≠ [] := by
    rw [takeWhile_isNamePart_cons start]
    exact List.cons_ne_nil _ _
  have wins : Wins (.whole category r groups :: forms) _ (.whole category r groups) _ :=
    wins_of_prefers nonempty prefers
  rwa [List.takeWhile_append_dropWhile] at wins

/-- A rule for names that may start as the text does takes all of the name. -/
theorem wins_name {set : CharClass} (covered : set.covers c = true) (category : Category)
    (forms : List Form) :
    Wins (.whole category (.name set) :: forms) (c :: s) (.whole category (.name set))
      ((c :: s).takeWhile isNamePart) := by
  apply wins_takeWhile start
  rw [takeWhile_isNamePart_cons start, dropWhile_isNamePart_cons start]
  exact .seq (u := [c]) (Regex.prefers_one covered)
    (Regex.prefers_star_takeWhile CharClass.covers_nameParts (some c) s)

theorem exists_wins_classifyName :
    ∃ form, form.action = .whole (classifyName (c :: s)).1 ∧
      Wins nameForms (c :: s) form (classifyName (c :: s)).2 := by
  unfold classifyName
  split
  case isTrue label =>
    obtain ⟨rest, eq, prefers⟩ := Regex.exists_prefers_function label.1 label.2
    have wins : Wins nameForms _ (.whole .function .function 1) _ :=
      wins_of_prefers (by simp) prefers
    rw [← eq] at wins
    exact ⟨_, rfl, wins⟩
  case isFalse no_label =>
    have misses : Regex.Misses .function none (c :: s) := by
      intro u v eq takes
      rw [eq] at no_label
      exact no_label takes.of_function
    split
    case isTrue capital =>
      have covered : CharClass.capitals.covers c = true := CharClass.covers_capitals c ▸ capital
      exact ⟨_, rfl, .of_misses misses (wins_name start covered .constant _)⟩
    case isFalse small =>
      have other : ∀ d ∈ (c :: s).head?, CharClass.capitals.covers d = false := by
        rintro d ⟨⟩
        rw [CharClass.covers_capitals]
        simpa using small
      have covered : CharClass.nameStarts.covers c = true := CharClass.covers_nameStarts c ▸ start
      exact ⟨_, rfl, .of_misses misses (.of_misses (.seq (Regex.misses_one other))
        (wins_name start covered .name _))⟩

theorem misses_keyword
    (h : Regex.Misses (.wholeWord (keywordNames.map String.toList)) none (c :: s)) :
    Regex.Misses .keyword none (c :: s) := by
  have arrow {d : Char} (apart : isNameStart d = false) : ∀ e ∈ (c :: s).head?, e ≠ d := by
    rintro e ⟨⟩
    exact ne_of_class start apart
  exact .alt h (.alt (.seq (Regex.misses_char (arrow (by decide))))
    (.seq (Regex.misses_char (arrow (by decide)))))

/-- Of the rules for words the one wins that the classification tells. -/
theorem exists_wins_classifyWord :
    ∃ form, form.action = .whole (classifyWord (c :: s)).1 ∧
      Wins wordForms (c :: s) form (classifyWord (c :: s)).2 := by
  have keyword_listed : keywordNames ∈ [keywordNames, constantNames, builtinNames] := by simp
  have constant_listed : constantNames ∈ [keywordNames, constantNames, builtinNames] := by simp
  have builtin_listed : builtinNames ∈ [keywordNames, constantNames, builtinNames] := by simp
  rw [classifyWord]
  cases ahead : reservedAhead? (c :: s) with
  | none =>
    have misses {names : List String}
        (listed : names ∈ [keywordNames, constantNames, builtinNames]) :
        Regex.Misses (.wholeWord (names.map String.toList)) none (c :: s) :=
      Regex.misses_wholeWord (isWord_of_mem_reserved names listed)
        (goes_on_of_reservedAhead? ahead names listed)
    obtain ⟨form, action, wins⟩ := exists_wins_classifyName (s := s) start
    exact ⟨form, action, .of_misses (misses_keyword start (misses keyword_listed))
      (.of_misses (misses constant_listed) (.of_misses (misses builtin_listed) wins))⟩
  | some category =>
    obtain ⟨ends, reserved⟩ := of_reservedAhead? ahead
    have prefers {names : List String}
        (listed : names ∈ [keywordNames, constantNames, builtinNames])
        (mem : (c :: s).takeWhile isNamePart ∈ names.map String.toList) :
        Regex.Prefers (.wholeWord (names.map String.toList)) none
          ((c :: s).takeWhile isNamePart) ((c :: s).dropWhile isNamePart) :=
      Regex.prefers_wholeWord (isWord_of_mem_reserved names listed) mem ends
    have misses {names : List String}
        (listed : names ∈ [keywordNames, constantNames, builtinNames])
        (notMem : (c :: s).takeWhile isNamePart ∉ names.map String.toList) :
        Regex.Misses (.wholeWord (names.map String.toList)) none (c :: s) :=
      Regex.misses_wholeWord (isWord_of_mem_reserved names listed) fun mem => absurd mem notMem
    rcases reserved_cases reserved with
      ⟨rfl, mem⟩ | ⟨rfl, no_keyword, mem⟩ | ⟨rfl, no_keyword, no_constant, mem⟩
    · exact ⟨_, rfl, wins_takeWhile start _ 1 (.altLeft (prefers keyword_listed mem)) _⟩
    · exact ⟨_, rfl, .of_misses (misses_keyword start (misses keyword_listed no_keyword))
        (wins_takeWhile start _ 1 (prefers constant_listed mem) _)⟩
    · exact ⟨_, rfl, .of_misses (misses_keyword start (misses keyword_listed no_keyword))
        (.of_misses (misses constant_listed no_constant)
          (wins_takeWhile start _ 1 (prefers builtin_listed mem) _))⟩

/-- Where no regular expression is announced, the word that stands there is chosen. -/
theorem exists_choose_word
    (no_regex : ∀ rule ∈ fancyTable.rules .root, rule.form ∈ regexForms →
      rule.attempt (c :: s) = .missed) :
    ∃ rule m, choose (fancyTable.rules .root) (c :: s) = .rule rule m ∧
      rule.action = .whole (classifyWord (c :: s)).1 ∧
      m.found.Fits (classifyWord (c :: s)).2 ∧ (classifyWord (c :: s)).2 <+: c :: s := by
  obtain ⟨form, action, wins⟩ := exists_wins_classifyWord (s := s) start
  have others : ∀ rule ∈ fancyTable.rules .root, rule.form ∉ wordForms →
      rule.attempt (c :: s) = .missed := by
    intro rule mem no_word
    by_cases regex : rule.form ∈ regexForms
    · exact no_regex rule mem regex
    · refine Rule.attempt_eq_missed_of_starts mem (fun entry listed same => ?_) s
      refine starts_of_isNameStart start entry listed ?_
      rw [same, List.mem_append, not_or]
      exact ⟨regex, no_word⟩
  obtain ⟨rule, m, chosen, rfl, fits⟩ := wins.exists_choose filter_wordForms others
  exact ⟨rule, m, chosen, action, fits, wins.1⟩

end Words

/-! ## Reserved words in their places -/

theorem ne_name_of_reserved (reserved : reservedCategory? w = some category) :
    category ≠ .name := by
  rcases reserved_cases reserved with ⟨rfl, -⟩ | ⟨rfl, -⟩ | ⟨rfl, -⟩
  all_goals nofun

/-- The words for values begin with small letters. -/
theorem ne_constant_of_reserved (reserved : reservedCategory? w = some category)
    (capital : w.head?.any Char.isUpper = true) : category ≠ .constant := by
  have small : ∀ w ∈ constantNames.map String.toList, w.head?.any Char.isUpper = false := by decide
  rcases reserved_cases reserved with ⟨rfl, -⟩ | ⟨rfl, -, mem⟩ | ⟨rfl, -⟩
  · nofun
  · rw [small w mem] at capital
    cases capital
  · nofun

theorem classifyName_cases (s : List Char) :
    classifyName s = (.function, s.takeWhile isLabelPart ++ [':']) ∨
      (s.head?.any Char.isUpper = true ∧ classifyName s = (.constant, s.takeWhile isNamePart)) ∨
      classifyName s = (.name, s.takeWhile isNamePart) := by
  unfold classifyName
  split
  · exact Or.inl rfl
  · split
    · exact Or.inr (Or.inl ⟨‹_›, rfl⟩)
    · exact Or.inr (Or.inr rfl)

/-- A reserved word that does not count as such has a word character beyond ASCII behind it. -/
theorem exists_beyond_of_reservedAhead? (ahead : reservedAhead? s = none)
    (reserved : reservedCategory? (s.takeWhile isNamePart) = some category) :
    ∃ d, (s.dropWhile isNamePart).head? = some d ∧ isWordCharacter d = true ∧ 128 ≤ d.toNat := by
  unfold reservedAhead? at ahead
  split at ahead
  · rename_i goes_on
    obtain ⟨d, head, word⟩ := (Option.any_eq_true _ _).1 goes_on
    exact ⟨d, head, word, le_toNat_of_not_isNamePart word (head?_dropWhile_eq_false head)⟩
  · rw [reserved] at ahead
    cases ahead

/-- A reserved word is classified as such exactly where the word ends. It is classified as a plain
name only before a word character beyond ASCII. -/
theorem classifyWord_of_reserved (reserved : reservedCategory? (classifyWord s).2 = some category) :
    (classifyWord s).2 = s.takeWhile isNamePart ∧
      ((classifyWord s).1 = category ∧
          (s.dropWhile isNamePart).head?.any isWordCharacter = false ∨
        (classifyWord s).1 ∈ [.constant, .name] ∧ (classifyWord s).1 ≠ category ∧
          ∃ d, (s.dropWhile isNamePart).head? = some d ∧ isWordCharacter d = true ∧
            128 ≤ d.toNat) := by
  unfold classifyWord at reserved ⊢
  cases ahead : reservedAhead? s with
  | some own =>
    rw [ahead] at reserved
    obtain ⟨ends, same⟩ := of_reservedAhead? ahead
    exact ⟨rfl, Or.inl ⟨Option.some.inj (same.symm.trans reserved), ends⟩⟩
  | none =>
    rw [ahead] at reserved
    dsimp only at reserved ⊢
    rcases classifyName_cases s with label | ⟨capital, constant⟩ | name
    · -- no reserved word ends with a colon
      rw [label] at reserved
      have part := (isWord_of_reserved reserved).2 ':' (by simp)
      exact absurd part (by decide)
    · rw [constant] at reserved ⊢
      have start : (s.takeWhile isNamePart).head?.any Char.isUpper = true := by
        obtain ⟨c, head, upper⟩ := (Option.any_eq_true _ _).1 capital
        obtain ⟨t, rfl⟩ := List.head?_eq_some_iff.1 head
        have first : isNameStart c = true := by
          rw [isNameStart, CharClass.isAlpha_eq, upper, Bool.or_true, Bool.true_or]
        rw [takeWhile_isNamePart_cons first]
        exact upper
      exact ⟨rfl, Or.inr ⟨by simp, (ne_constant_of_reserved reserved start).symm,
        exists_beyond_of_reservedAhead? ahead reserved⟩⟩
    · rw [name] at reserved ⊢
      exact ⟨rfl, Or.inr ⟨by simp, (ne_name_of_reserved reserved).symm,
        exists_beyond_of_reservedAhead? ahead reserved⟩⟩

end FancyTokens
