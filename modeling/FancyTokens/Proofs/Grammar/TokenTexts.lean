import FancyTokens.Proofs.Grammar.Forms

/-!
# Texts of tokens by category

`Category.Fits` says which texts a token of a category can have. The expressions of the rules for
ordinary source take texts that fit, three of them only because rules before them have taken the
other texts of their patterns (`Category.Leads`): a comma, a slash and a question mark are operators
before they could be punctuation, a capital starts a constant before it could start a name, and a
digit starts a whole number before it could start one with a point.
-/

namespace FancyTokens

/-! ## Texts -/

/-- A number in a base that its prefix tells. -/
def IsPrefixed (marks : List Char) (digit : Char → Bool) (w : List Char) : Prop :=
  ∃ mark ∈ marks, ∃ digits, w = '0' :: mark :: digits ∧ IsGrouped digit digits

/-- The exponent of a number. -/
def IsExponent (w : List Char) : Prop :=
  ∃ mark ∈ ['e', 'E'], ∃ sign ∈ [[], ['+'], ['-']], ∃ digits,
    IsDigits Char.isDigit digits ∧ w = mark :: sign ++ digits

/-- A regular expression between slashes: none of its units is a bare slash or line break. -/
def IsSlashLiteral (w : List Char) : Prop :=
  ∃ letter ∈ [[], ['m']], ∃ body flags, IsEscaped ['/', '\\', '\n'] body ∧
    (∀ c ∈ flags, c ∈ slashFlags) ∧ w = letter ++ '/' :: body ++ '/' :: flags

/-- A string between quotation marks: none of its units is a bare one. -/
def IsString (w : List Char) : Prop :=
  ∃ body, IsEscaped ['"', '\\'] body ∧ w = '"' :: body ++ ['"']

/-- A string between three quotation marks on each side. -/
def IsTripleString (w : List Char) : Prop :=
  ∃ body, IsEscaped ['\\'] body ∧ w = ['"', '"', '"'] ++ body ++ ['"', '"', '"']

def isOctalDigit (c : Char) : Bool :=
  '0' ≤ c && c ≤ '7'

def isHexadecimalDigit (c : Char) : Bool :=
  c.isDigit || ('A' ≤ c && c ≤ 'F') || ('a' ≤ c && c ≤ 'f')

/-- The text is one that a token of the category can have where the text `behind` follows. -/
def Category.Fits (w behind : List Char) : Category → Prop
  | .text | .comment | .variable | .number => False
  | .whitespace => w ≠ [] ∧ ∀ c ∈ w, isBlank c = true
  | .error => ∃ c, w = [c] ∧ c ≠ '\n'
  | .lineComment => ∃ body, '\n' ∉ body ∧
    (w = '#' :: body ++ ['\n'] ∨ w = '#' :: body ∧ behind = [])
  | .keyword => w ∈ keywordNames.map String.toList ∨ w = ['-', '>'] ∨ w = ['=', '>']
  | .builtin => w ∈ builtinNames.map String.toList
  | .constant => w ∈ constantNames.map String.toList ∨ IsName Char.isUpper w
  | .name => IsName (fun c => c.isLower || c = '_') w
  | .function => ∃ c part, c.isAlpha = true ∧
    (∀ d ∈ part, isNamePart d = true ∨ d ∈ functionMarks) ∧ w = c :: part ++ [':']
  | .instanceVariable => ∃ name, IsName isNameStart name ∧ w = '@' :: name
  | .classVariable => ∃ name, IsName isNameStart name ∧ w = '@' :: '@' :: name
  | .operator => (w ≠ [] ∧ ∀ c ∈ w, c ∈ operatorChars) ∨ w = ['@'] ∨ w = ['@', '@']
  | .punctuation => ∃ c ∈ ['(', ')', '\x7b', '\x7d', ';', '|', ':', '\\'], w = [c]
  | .symbol => w = ['\'', '[', ']'] ∨ ∃ name, name ≠ [] ∧ w = '\'' :: name ∧
    ∀ c ∈ name, c ∉ ['\'', '[', ']', '(', ')', '\x7b', '\x7d', ','] ∧ isBlank c = false
  | .string => IsString w ∨ IsTripleString w
  | .regex => IsOpener w ∨ IsLiteral w ∨ IsSlashLiteral w
  | .octal => ∃ digits, IsGrouped isOctalDigit digits ∧
    (w = '0' :: digits ∨ w = '0' :: 'o' :: digits ∨ w = '0' :: 'O' :: digits)
  | .hexadecimal => IsPrefixed ['x', 'X'] isHexadecimalDigit w
  | .binary => IsPrefixed ['b', 'B'] (· ∈ ['0', '1']) w
  | .integer => IsGrouped isDecimalDigit w
  | .float => ∃ digits exponent, IsDigits isDecimalDigit digits ∧
    (exponent = [] ∨ IsExponent exponent) ∧ w = '.' :: digits ++ exponent

/-- The first character is not one at which a rule of another category comes first. -/
def Category.Leads (w : List Char) : Category → Prop
  | .punctuation => ∀ c ∈ w.head?, c ∉ operatorChars
  | .name => ∀ c ∈ w.head?, c.isUpper = false
  | .float => ∀ c ∈ w.head?, isDecimalDigit c = false
  | _ => True

/-! ## Texts that the forms take -/

namespace CharClass

theorem covers_blanks (c : Char) : blanks.covers c = isBlank c := by
  simp [blanks, ofNamed, covers, ClassItem.covers, NamedClass.covers]

theorem covers_decimalDigits (c : Char) : decimalDigits.covers c = isDecimalDigit c := by
  simp [decimalDigits, ofNamed, covers, ClassItem.covers, NamedClass.covers]

theorem covers_octalDigits (c : Char) : octalDigits.covers c = isOctalDigit c := by
  simp [octalDigits, covers, ClassItem.covers, isOctalDigit]

theorem covers_asciiDigits (c : Char) : asciiDigits.covers c = c.isDigit := by
  simp [asciiDigits, covers, range_covers_digit]

theorem covers_hexadecimalDigits (c : Char) :
    hexadecimalDigits.covers c = isHexadecimalDigit c := by
  have letter : ∀ low high, (ClassItem.range low high).covers c = (low ≤ c && c ≤ high) :=
    fun _ _ => rfl
  simp [hexadecimalDigits, covers, range_covers_digit, letter 'A', letter 'a', isHexadecimalDigit,
    Bool.or_assoc]

theorem covers_symbolParts_iff {c : Char} : symbolParts.covers c = true ↔
    c ∉ ['\'', '[', ']', '(', ')', '\x7b', '\x7d', ','] ∧ isBlank c = false := by
  have blank : (ClassItem.named .blank false).covers c = isBlank c := by
    simp [ClassItem.covers, NamedClass.covers]
  simp only [symbolParts, covers, List.any_cons, List.any_nil, ClassItem.covers_range_self, blank,
    bne_iff_ne, ne_eq, Bool.not_eq_true, Bool.or_eq_false_iff, decide_eq_false_iff_not,
    List.mem_cons, List.not_mem_nil, not_or, not_false_eq_true, and_true]
  constructor
  · rintro ⟨quote, blank, others⟩
    exact ⟨⟨quote, others⟩, blank⟩
  · rintro ⟨⟨quote, others⟩, blank⟩
    exact ⟨quote, blank, others⟩

end CharClass

namespace Regex

variable {before : Option Char} {w behind : List Char} {cs : List Char} {greedy : Bool}

theorem Takes.mem_of_star_oneOf (h : Takes (.star greedy (oneOf cs)) before w behind) :
    ∀ c ∈ w, c ∈ cs := by
  intro c mem
  simpa using CharClass.covers_ofChars.1 (h.covers_of_star_one c mem)

theorem Takes.fits_whitespace (h : Takes (.plus true (.one .blanks)) before w behind) :
    Category.whitespace.Fits w behind := by
  obtain ⟨nonempty, all⟩ := h.of_plus_one
  refine ⟨nonempty, ?_⟩
  intro c mem
  rw [← CharClass.covers_blanks]
  exact all c mem

theorem Takes.isSlashLiteral (h : Takes slashLiteral before w behind) : IsSlashLiteral w := by
  obtain ⟨letter, _, rfl, first, _, h⟩ := h.exists_of_seq
  obtain ⟨_, rfl, _, h⟩ := h.exists_of_char_seq
  obtain ⟨body, _, rfl, escaped, _, h⟩ := h.exists_of_seq
  obtain ⟨flags, rfl, _, last⟩ := h.exists_of_char_seq
  have letters : letter ∈ [[], ['m']] := by
    obtain rfl | m := first.of_optional
    · exact List.mem_cons_self
    · rw [of_char m]
      exact List.mem_cons_of_mem _ List.mem_cons_self
  exact ⟨letter, letters, body, flags, escaped.isEscaped, last.mem_of_star_oneOf, by simp⟩

theorem Takes.fits_lineComment (h : Takes comment before w behind) :
    Category.lineComment.Fits w behind := by
  obtain ⟨_, rfl, _, h⟩ := h.exists_of_char_seq
  obtain ⟨body, _, rfl, inLine, _, last⟩ := h.exists_of_seq
  have noBreak : '\n' ∉ body := by
    intro mem
    have other := CharClass.covers_ofChars.1 (inLine.covers_of_star_one _ mem)
    simp at other
  refine ⟨body, noBreak, ?_⟩
  cases last with
  | altLeft newline =>
    rw [of_char newline]
    exact Or.inl rfl
  | altRight ends =>
    cases ends
    exact Or.inr ⟨by simp, rfl⟩

theorem Takes.fits_symbol (h : Takes symbol before w behind) : Category.symbol.Fits w behind := by
  obtain ⟨name, rfl, _, h⟩ := h.exists_of_char_seq
  cases h with
  | group h =>
    cases h with
    | altLeft h =>
      obtain ⟨nonempty, all⟩ := h.of_plus_one
      exact Or.inr ⟨name, nonempty, rfl, fun c mem =>
        CharClass.covers_symbolParts_iff.1 (all c mem)⟩
    | altRight h =>
      rw [of_literal h]
      exact Or.inl rfl

theorem Takes.isString (h : Takes string before w behind) : IsString w := by
  obtain ⟨_, rfl, _, h⟩ := h.exists_of_char_seq
  obtain ⟨body, _, rfl, escaped, _, last⟩ := h.exists_of_seq
  rw [of_char last]
  exact ⟨body, escaped.isEscaped, rfl⟩

theorem Takes.isTripleString (h : Takes tripleString before w behind) : IsTripleString w := by
  obtain ⟨_, rfl, _, h⟩ := h.exists_of_char_seq
  obtain ⟨_, rfl, _, h⟩ := h.exists_of_char_seq
  obtain ⟨_, rfl, _, h⟩ := h.exists_of_char_seq
  obtain ⟨body, _, rfl, escaped, _, last⟩ := h.exists_of_seq
  rw [of_literal last]
  exact ⟨body, escaped.isEscaped, rfl⟩

theorem Takes.fits_keyword (h : Takes keyword before w behind) :
    Category.keyword.Fits w behind := by
  cases h with
  | altLeft h => exact Or.inl h.mem_of_wholeWord
  | altRight h =>
    cases h with
    | altLeft h => exact Or.inr (Or.inl h.of_literal)
    | altRight h => exact Or.inr (Or.inr h.of_literal)

theorem Takes.fits_function (h : Takes function before w behind) :
    Category.function.Fits w behind := by
  obtain ⟨_, _, rfl, first, _, h⟩ := h.exists_of_seq
  obtain ⟨part, _, rfl, more, _, last⟩ := h.exists_of_seq
  obtain ⟨c, rfl, letter⟩ := of_one first
  rw [CharClass.covers_letters] at letter
  refine ⟨c, part, letter, ?_, by rw [of_char last]; rfl⟩
  obtain ⟨parts, rfl, all⟩ := more.exists_flatten_of_star
  intro d mem
  obtain ⟨u, memParts, memU⟩ := List.mem_flatten.1 mem
  obtain ⟨_, _, takes⟩ := all u memParts
  cases takes with
  | group takes =>
    cases takes with
    | altLeft takes =>
      obtain ⟨e, rfl, covered⟩ := of_one takes
      rw [List.mem_singleton.1 memU, ← CharClass.covers_nameParts]
      exact Or.inl covered
    | altRight takes =>
      obtain ⟨e, mark, rfl⟩ := of_oneOf takes
      rw [List.mem_singleton.1 memU]
      exact Or.inr mark

theorem Takes.fits_operator (h : Takes (.plus true (oneOf operatorChars)) before w behind) :
    Category.operator.Fits w behind :=
  Or.inl ⟨h.ne_nil rfl, h.star_of_plus.mem_of_star_oneOf⟩

theorem Takes.fits_sigil (h : Takes (.seq (.char '@') (maybe (.char '@'))) before w behind) :
    Category.operator.Fits w behind := by
  obtain ⟨v, rfl, _, h⟩ := h.exists_of_char_seq
  obtain rfl | second := h.of_optional
  · exact Or.inr (Or.inl rfl)
  · rw [of_char second]
    exact Or.inr (Or.inr rfl)

theorem Takes.fits_punctuation (h : Takes (oneOf punctuationChars) before w behind)
    (leads : Category.punctuation.Leads w) : Category.punctuation.Fits w behind := by
  obtain ⟨c, mem, rfl⟩ := of_oneOf h
  have other : c ∉ operatorChars := leads c rfl
  refine ⟨c, ?_, rfl⟩
  have left : ∀ c ∈ punctuationChars, c ∉ operatorChars →
      c ∈ ['(', ')', '\x7b', '\x7d', ';', '|', ':', '\\'] := by
    simp [punctuationChars, operatorChars]
  exact left c mem other

theorem Takes.fits_constant (h : Takes (name .capitals) before w behind) :
    Category.constant.Fits w behind := by
  obtain ⟨c, part, rfl, covered, all⟩ := h.isName
  rw [CharClass.covers_capitals] at covered
  exact Or.inr ⟨c, part, rfl, covered, all⟩

theorem Takes.isName_of_nameStarts (h : Takes (name .nameStarts) before w behind) :
    IsName isNameStart w := by
  obtain ⟨c, part, rfl, covered, all⟩ := h.isName
  rw [CharClass.covers_nameStarts] at covered
  exact ⟨c, part, rfl, covered, all⟩

theorem Takes.fits_instanceVariable
    (h : Takes (.seq (.char '@') (name .nameStarts)) before w behind) :
    Category.instanceVariable.Fits w behind := by
  obtain ⟨v, rfl, _, h⟩ := h.exists_of_char_seq
  exact ⟨v, h.isName_of_nameStarts, rfl⟩

theorem Takes.fits_classVariable
    (h : Takes (.seq (.char '@') (.seq (.char '@') (name .nameStarts))) before w behind) :
    Category.classVariable.Fits w behind := by
  obtain ⟨_, rfl, _, h⟩ := h.exists_of_char_seq
  obtain ⟨v, rfl, _, h⟩ := h.exists_of_char_seq
  exact ⟨v, h.isName_of_nameStarts, rfl⟩

theorem Takes.fits_name (h : Takes (name .nameStarts) before w behind)
    (leads : Category.name.Leads w) : Category.name.Fits w behind := by
  obtain ⟨c, part, rfl, start, all⟩ := h.isName_of_nameStarts
  have small : c.isUpper = false := leads c rfl
  refine ⟨c, part, rfl, ?_, all⟩
  simpa [isNameStart, CharClass.isAlpha_eq, small] using start

/-! ## Numbers -/

theorem Takes.isGrouped_of {set : CharClass} {digit : Char → Bool}
    (covers : ∀ c, set.covers c = digit c) (h : Takes (grouped set) before w behind) :
    IsGrouped digit w := by
  have same : set.covers = digit := funext covers
  rw [← same]
  exact h.isGrouped

theorem Takes.fits_octal (h : Takes octal before w behind) : Category.octal.Fits w behind := by
  obtain ⟨_, rfl, _, h⟩ := h.exists_of_char_seq
  obtain ⟨mark, digits, rfl, letter, _, h⟩ := h.exists_of_seq
  refine ⟨digits, h.isGrouped_of CharClass.covers_octalDigits, ?_⟩
  obtain rfl | letter := letter.of_optional
  · exact Or.inl rfl
  · obtain ⟨c, mem, rfl⟩ := of_oneOf letter
    rw [List.mem_cons, List.mem_singleton] at mem
    obtain rfl | rfl := mem
    · exact Or.inr (Or.inl rfl)
    · exact Or.inr (Or.inr rfl)

theorem Takes.isPrefixed {marks : List Char} {set : CharClass} {digit : Char → Bool}
    (covers : ∀ c, set.covers c = digit c)
    (h : Takes (.seq (.char '0') (.seq (oneOf marks) (grouped set))) before w behind) :
    IsPrefixed marks digit w := by
  obtain ⟨_, rfl, _, h⟩ := h.exists_of_char_seq
  obtain ⟨_, digits, rfl, letter, _, number⟩ := h.exists_of_seq
  obtain ⟨mark, mem, rfl⟩ := of_oneOf letter
  exact ⟨mark, mem, digits, rfl, number.isGrouped_of covers⟩

theorem Takes.isDigits {set : CharClass} {digit : Char → Bool}
    (covers : ∀ c, set.covers c = digit c) (h : Takes (.plus greedy (.one set)) before w behind) :
    IsDigits digit w := by
  obtain ⟨nonempty, all⟩ := h.of_plus_one
  exact ⟨nonempty, fun c mem => covers c ▸ all c mem⟩

theorem Takes.isExponent (h : Takes exponent before w behind) : IsExponent w := by
  obtain ⟨_, _, rfl, letter, _, h⟩ := h.exists_of_seq
  obtain ⟨sign, digits, rfl, plusMinus, _, number⟩ := h.exists_of_seq
  obtain ⟨mark, mem, rfl⟩ := of_oneOf letter
  have signs : sign ∈ [[], ['+'], ['-']] := by
    obtain rfl | one := plusMinus.of_optional
    · decide
    · obtain ⟨c, mem, rfl⟩ := of_oneOf one
      rw [List.mem_cons, List.mem_singleton] at mem
      obtain rfl | rfl := mem <;> decide
  exact ⟨mark, mem, sign, signs, digits, number.isDigits CharClass.covers_asciiDigits,
    by simp⟩

/-- A number with a point that does not start with a digit starts with the point. -/
theorem Takes.exists_of_pointed (h : Takes pointed before w behind)
    (other : ∀ c ∈ w.head?, isDecimalDigit c = false) :
    ∃ digits, IsDigits isDecimalDigit digits ∧ w = '.' :: digits := by
  have no_digit {u v : List Char} (eq : w = u ++ v)
      (all : ∀ c ∈ u, CharClass.decimalDigits.covers c = true) : u = [] := by
    cases u with
    | nil => rfl
    | cons c u =>
      have digit := all c List.mem_cons_self
      rw [CharClass.covers_decimalDigits, other c (by rw [eq]; rfl)] at digit
      cases digit
  cases h with
  | altLeft h =>
    obtain ⟨digits, _, eq, first, -⟩ := h.exists_of_seq
    obtain ⟨nonempty, all⟩ := first.of_plus_one
    exact absurd (no_digit eq all) nonempty
  | altRight h =>
    obtain ⟨digits, _, eq, first, _, h⟩ := h.exists_of_seq
    obtain ⟨fraction, rfl, _, last⟩ := h.exists_of_char_seq
    rw [no_digit eq first.covers_of_star_one] at eq
    exact ⟨fraction, last.isDigits CharClass.covers_decimalDigits, eq⟩

theorem Takes.fits_float (h : Takes float before w behind) (leads : Category.float.Leads w) :
    Category.float.Fits w behind := by
  obtain ⟨u, v, rfl, number, _, power⟩ := h.exists_of_seq
  cases number with
  | group number =>
    have nonempty : u ≠ [] := number.ne_nil rfl
    have other : ∀ c ∈ u.head?, isDecimalDigit c = false := by
      intro c mem
      apply leads
      rw [List.head?_append, mem]
      rfl
    obtain ⟨digits, isDigits, rfl⟩ := number.exists_of_pointed other
    refine ⟨digits, v, isDigits, ?_, rfl⟩
    obtain rfl | power := power.of_optional
    · exact Or.inl rfl
    · cases power with
      | group power => exact Or.inr power.isExponent

end Regex
end FancyTokens
