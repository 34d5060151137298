import FancyTokens.Settings.Loader
import FancyTokens.Proofs.Text.Denotation
import FancyTokens.Proofs.Text.LetterCase

/-!
# What the texts of settings say

The text of a setting is typed before it is stored (`isTyped_valueOfText`) and converted once more
when its field is read. Both together take just the texts that say something for the option
(`Sets`): a number too large for the first way is read by the second one, so sizes are exact up to
64 bits (`toUnsigned_valueOfText_eq_ok_iff`), while switches have no second way for numbers
(`toBool_valueOfText_eq_ok_iff`).
-/

namespace FancyTokens

namespace Settings

/-! ## What texts say -/

/-- The words for a truth value. -/
def wordsFor : Bool → List String
  | true => ["true", "on", "yes"]
  | false => ["false", "off", "no"]

/-- The text is a word for a truth value, in any letter case. -/
def IsWordFor (text : List Char) (b : Bool) : Prop :=
  ∃ word ∈ wordsFor b, asciiLowercase text = word.toList

/-- What a text says as a size of tabs: a number of 64 bits or a truth value. -/
inductive SaysSize : List Char → Nat → Prop
  | number {text n} : DenotesUnsigned text n → n < 2 ^ 64 → SaysSize text n
  | minusZero (k : Nat) : SaysSize ('-' :: List.replicate (k + 1) '0') 0
  | word {text b} : IsWordFor text b → SaysSize text b.toNat

/-- What a text says as a switch: whether a number of 64 bits with a sign is not zero, or a truth
value. -/
inductive SaysSwitch : List Char → Bool → Prop
  | number {text i} : DenotesSigned text i → -2 ^ 63 ≤ i → i < 2 ^ 63 →
    SaysSwitch text (i != 0)
  | word {text b} : IsWordFor text b → SaysSwitch text b

/-- The text says what an option is to be; the others are as they are by default. -/
inductive Sets (text : List Char) : Preprocessing.Key → Preprocessing → Prop
  | stripNewlines {b} : SaysSwitch text b → Sets text .stripNewlines { stripNewlines := b }
  | stripAll {b} : SaysSwitch text b → Sets text .stripAll { stripAll := b }
  | ensureNewline {b} : SaysSwitch text b → Sets text .ensureNewline { ensureNewline := b }
  | tabSize {n} : SaysSize text n → Sets text .tabSize { tabSize := n }

/-- What a text is typed as: a word as a truth value, a number of 64 bits with a sign as an integer
and anything else as a text. -/
inductive IsTyped (text : List Char) : Scalar → Prop
  | word {b} : IsWordFor text b → IsTyped text (.boolean b)
  | number {i} : DenotesSigned text i → -2 ^ 63 ≤ i → i < 2 ^ 63 → IsTyped text (.integer i)
  | other : (∀ i, DenotesSigned text i → ¬ (-2 ^ 63 ≤ i ∧ i < 2 ^ 63)) →
    IsTyped text (.string text)

variable {text key : List Char} {b : Bool} {n : Nat} {i : Int}

/-! ## Words -/

theorem truthOfWord?_eq_some_iff :
    truthOfWord? text = some b ↔ ∃ word ∈ wordsFor b, text = word.toList := by
  have listed : ∀ entry ∈ truthWords, entry.1 ∈ wordsFor entry.2 := by decide
  have read : ∀ b, ∀ word ∈ wordsFor b, truthOfWord? word.toList = some b := by decide +kernel
  constructor
  · intro h
    obtain ⟨entry, found, rfl⟩ := Option.map_eq_some_iff.1 h
    have same := List.find?_some found
    exact ⟨entry.1, listed _ (List.mem_of_find?_eq_some found), (eq_of_beq same).symm⟩
  · rintro ⟨word, mem, rfl⟩
    exact read b word mem

/-- A text is taken for a truth value just if it is a word for it in some letter case. -/
theorem truthOfWord?_lowercase_eq_some_iff :
    truthOfWord? (lowercase text) = some b ↔ IsWordFor text b := by
  have plain : ∀ b, ∀ word ∈ wordsFor b, word.toList.all isPlainLower = true := by decide +kernel
  rw [truthOfWord?_eq_some_iff]
  refine exists_congr fun word => and_congr_right fun mem => ?_
  exact lowercase_eq_iff (List.all_eq_true.1 (plain b word mem))

/-- A text is a word for one truth value only. -/
theorem IsWordFor.unique {b' : Bool} (h : IsWordFor text b) (h' : IsWordFor text b') : b = b' := by
  have read := truthOfWord?_lowercase_eq_some_iff.2 h
  rw [truthOfWord?_lowercase_eq_some_iff.2 h'] at read
  exact (Option.some.inj read).symm

/-- A text of letters denotes no number. -/
theorem not_denotes_of_letters (letters : ∀ c ∈ asciiLowercase text, c.isAlpha = true) :
    ¬ DenotesSigned text i := by
  intro denotes
  have digit : ∀ c : Char, c.isDigit = true → c.toLower.isAlpha = false := by
    intro c digit
    have ascii : c.toNat < 128 := toNat_lt_of_isAlphanum (by simp [Char.isAlphanum, digit])
    exact of_ascii (p := fun c => c.isDigit = true → c.toLower.isAlpha = false) (by decide) ascii
      digit
  obtain ⟨c, mem, head⟩ := denotes.exists_head
  have letter : c.toLower.isAlpha = true := letters _ (List.mem_map_of_mem mem)
  obtain rfl | rfl | isDigit := head
  · cases letter
  · cases letter
  · rw [digit c isDigit] at letter
    cases letter

/-- A word denotes no number. -/
theorem IsWordFor.not_denotes (h : IsWordFor text b) : ¬ DenotesSigned text i := by
  have letters : ∀ b, ∀ word ∈ wordsFor b, word.toList.all Char.isAlpha = true := by decide +kernel
  obtain ⟨word, mem, eq⟩ := h
  refine not_denotes_of_letters ?_
  rw [eq]
  exact List.all_eq_true.1 (letters b word mem)

/-! ## Typed texts -/

theorem isTyped_valueOfText (text : List Char) : IsTyped text (valueOfText text) := by
  unfold valueOfText
  split
  case isTrue word => exact .word ⟨"true", by decide, by rw [word]; decide⟩
  case isFalse =>
    split
    case isTrue word => exact .word ⟨"false", by decide, by rw [word]; decide⟩
    case isFalse =>
      split
      case h_1 i read =>
        obtain ⟨denotes, low, high⟩ := readSigned?_ten_eq_some_iff.1 read
        exact .number denotes low high
      case h_2 read =>
        refine .other fun i denotes bounds => ?_
        rw [readSigned?_ten_eq_some_iff.2 ⟨denotes, bounds⟩] at read
        cases read

/-- A word is typed as its truth value, or left as it is. -/
theorem valueOfText_of_word (h : IsWordFor text b) :
    valueOfText text = .boolean b ∨ valueOfText text = .string text := by
  have typed := isTyped_valueOfText text
  generalize valueOfText text = v at typed ⊢
  cases typed with
  | word word => exact .inl (congrArg _ (word.unique h))
  | number denotes => exact absurd denotes h.not_denotes
  | other => exact .inr rfl

/-- A number of 64 bits with a sign is typed as an integer. -/
theorem valueOfText_of_number (h : DenotesSigned text i) (low : -2 ^ 63 ≤ i) (high : i < 2 ^ 63) :
    valueOfText text = .integer i := by
  have typed := isTyped_valueOfText text
  generalize valueOfText text = v at typed ⊢
  cases typed with
  | word word => exact absurd h word.not_denotes
  | number denotes => rw [denotes.unique h]
  | other none => exact absurd ⟨low, high⟩ (none i h)

/-- A number that does not fit is left as it is. -/
theorem valueOfText_of_large (h : DenotesSigned text i) (large : 2 ^ 63 ≤ i) :
    valueOfText text = .string text := by
  have typed := isTyped_valueOfText text
  generalize valueOfText text = v at typed ⊢
  cases typed with
  | word word => exact absurd h word.not_denotes
  | number denotes _ high =>
    rw [denotes.unique h] at high
    omega
  | other => rfl

/-! ## Sizes -/

theorem toUnsigned_integer_eq_ok_iff {origin : Origin} :
    toUnsigned key (.scalar origin (.integer i)) = .ok n ↔ (n : Int) = i := by
  unfold toUnsigned
  dsimp only
  split
  case isTrue positive =>
    rw [← Int.toNat_of_nonneg positive, Int.natCast_inj]
    exact ⟨fun h => (Except.ok.inj h).symm, fun h => congrArg _ h.symm⟩
  case isFalse negative => exact ⟨nofun, fun h => absurd (h ▸ Int.natCast_nonneg n) negative⟩

theorem toUnsigned_string_eq_ok_iff {origin : Origin} :
    toUnsigned key (.scalar origin (.string text)) = .ok n ↔
      (∃ b, IsWordFor text b ∧ b.toNat = n) ∨ (DenotesUnsigned text n ∧ n < 2 ^ 64) := by
  rw [← readUnsigned?_ten_eq_some_iff]
  simp only [← truthOfWord?_lowercase_eq_some_iff]
  unfold toUnsigned
  dsimp only
  cases word : truthOfWord? (lowercase text) with
  | some b =>
    -- a word is not read as a number
    have silent : readUnsigned? 10 64 text ≠ some n := fun read =>
      (truthOfWord?_lowercase_eq_some_iff.1 word).not_denotes
        (.unsigned (readUnsigned?_ten_eq_some_iff.1 read).1)
    constructor
    · intro h
      exact .inl ⟨b, rfl, Except.ok.inj h⟩
    · rintro (⟨_, ⟨⟩, rfl⟩ | read)
      · rfl
      · exact absurd read silent
  | none =>
    cases readUnsigned? 10 64 text with
    | none => simp
    | some m =>
      simp only [reduceCtorEq, false_and, exists_false, false_or, Option.some.injEq]
      exact ⟨Except.ok.inj, congrArg _⟩

/-- A text converts to a size just if it says this size. -/
theorem toUnsigned_valueOfText_eq_ok_iff :
    toUnsigned key (.scalar none (valueOfText text)) = .ok n ↔ SaysSize text n := by
  constructor
  · intro h
    have typed := isTyped_valueOfText text
    generalize valueOfText text = v at typed h
    cases typed with
    | word word =>
      cases h
      exact .word word
    | number denotes low high =>
      have same := toUnsigned_integer_eq_ok_iff.1 h
      cases denotes with
      | @unsigned _ m denotes =>
        obtain rfl : n = m := Int.natCast_inj.1 same
        exact .number denotes (by omega)
      | @minus digits m denotes =>
        obtain ⟨rfl, rfl⟩ : n = 0 ∧ m = 0 := by omega
        obtain ⟨k, rfl⟩ := denotes_zero_iff.1 denotes
        exact .minusZero k
    | other =>
      obtain ⟨b, word, rfl⟩ | ⟨denotes, below⟩ := toUnsigned_string_eq_ok_iff.1 h
      · exact .word word
      · exact .number denotes below
  · intro h
    cases h with
    | number denotes below =>
      have signed : DenotesSigned text n := .unsigned denotes
      by_cases small : n < 2 ^ 63
      · rw [valueOfText_of_number signed (by omega) (by omega)]
        exact toUnsigned_integer_eq_ok_iff.2 rfl
      · rw [valueOfText_of_large signed (by omega)]
        exact toUnsigned_string_eq_ok_iff.2 (.inr ⟨denotes, below⟩)
    | minusZero k =>
      have signed : DenotesSigned ('-' :: List.replicate (k + 1) '0') 0 :=
        .minus (denotes_zero_iff.2 ⟨k, rfl⟩)
      rw [valueOfText_of_number signed (by omega) (by omega)]
      exact toUnsigned_integer_eq_ok_iff.2 rfl
    | word word =>
      obtain typed | typed := valueOfText_of_word word
      · rw [typed]
        rfl
      · rw [typed]
        exact toUnsigned_string_eq_ok_iff.2 (.inl ⟨_, word, rfl⟩)

/-! ## Switches -/

/-- A digit is the lower case of itself only. -/
theorem eq_singleton_of_lowercase {d : Char} (digit : d.isDigit = true)
    (plain : isPlainLower d = true) (h : lowercase text = [d]) : text = [d] := by
  rw [lowercase_eq_iff (by simpa using plain), asciiLowercase, List.map_eq_singleton_iff] at h
  obtain ⟨c, rfl, rfl⟩ := h
  have fixed : c.toLower = c := by
    by_cases ascii : c.toNat < 128
    · exact of_ascii (p := fun c => c.toLower.isDigit = true → c.toLower = c) (by decide) ascii
        digit
    · exact toLower_of_outside (Nat.le_of_not_lt ascii)
  rw [fixed]

/-- A text that is no number is taken for a truth value just if it is a word for it. -/
theorem truthOfText?_lowercase_eq_some_iff
    (none : ∀ i, DenotesSigned text i → ¬ (-2 ^ 63 ≤ i ∧ i < 2 ^ 63)) :
    truthOfText? (lowercase text) = some b ↔ IsWordFor text b := by
  have other : ∀ d : Char, d.isDigit = true → isPlainLower d = true → digitNumber d < 2 →
      lowercase text ≠ [d] := by
    intro d digit plain small h
    have eq := eq_singleton_of_lowercase digit plain h
    have denotes : Denotes text (digitNumber d) :=
      ⟨by simp [eq], by simp [eq, digit], by simp [eq]⟩
    exact none _ (.unsigned (.bare denotes)) (by omega)
  have one := other '1' (by decide) (by decide) (by decide)
  have zero := other '0' (by decide) (by decide) (by decide)
  rw [truthOfText?, if_neg one, if_neg zero, truthOfWord?_lowercase_eq_some_iff]

theorem toBool_string_eq_ok_iff {origin : Origin}
    (none : ∀ i, DenotesSigned text i → ¬ (-2 ^ 63 ≤ i ∧ i < 2 ^ 63)) :
    toBool key (.scalar origin (.string text)) = .ok b ↔ IsWordFor text b := by
  rw [← truthOfText?_lowercase_eq_some_iff none]
  unfold toBool
  dsimp only
  cases truthOfText? (lowercase text) with
  | none => simp
  | some b' =>
    rw [Option.some.injEq]
    exact ⟨Except.ok.inj, congrArg _⟩

/-- A text converts to a switch just if it says this switch. -/
theorem toBool_valueOfText_eq_ok_iff :
    toBool key (.scalar none (valueOfText text)) = .ok b ↔ SaysSwitch text b := by
  constructor
  · intro h
    have typed := isTyped_valueOfText text
    generalize valueOfText text = v at typed h
    cases typed with
    | word word =>
      cases h
      exact .word word
    | @number i denotes low high =>
      obtain rfl : (i != 0) = b := Except.ok.inj h
      exact .number denotes low high
    | other none => exact .word ((toBool_string_eq_ok_iff none).1 h)
  · intro h
    cases h with
    | number denotes low high =>
      rw [valueOfText_of_number denotes low high]
      rfl
    | word word =>
      have typed := isTyped_valueOfText text
      generalize valueOfText text = v at typed ⊢
      cases typed with
      | word word' =>
        rw [word.unique word']
        rfl
      | number denotes => exact absurd denotes word.not_denotes
      | other none => exact (toBool_string_eq_ok_iff none).2 word

/-! ## Errors -/

/-- What does not convert to a size is of a wrong type. -/
theorem toUnsigned_scalar (key : List Char) (origin : Origin) (v : Scalar) :
    (∃ n, toUnsigned key (.scalar origin v) = .ok n) ∨
      ∃ unexpected expected, toUnsigned key (.scalar origin v) =
        .error (.invalidType unexpected expected key origin) := by
  unfold toUnsigned
  cases v with
  | nil => exact .inr ⟨_, _, rfl⟩
  | boolean b => exact .inl ⟨_, rfl⟩
  | integer i =>
    dsimp only
    split
    · exact .inl ⟨_, rfl⟩
    · exact .inr ⟨_, _, rfl⟩
  | float x => exact .inl ⟨_, rfl⟩
  | string text =>
    dsimp only
    split
    · exact .inl ⟨_, rfl⟩
    · exact .inl ⟨_, rfl⟩
    · exact .inr ⟨_, _, rfl⟩

/-- What does not convert to a switch is of a wrong type. -/
theorem toBool_scalar (key : List Char) (origin : Origin) (v : Scalar) :
    (∃ b, toBool key (.scalar origin v) = .ok b) ∨
      ∃ unexpected expected, toBool key (.scalar origin v) =
        .error (.invalidType unexpected expected key origin) := by
  unfold toBool
  cases v with
  | nil => exact .inr ⟨_, _, rfl⟩
  | boolean b => exact .inl ⟨_, rfl⟩
  | integer i => exact .inl ⟨_, rfl⟩
  | float x => exact .inl ⟨_, rfl⟩
  | string text =>
    dsimp only
    split
    · exact .inl ⟨_, rfl⟩
    · exact .inr ⟨_, _, rfl⟩

end Settings

end FancyTokens
