import FancyTokens.Text.Blank
import FancyTokens.Text.DecimalDigit
import FancyTokens.Text.WordCharacter

/-!
# Classes of characters compared

White space, decimal digits and word characters are tables of ranges of code points. Where they are
compared with classes of ASCII characters, all of these are gone through (`of_ascii`); where they
are compared with each other, their ranges are (`CodeRanges.covers_eq_false_of_apart`).
-/

namespace FancyTokens

variable {c : Char}

/-! ## ASCII -/

/-- What holds of each of the first characters holds of all characters of ASCII. -/
theorem of_ascii {p : Char → Prop} (h : ∀ n < 128, p (Char.ofNat n)) (ascii : c.toNat < 128) :
    p c := by
  have here := h c.toNat ascii
  rwa [Char.ofNat_toNat] at here

theorem isDigit_iff : c.isDigit = true ↔ '0' ≤ c ∧ c ≤ '9' := by
  change (decide ('0' ≤ c) && decide (c ≤ '9')) = true ↔ _
  rw [Bool.and_eq_true, decide_eq_true_eq, decide_eq_true_eq]

theorem isAlphanum_iff : c.isAlphanum = true ↔
    ('A' ≤ c ∧ c ≤ 'Z') ∨ ('a' ≤ c ∧ c ≤ 'z') ∨ ('0' ≤ c ∧ c ≤ '9') := by
  change (decide ('A' ≤ c ∧ c ≤ 'Z') || (decide ('a' ≤ c) && decide (c ≤ 'z')) || c.isDigit) =
    true ↔ _
  simp only [Bool.or_eq_true, Bool.and_eq_true, decide_eq_true_eq, isDigit_iff, or_assoc]

theorem toNat_lt_of_isAlphanum (h : c.isAlphanum = true) : c.toNat < 128 := by
  have code : c.toNat = c.val.toNat := rfl
  have last : 'z'.val.toNat = 122 ∧ 'Z'.val.toNat = 90 ∧ '9'.val.toNat = 57 := ⟨rfl, rfl, rfl⟩
  simp only [isAlphanum_iff, Char.le_def, UInt32.le_iff_toNat_le] at h
  omega

theorem isDecimalDigit_eq_isDigit (ascii : c.toNat < 128) : isDecimalDigit c = c.isDigit :=
  of_ascii (p := fun c => isDecimalDigit c = c.isDigit) (by decide +kernel) ascii

theorem isWordCharacter_eq (ascii : c.toNat < 128) :
    isWordCharacter c = (c.isAlphanum || c = '_') :=
  of_ascii (p := fun c => isWordCharacter c = (c.isAlphanum || c = '_')) (by decide +kernel) ascii

/-! ## Tables -/

/-- Two tables have no character in common if no two of their ranges overlap. -/
theorem CodeRanges.covers_eq_false_of_apart {ranges others : CodeRanges} (rising : ranges.Rising)
    (rising' : others.Rising) (apart : ∀ r ∈ ranges, ∀ s ∈ others, r.2 < s.1 ∨ s.2 < r.1)
    (h : ranges.covers c = true) : others.covers c = false := by
  rw [Bool.eq_false_iff]
  intro h'
  obtain ⟨r, mem, low, high⟩ := (covers_eq_true_iff rising c).1 h
  obtain ⟨s, mem', low', high'⟩ := (covers_eq_true_iff rising' c).1 h'
  have := apart r mem s mem'
  omega

theorem rising_blankRanges : blankRanges.Rising := by
  unfold CodeRanges.Rising
  decide +kernel

theorem rising_decimalDigitRanges : decimalDigitRanges.Rising := by
  unfold CodeRanges.Rising
  decide +kernel

theorem isBlank_eq_false_of_isDecimalDigit (h : isDecimalDigit c = true) : isBlank c = false :=
  CodeRanges.covers_eq_false_of_apart rising_decimalDigitRanges rising_blankRanges
    (by decide +kernel) h

end FancyTokens
