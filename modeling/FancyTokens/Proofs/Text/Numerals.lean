import FancyTokens.Text.Numeral
import Mathlib.Data.Nat.Digits.Defs
import Mathlib.Tactic.IntervalCases

/-!
# Numbers written and read

What is written as the digits of a number is read as that number: `readDigits?_toDigits` for any
base up to sixteen, `readDigits?_padZeros` with zeros before the digits and `readDigits?_toUpper` in
capitals. A number in decimal notation starts with a zero only if it is zero (`head?_decimal`).
-/

namespace FancyTokens

variable {base n width : Nat} {s t : List Char} {c : Char}

/-! ## Single digits -/

/-- The digit that stands for a value has this value. -/
theorem digitValue?_digitChar (below : n < base) (le : base ≤ 16) :
    digitValue? base n.digitChar = some n := by
  have small : n < 16 := by omega
  interval_cases n <;> simp [digitValue?, Nat.digitChar, below]

/-- A hexadecimal digit has the same value as a capital. -/
theorem digitValue?_toUpper_digitChar (below : n < 16) :
    digitValue? 16 n.digitChar.toUpper = some n := by
  interval_cases n <;> decide

/-! ## Digits in a row -/

theorem continueDigits?_append (base n : Nat) (s t : List Char) :
    continueDigits? base n (s ++ t) =
      (continueDigits? base n s).bind fun m => continueDigits? base m t := by
  induction s generalizing n with
  | nil => rfl
  | cons c s ih =>
    rw [List.cons_append, continueDigits?, continueDigits?]
    cases digitValue? base c with
    | none => rfl
    | some d => exact ih _

/-- Zeros before other digits do not matter. -/
theorem continueDigits?_replicate_zero (pos : 0 < base) (k : Nat) (s : List Char) :
    continueDigits? base 0 (List.replicate k '0' ++ s) = continueDigits? base 0 s := by
  have zero : digitValue? base '0' = some 0 := by simp [digitValue?, pos]
  induction k with
  | zero => rfl
  | succ k ih =>
    rw [List.replicate_succ, List.cons_append, continueDigits?, zero, Option.bind_some,
      Nat.mul_zero]
    exact ih

/-- The digits of a number, each written in some way that has its value, are read as the number. -/
theorem continueDigits?_map_toDigits {f : Char → Char} (two : 1 < base)
    (keeps : ∀ d < base, digitValue? base (f d.digitChar) = some d) (n : Nat) :
    continueDigits? base 0 ((Nat.toDigits base n).map f) = some n := by
  induction n using Nat.strongRecOn with
  | ind n ih =>
    by_cases below : n < base
    · rw [Nat.toDigits_of_lt_base below, List.map_singleton, continueDigits?, keeps n below,
        Option.bind_some, continueDigits?]
      simp
    · have smaller : n / base < n := Nat.div_lt_self (by omega) two
      have last : n % base < base := Nat.mod_lt n (by omega)
      have parts : base * (n / base) + n % base = n := Nat.div_add_mod n base
      rw [Nat.toDigits_of_base_le two (by omega), List.map_append, List.map_singleton,
        continueDigits?_append, ih _ smaller, Option.bind_some, continueDigits?, keeps _ last,
        Option.bind_some, continueDigits?, parts]

/-- The digits of a number are read as the number. -/
theorem readDigits?_toDigits (two : 1 < base) (le : base ≤ 16) (n : Nat) :
    readDigits? base (Nat.toDigits base n) = some n := by
  have nonempty : (Nat.toDigits base n).isEmpty = false :=
    List.isEmpty_eq_false_iff.2 Nat.toDigits_ne_nil
  have read : continueDigits? base 0 ((Nat.toDigits base n).map id) = some n :=
    continueDigits?_map_toDigits two (fun d below => digitValue?_digitChar below le) n
  rw [List.map_id] at read
  rw [readDigits?, nonempty]
  exact read

theorem readDigits?_padZeros (pos : 0 < base) (width : Nat) (s : List Char) (nonempty : s ≠ []) :
    readDigits? base (padZeros width s) = readDigits? base s := by
  have padded : (padZeros width s).isEmpty = false := by simp [padZeros, nonempty]
  have bare : s.isEmpty = false := List.isEmpty_eq_false_iff.2 nonempty
  rw [readDigits?, readDigits?, padded, bare, padZeros]
  exact continueDigits?_replicate_zero pos _ s

/-- The length of digits with zeros before them. -/
theorem length_padZeros (le : s.length ≤ width) : (padZeros width s).length = width := by
  rw [padZeros, List.length_append, List.length_replicate]
  omega

/-- What is read as a number consists of digits. -/
theorem isSome_digitValue?_of_mem {m : Nat} (read : continueDigits? base m s = some n)
    (mem : c ∈ s) : (digitValue? base c).isSome = true := by
  induction s generalizing m with
  | nil => cases mem
  | cons d s ih =>
    rw [continueDigits?] at read
    obtain ⟨value, digit, later⟩ := Option.bind_eq_some_iff.1 read
    rcases List.mem_cons.1 mem with rfl | mem
    · rw [digit]
      rfl
    · exact ih later mem

/-! ## Decimal notation -/

theorem readDigits?_decimal (n : Nat) : readDigits? 10 (decimal n) = some n :=
  readDigits?_toDigits (by decide) (by decide) n

theorem decimal_ne_nil (n : Nat) : decimal n ≠ [] :=
  Nat.toDigits_ne_nil

theorem isDigit_of_mem_decimal (mem : c ∈ decimal n) : c.isDigit = true :=
  Nat.isDigit_of_mem_toDigits (by decide) (by decide) mem

theorem decimal_injective : Function.Injective decimal := by
  intro m n same
  have read : readDigits? 10 (decimal m) = some n := by rw [same, readDigits?_decimal]
  rw [readDigits?_decimal] at read
  exact Option.some.inj read

/-- A positive number does not start with a zero. -/
theorem head?_decimal (pos : 0 < n) : (decimal n).head? ≠ some '0' := by
  induction n using Nat.strongRecOn with
  | ind n ih =>
    by_cases below : n < 10
    · rw [decimal, Nat.toDigits_of_lt_base below]
      interval_cases n <;> decide
    · have smaller : n / 10 < n := Nat.div_lt_self pos (by decide)
      have rest : 0 < n / 10 := by omega
      have first := ih _ smaller rest
      rw [decimal, Nat.toDigits_of_base_le (by decide) (by omega), ← decimal, List.head?_append]
      rw [List.head?_eq_some_head (decimal_ne_nil _)] at first ⊢
      exact first

/-- Of several digits the first one is not zero. -/
theorem head?_decimal_of_length (several : 1 < (decimal n).length) :
    (decimal n).head? ≠ some '0' := by
  apply head?_decimal
  by_contra zero
  have length : (decimal 0).length = 1 := rfl
  rw [show n = 0 by omega, length] at several
  omega

/-! ## Hexadecimal notation -/

theorem readDigits?_hexadecimal (n : Nat) : readDigits? 16 (hexadecimal n) = some n :=
  readDigits?_toDigits (by decide) (by decide) n

theorem hexadecimal_ne_nil (n : Nat) : hexadecimal n ≠ [] :=
  Nat.toDigits_ne_nil

theorem isSome_digitValue?_of_mem_hexadecimal (mem : c ∈ hexadecimal n) :
    (digitValue? 16 c).isSome = true := by
  have read := readDigits?_hexadecimal n
  rw [readDigits?, List.isEmpty_eq_false_iff.2 (hexadecimal_ne_nil n)] at read
  exact isSome_digitValue?_of_mem read mem

/-- A number below a power of sixteen has at most as many digits. -/
theorem length_hexadecimal_le (pos : 0 < width) (below : n < 16 ^ width) :
    (hexadecimal n).length ≤ width :=
  (Nat.length_toDigits_le_iff (by decide) pos).2 below

/-- The digits of a number in capitals are read as the number. -/
theorem readDigits?_toUpper (n : Nat) :
    readDigits? 16 ((hexadecimal n).map Char.toUpper) = some n := by
  have nonempty : ((hexadecimal n).map Char.toUpper).isEmpty = false := by
    simp [hexadecimal_ne_nil]
  rw [readDigits?, nonempty]
  exact continueDigits?_map_toDigits (by decide)
    (fun d below => digitValue?_toUpper_digitChar below) n

/-! ## Characters by their code -/

/-- The character with a code in hexadecimal digits, if there is one. -/
def charOfCode? (digits : List Char) : Option Char :=
  (readDigits? 16 digits).bind fun code =>
    if code.isValidChar then some (Char.ofNat code) else none

/-- Digits that are read as the code of a character stand for it. -/
theorem charOfCode?_eq_some (read : readDigits? 16 s = some c.toNat) : charOfCode? s = some c := by
  have valid : c.toNat.isValidChar := c.valid
  rw [charOfCode?, read, Option.bind_some, if_pos valid, Char.ofNat_toNat]

end FancyTokens
