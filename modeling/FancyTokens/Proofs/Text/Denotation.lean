import FancyTokens.Proofs.Text.Classes
import FancyTokens.Proofs.Text.Numerals

/-!
# What digits denote

A text of decimal digits denotes a number, positional notation read from its end, and behind a sign
it denotes an integer. The readers of numbers of a fixed width read just what is denoted and fits
the width (`readUnsigned?_ten_eq_some_iff`, `readSigned?_ten_eq_some_iff`), however many zeros stand
before the other digits.
-/

namespace FancyTokens

/-- The number that a decimal digit stands for. -/
def digitNumber (c : Char) : Nat :=
  c.toNat - '0'.toNat

/-- A text of decimal digits, one or more, denotes a number. -/
structure Denotes (digits : List Char) (n : Nat) : Prop where
  nonempty : digits ≠ []
  isDigit : ∀ c ∈ digits, c.isDigit = true
  value : n = Nat.ofDigits 10 (digits.reverse.map digitNumber)

/-- A text of decimal digits behind an optional plus sign denotes a number. -/
inductive DenotesUnsigned : List Char → Nat → Prop
  | bare {digits n} : Denotes digits n → DenotesUnsigned digits n
  | plus {digits n} : Denotes digits n → DenotesUnsigned ('+' :: digits) n

/-- A text of decimal digits behind an optional sign denotes an integer. -/
inductive DenotesSigned : List Char → Int → Prop
  | unsigned {s n} : DenotesUnsigned s n → DenotesSigned s n
  | minus {digits n} : Denotes digits n → DenotesSigned ('-' :: digits) (-n)

variable {n : Nat} {s : List Char} {c : Char}

/-! ## Digits -/

theorem digitValue?_ten (c : Char) :
    digitValue? 10 c = if c.isDigit then some (digitNumber c) else none := by
  unfold digitValue?
  dsimp only
  by_cases digit : '0' ≤ c ∧ c ≤ '9'
  · have below : digitNumber c < 10 := by
      have last : c.toNat ≤ '9'.toNat := digit.2
      have nine : '9'.toNat = 57 ∧ '0'.toNat = 48 := ⟨rfl, rfl⟩
      unfold digitNumber
      omega
    rw [if_pos digit, if_pos (isDigit_iff.2 digit)]
    exact Option.filter_some_pos (decide_eq_true below)
  · -- letters have values from ten on
    rw [if_neg digit, if_neg (mt isDigit_iff.1 digit)]
    split
    · exact Option.filter_some_neg (decide_eq_false (by omega))
    · split
      · exact Option.filter_some_neg (decide_eq_false (by omega))
      · rfl

/-- Digits behind a number are read as further digits of it. -/
theorem continueDigits?_ten_eq_some_iff (m : Nat) : continueDigits? 10 m s = some n ↔
    (∀ c ∈ s, c.isDigit = true) ∧
      n = m * 10 ^ s.length + Nat.ofDigits 10 (s.reverse.map digitNumber) := by
  induction s generalizing m with
  | nil => simpa [continueDigits?] using eq_comm
  | cons c s ih =>
    have shift : (10 * m + digitNumber c) * 10 ^ s.length =
        m * 10 ^ (s.length + 1) + 10 ^ s.length * digitNumber c := by ring
    rw [continueDigits?, digitValue?_ten, List.forall_mem_cons, List.reverse_cons, List.map_append,
      List.map_singleton, Nat.ofDigits_append, Nat.ofDigits_singleton, List.length_map,
      List.length_reverse, List.length_cons]
    by_cases digit : c.isDigit = true
    · rw [if_pos digit, Option.bind_some, ih, shift, and_iff_right digit]
      refine and_congr_right fun _ => ?_
      rw [Nat.add_assoc, Nat.add_comm (Nat.ofDigits _ _)]
    · simp [digit]

theorem readDigits?_ten_eq_some_iff : readDigits? 10 s = some n ↔ Denotes s n := by
  have read := continueDigits?_ten_eq_some_iff (s := s) (n := n) 0
  rw [Nat.zero_mul, Nat.zero_add] at read
  unfold readDigits?
  split
  case isTrue empty =>
    rw [List.isEmpty_iff] at empty
    exact ⟨nofun, fun h => absurd empty h.nonempty⟩
  case isFalse nonempty =>
    rw [List.isEmpty_iff] at nonempty
    rw [read]
    exact ⟨fun ⟨isDigit, value⟩ => ⟨nonempty, isDigit, value⟩, fun h => ⟨h.isDigit, h.value⟩⟩

/-- A sign is no digit. -/
theorem Denotes.head_ne {sign : Char} (h : Denotes (sign :: s) n) : sign ≠ '+' ∧ sign ≠ '-' := by
  have digit := h.isDigit sign List.mem_cons_self
  constructor
  · rintro rfl
    cases digit
  · rintro rfl
    cases digit

/-! ## One number only -/

theorem Denotes.unique {m : Nat} (h : Denotes s n) (h' : Denotes s m) : n = m :=
  h.value.trans h'.value.symm

theorem DenotesUnsigned.unique {m : Nat} (h : DenotesUnsigned s n) (h' : DenotesUnsigned s m) :
    n = m := by
  cases h with
  | bare h =>
    cases h' with
    | bare h' => exact h.unique h'
    | plus => exact absurd rfl h.head_ne.1
  | plus h =>
    cases h' with
    | bare h' => exact absurd rfl h'.head_ne.1
    | plus h' => exact h.unique h'

/-- A number is denoted without a minus sign. -/
theorem DenotesUnsigned.not_minus : ¬ DenotesUnsigned ('-' :: s) n := by
  intro h
  cases h with
  | bare h => exact h.head_ne.2 rfl

theorem DenotesSigned.unique {i j : Int} (h : DenotesSigned s i) (h' : DenotesSigned s j) :
    i = j := by
  cases h with
  | unsigned h =>
    cases h' with
    | unsigned h' => rw [h.unique h']
    | minus => exact absurd h DenotesUnsigned.not_minus
  | minus h =>
    cases h' with
    | unsigned h' => exact absurd h' DenotesUnsigned.not_minus
    | minus h' => rw [h.unique h']

/-- A text that denotes an integer starts with a sign or a digit. -/
theorem DenotesSigned.exists_head {i : Int} (h : DenotesSigned s i) :
    ∃ c ∈ s, c = '+' ∨ c = '-' ∨ c.isDigit = true := by
  cases h with
  | unsigned h =>
    cases h with
    | bare h =>
      obtain ⟨c, mem⟩ := List.exists_mem_of_ne_nil _ h.nonempty
      exact ⟨c, mem, .inr (.inr (h.isDigit c mem))⟩
    | plus => exact ⟨_, List.mem_cons_self, .inl rfl⟩
  | minus => exact ⟨_, List.mem_cons_self, .inr (.inl rfl)⟩

/-- The digits that denote zero are zeros. -/
theorem denotes_zero_iff : Denotes s 0 ↔ ∃ k, s = List.replicate (k + 1) '0' := by
  constructor
  · intro h
    have zeros := Nat.digits_zero_of_eq_zero (by decide) h.value.symm
    have same : ∀ c ∈ s, c = '0' := by
      intro c mem
      have low : '0'.toNat ≤ c.toNat := (isDigit_iff.1 (h.isDigit c mem)).1
      have zero : digitNumber c = 0 := zeros _ (List.mem_map_of_mem (List.mem_reverse.2 mem))
      unfold digitNumber at zero
      exact Char.toNat_inj.1 (by omega)
    have pos : 0 < s.length := List.length_pos_iff.2 h.nonempty
    exact ⟨s.length - 1, List.eq_replicate_iff.2 ⟨by omega, same⟩⟩
  · rintro ⟨k, rfl⟩
    refine ⟨List.cons_ne_nil _ _, ?_, ?_⟩
    · intro c mem
      rw [List.eq_of_mem_replicate mem]
      rfl
    · rw [List.reverse_replicate, List.map_replicate]
      exact Nat.ofDigits_replicate_zero.symm

/-! ## Reading -/

/-- An unsigned number is read if it is denoted and fits its bits. -/
theorem readUnsigned?_ten_eq_some_iff {bits : Nat} : readUnsigned? 10 bits s = some n ↔
    DenotesUnsigned s n ∧ n < 2 ^ bits := by
  unfold readUnsigned?
  dsimp only
  rw [Option.filter_eq_some_iff, decide_eq_true_eq, readDigits?_ten_eq_some_iff]
  refine and_congr_left fun _ => ?_
  split
  case h_1 digits =>
    constructor
    · exact .plus
    · intro h
      cases h with
      | bare h => exact absurd rfl h.head_ne.1
      | plus h => exact h
  case h_2 other =>
    constructor
    · exact .bare
    · intro h
      cases h with
      | bare h => exact h
      | plus h => exact absurd rfl (other _)

/-- What stands behind a minus sign is denoted with its sign changed. -/
theorem denotesSigned_minus_iff {i : Int} :
    DenotesSigned ('-' :: s) i ↔ ∃ n : Nat, Denotes s n ∧ -(n : Int) = i := by
  constructor
  · intro h
    cases h with
    | unsigned h => exact absurd h DenotesUnsigned.not_minus
    | minus h => exact ⟨_, h, rfl⟩
  · rintro ⟨n, h, rfl⟩
    exact .minus h

/-- Without a minus sign a natural number is denoted. -/
theorem denotesSigned_iff {i : Int} (other : ∀ digits, s ≠ '-' :: digits) :
    DenotesSigned s i ↔ ∃ n : Nat, DenotesUnsigned s n ∧ n = i := by
  constructor
  · intro h
    cases h with
    | unsigned h => exact ⟨_, h, rfl⟩
    | minus h => exact absurd rfl (other _)
  · rintro ⟨n, h, rfl⟩
    exact .unsigned h

/-- A signed number is read if it is denoted and fits its bits. -/
theorem readSigned?_ten_eq_some_iff {bits : Nat} {i : Int} : readSigned? 10 bits s = some i ↔
    DenotesSigned s i ∧ -2 ^ (bits - 1) ≤ i ∧ i < 2 ^ (bits - 1) := by
  have bound : ((2 ^ (bits - 1) : Nat) : Int) = 2 ^ (bits - 1) := by push_cast; rfl
  have pos : 0 < 2 ^ (bits - 1) := Nat.two_pow_pos _
  rw [← bound]
  unfold readSigned?
  split
  case h_1 digits =>
    rw [denotesSigned_minus_iff, Option.map_eq_some_iff]
    simp only [Option.bind_eq_bind, Option.bind_eq_some_iff, Option.filter_eq_some_iff,
      readDigits?_ten_eq_some_iff, decide_eq_true_eq, Option.pure_def, Option.some.injEq]
    constructor
    · rintro ⟨_, ⟨n, ⟨h, le⟩, rfl⟩, rfl⟩
      have le : n ≤ 2 ^ (bits - 1) := le
      exact ⟨⟨n, h, rfl⟩, by omega⟩
    · rintro ⟨⟨n, h, rfl⟩, le, -⟩
      have le : n ≤ 2 ^ (bits - 1) := by omega
      exact ⟨n, ⟨n, ⟨h, le⟩, rfl⟩, rfl⟩
  case h_2 other =>
    rw [denotesSigned_iff other, Option.map_eq_some_iff]
    simp only [readUnsigned?_ten_eq_some_iff, Int.ofNat_eq_natCast]
    constructor
    · rintro ⟨n, ⟨h, lt⟩, rfl⟩
      exact ⟨⟨n, h, rfl⟩, by omega⟩
    · rintro ⟨⟨n, h, rfl⟩, -, lt⟩
      exact ⟨n, ⟨h, by omega⟩, rfl⟩

end FancyTokens
