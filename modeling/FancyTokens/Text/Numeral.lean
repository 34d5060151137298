/-!
# Whole numbers in text

Reading digits in a base, reading whole numbers of a fixed width, and writing digits.
-/
namespace FancyTokens

/-! ## Reading -/

/-- The value of a digit below the base; letters of either case follow the nine. -/
def digitValue? (base : Nat) (c : Char) : Option Nat :=
  let value? :=
    if '0' ≤ c ∧ c ≤ '9' then some (c.toNat - '0'.toNat)
    else if 'a' ≤ c ∧ c ≤ 'z' then some (c.toNat - 'a'.toNat + 10)
    else if 'A' ≤ c ∧ c ≤ 'Z' then some (c.toNat - 'A'.toNat + 10)
    else none
  value?.filter (· < base)

/-- The value of the digits that follow a number; nothing but digits may follow. -/
def continueDigits? (base : Nat) : Nat → List Char → Option Nat
  | n, [] => some n
  | n, c :: s => (digitValue? base c).bind fun d => continueDigits? base (base * n + d) s

/-- The value of one or more digits. -/
def readDigits? (base : Nat) (s : List Char) : Option Nat :=
  if s.isEmpty then none else continueDigits? base 0 s

/-- An unsigned number of `bits` bits: an optional plus sign, then digits. -/
def readUnsigned? (base bits : Nat) (s : List Char) : Option Nat :=
  let digits := match s with
    | '+' :: s => s
    | s => s
  (readDigits? base digits).filter (· < Nat.pow 2 bits)

/-- A signed number of `bits` bits: an optional sign, then digits. -/
def readSigned? (base bits : Nat) (s : List Char) : Option Int :=
  match s with
  | '-' :: digits =>
    ((readDigits? base digits).filter (· ≤ Nat.pow 2 (bits - 1))).map fun n => -(n : Int)
  | s => (readUnsigned? base (bits - 1) s).map Int.ofNat

/-! ## Writing -/

/-- The decimal digits of a number, without leading zeros. -/
def decimal (n : Nat) : List Char :=
  Nat.toDigits 10 n

/-- The lower-case hexadecimal digits of a number, without leading zeros. -/
def hexadecimal (n : Nat) : List Char :=
  Nat.toDigits 16 n

/-- A text with zeros before it, so that it has at least `width` characters. -/
def padZeros (width : Nat) (s : List Char) : List Char :=
  List.replicate (width - s.length) '0' ++ s

end FancyTokens
