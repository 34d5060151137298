import FancyTokens.Decimal.Basic

/-!
# Binary floating-point numbers

The numbers of sixty-four bits in binary floating point, as exact values. A decimal number becomes
the nearest of them, and such a number is written with the fewest digits that lead back to it.
-/
namespace FancyTokens

inductive Binary64
  | nan
  | infinite (negative : Bool)
  /-- The number `mantissa * 2 ^ exponent`, or its opposite. -/
  | finite (negative : Bool) (mantissa : Nat) (exponent : Int)
deriving DecidableEq, Repr

namespace Binary64

/-! ## Rounding -/

/-- The whole number nearest to a quotient; of two equally near ones, the even one. -/
def nearestEven (numerator denominator : Nat) : Nat :=
  let q := numerator / denominator
  let twice := 2 * (numerator % denominator)
  if twice < denominator then q
  else if denominator < twice then q + 1
  else q + q % 2

/-- The least exponent of a finite number. -/
def leastExponent : Int := -1074

/-- The greatest exponent of a finite number. -/
def greatestExponent : Int := 971

/-- A quotient times a power of two, as a quotient. -/
def scaleBy (numerator denominator : Nat) (power : Int) : Nat × Nat :=
  if 0 ≤ power then (numerator * Nat.pow 2 power.toNat, denominator)
  else (numerator, denominator * Nat.pow 2 power.natAbs)

/-- The exponent of the greatest power of two that does not exceed a positive quotient. -/
def binaryExponent (numerator denominator : Nat) : Int :=
  let guess := (numerator.log2 : Int) - denominator.log2
  let (n, d) := scaleBy numerator denominator (-guess)
  if n < d then guess - 1 else guess

/-- The number nearest to a positive quotient. -/
def ofQuotient (negative : Bool) (numerator denominator : Nat) : Binary64 :=
  let exponent := max (binaryExponent numerator denominator - 52) leastExponent
  let (n, d) := scaleBy numerator denominator (-exponent)
  let mantissa := nearestEven n d
  let (mantissa, exponent) :=
    if mantissa = Nat.pow 2 53 then (Nat.pow 2 52, exponent + 1) else (mantissa, exponent)
  if greatestExponent < exponent then .infinite negative else .finite negative mantissa exponent

/-- The number nearest to a decimal one. A number of more than 310 digits before the point is
infinite, and one with more than 345 zeros behind it vanishes. -/
def ofDecimal (negative : Bool) (d : Decimal) : Binary64 :=
  let magnitude := (decimal d.digits).length + d.scale
  if d.digits = 0 ∨ magnitude < -345 then .finite negative 0 leastExponent
  else if 310 < magnitude then .infinite negative
  else if 0 ≤ d.scale then ofQuotient negative (d.digits * Nat.pow 10 d.scale.toNat) 1
  else ofQuotient negative d.digits (Nat.pow 10 d.scale.natAbs)

/-! ## Whole numbers -/

/-- The number is none of the two zeros. -/
def isNonzero : Binary64 → Bool
  | finite _ mantissa _ => mantissa != 0
  | _ => true

/-- The nearest number of `bits` bits; halves round up, and what is out of range goes to its end. -/
def toUnsigned (bits : Nat) : Binary64 → Nat
  | nan => 0
  | infinite negative => if negative then 0 else Nat.pow 2 bits - 1
  | finite negative mantissa exponent =>
    if negative then 0
    else
      let (n, d) := scaleBy mantissa 1 exponent
      min ((2 * n + d) / (2 * d)) (Nat.pow 2 bits - 1)

/-! ## Shortest digits -/

/-- The decimal numbers next to a positive quotient on the grid of the multiples of
`10 ^ scale`, the nearer one first. -/
def neighbours (numerator denominator : Nat) (scale : Int) : List Decimal :=
  let (n, d) :=
    if 0 ≤ scale then (numerator, denominator * Nat.pow 10 scale.toNat)
    else (numerator * Nat.pow 10 scale.natAbs, denominator)
  let below : Decimal := ⟨n / d, scale⟩
  let above : Decimal := ⟨n / d + 1, scale⟩
  if 2 * (n % d) ≤ d then [below, above] else [above, below]

/-- The exponent of the greatest power of ten that does not exceed a positive quotient. -/
def decimalExponent (numerator denominator : Nat) : Int :=
  let guess := ((decimal numerator).length : Int) - (decimal denominator).length
  let (n, d) :=
    if 0 ≤ guess then (numerator, denominator * Nat.pow 10 guess.toNat)
    else (numerator * Nat.pow 10 guess.natAbs, denominator)
  if n < d then guess - 1 else guess

/-- The decimal number with the fewest digits that leads to the number `mantissa * 2 ^ exponent`.
Seventeen digits always do; the first grid is one place coarser than the leading digit, for a number
just below a power of ten. -/
def shortest (mantissa : Nat) (exponent : Int) : Decimal :=
  if mantissa = 0 then ⟨0, 0⟩
  else
    let (n, d) := scaleBy mantissa 1 exponent
    let leading := decimalExponent n d
    let candidates := (List.range 18).flatMap fun (more : Nat) =>
      neighbours n d (leading + 1 - more)
    (candidates.find? fun c => ofDecimal false c = .finite false mantissa exponent).getD ⟨0, 0⟩

/-- A number in positional notation with at least one decimal place. -/
def display : Binary64 → List Char
  | nan => "NaN".toList
  | infinite negative => (if negative then ['-'] else []) ++ "inf".toList
  | finite negative mantissa exponent =>
    let digits := (shortest mantissa exponent).positional
    (if negative then ['-'] else []) ++ digits ++ if digits.contains '.' then [] else ".0".toList

end Binary64
end FancyTokens
