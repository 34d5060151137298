import FancyTokens.Text.Numeral

/-!
# Decimal numbers

A number written with digits, a point and an exponent, kept exactly.
-/
namespace FancyTokens

/-- The number `digits * 10 ^ scale`. -/
structure Decimal where
  digits : Nat
  scale : Int
deriving DecidableEq, Repr

namespace Decimal

/-- An exponent behind its letter: digits, perhaps after a sign. -/
def readExponent? : List Char → Option Int
  | '-' :: s => (readDigits? 10 s).map fun n => -(n : Int)
  | '+' :: s => (readDigits? 10 s).map Int.ofNat
  | s => (readDigits? 10 s).map Int.ofNat

/-- The letter of an exponent and the exponent, or nothing. -/
def readScale? : List Char → Option Int
  | [] => some 0
  | 'e' :: s => readExponent? s
  | 'E' :: s => readExponent? s
  | _ => none

/-- A number without a sign: digits, perhaps with a point before, between or behind them, and
perhaps an exponent. -/
def read? (s : List Char) : Option Decimal :=
  let (whole, s) := s.span Char.isDigit
  let (fraction, s) := match s with
    | '.' :: s => s.span Char.isDigit
    | s => ([], s)
  match readDigits? 10 (whole ++ fraction), readScale? s with
  | some digits, some scale => some ⟨digits, scale - fraction.length⟩
  | _, _ => none

/-- A decimal number in positional notation, without an exponent. -/
def positional (d : Decimal) : List Char :=
  let s := decimal d.digits
  if 0 ≤ d.scale then s ++ List.replicate d.scale.toNat '0'
  else
    let places := d.scale.natAbs
    let s := padZeros (places + 1) s
    s.take (s.length - places) ++ '.' :: s.drop (s.length - places)

end Decimal
end FancyTokens
