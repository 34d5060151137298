import FancyTokens.Decimal.Binary64

/-!
# Plain scalars that are no text

Without quotation marks, some scalars of a YAML document stand for nothing, a truth value or a
number. Texts of the same form have to be quoted.
-/
namespace FancyTokens
namespace Yaml

/-- The forms of nothing. -/
def nullWords : List String := ["", "~", "null", "Null", "NULL"]

/-- The forms of truth values. -/
def booleanWords : List String := ["true", "True", "TRUE", "false", "False", "FALSE"]

/-- The forms of infinite numbers and of what is no number. -/
def specialNumberWords : List String := [
  ".inf", ".Inf", ".INF", "+.inf", "+.Inf", "+.INF", "-.inf", "-.Inf", "-.INF",
  ".nan", ".NaN", ".NAN"]

/-- A text without the sign at its start. -/
def dropSign : List Char → List Char
  | '+' :: s => s
  | '-' :: s => s
  | s => s

/-- Digits of which the first of several is a zero. Such a scalar is a text, but one that other
readers take for a number. -/
def isZeroLed (s : List Char) : Bool :=
  match dropSign s with
  | '0' :: c :: s => (c :: s).all Char.isDigit
  | _ => false

/-- The digits of a whole number behind its sign, and their base. -/
def basedDigits : List Char → Nat × List Char
  | '0' :: 'x' :: s => (16, s)
  | '0' :: 'o' :: s => (8, s)
  | '0' :: 'b' :: s => (2, s)
  | s => (10, s)

/-- The form of a whole number of at most 128 bits. -/
def isInteger (s : List Char) : Bool :=
  match s with
  | '-' :: s =>
    let (base, digits) := basedDigits s
    (readDigits? base digits).any (· ≤ Nat.pow 2 127)
  | s =>
    let (base, digits) := basedDigits (match s with
      | '+' :: s => s
      | s => s)
    (readDigits? base digits).any (· < Nat.pow 2 128)

/-- The form of a number that is not too great for binary floating point. -/
def isFiniteNumber (s : List Char) : Bool :=
  match Decimal.read? (dropSign s) with
  | some d => match Binary64.ofDecimal false d with
    | .finite .. => true
    | _ => false
  | none => false

/-- The text would be taken for something else if it stood alone, or might be. -/
def isMistakable (s : List Char) : Bool :=
  (nullWords ++ booleanWords ++ specialNumberWords).any (·.toList == s) || isZeroLed s ||
    isInteger s || isFiniteNumber s

end Yaml
end FancyTokens
