import FancyTokens.Text.Numeral

/-!
# JSON values

The tree of a JSON text. A number stays as it is written, and members keep their order and their
repetitions, so that whoever asks decides what to accept.
-/
namespace FancyTokens

inductive JsonValue
  | null
  | boolean (value : Bool)
  /-- A number, by its text. -/
  | number (literal : List Char)
  /-- A string. It has no text if an escape in it stands for half a surrogate pair. -/
  | string (text : Option (List Char))
  | array (elements : List JsonValue)
  | object (members : List (Option (List Char) × JsonValue))
deriving Repr

namespace JsonValue

/-- The value of `true` and `false`. -/
def boolean? : JsonValue → Option Bool
  | boolean value => some value
  | _ => none

/-- The value of a number of `bits` bits that is written with digits only. -/
def unsigned? (bits : Nat) : JsonValue → Option Nat
  | number literal => (readDigits? 10 literal).filter (· < Nat.pow 2 bits)
  | _ => none

/-- The text of a string. -/
def text? : JsonValue → Option (List Char)
  | string text => text
  | _ => none

end JsonValue
end FancyTokens
