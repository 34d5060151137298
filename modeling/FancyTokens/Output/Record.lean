import FancyTokens.Token
import FancyTokens.Text.Numeral

/-!
# Tokens as records

What the structured formats write is a list of records with the same four fields.
-/
namespace FancyTokens

/-- The value of a field. -/
inductive FieldValue
  | text (text : List Char)
  | number (n : Nat)
deriving DecidableEq, Repr

/-- A record is the list of its fields, each with its name. -/
abbrev Record := List (String × FieldValue)

/-- The record of a token. -/
def Token.record (t : Token) : Record := [
  ("category", .text t.category.dottedName.toList),
  ("start", .number t.start),
  ("end", .number t.stop),
  ("text", .text t.text)]

end FancyTokens
