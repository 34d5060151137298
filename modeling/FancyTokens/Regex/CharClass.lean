import FancyTokens.Text.Blank
import FancyTokens.Text.DecimalDigit
import FancyTokens.Text.WordCharacter

/-!
# Character classes

The sets of characters that one place of a pattern accepts.
-/
namespace FancyTokens

/-- The classes that have a letter of their own. -/
inductive NamedClass
  | digit
  | blank
  | word
deriving DecidableEq, Repr

/-- Membership in a named class. -/
def NamedClass.covers : NamedClass → Char → Bool
  | .digit => isDecimalDigit
  | .blank => isBlank
  | .word => isWordCharacter

/-- One part of a class in brackets. -/
inductive ClassItem
  | range (low high : Char)
  | named (kind : NamedClass) (negated : Bool)
deriving DecidableEq, Repr

/-- Membership in one part. -/
def ClassItem.covers : ClassItem → Char → Bool
  | .range low high, c => low ≤ c && c ≤ high
  | .named kind negated, c => kind.covers c != negated

/-- The union of its parts, or all other characters. -/
structure CharClass where
  negated : Bool
  items : List ClassItem
deriving DecidableEq, Repr

namespace CharClass

/-- Membership in a class. -/
def covers (k : CharClass) (c : Char) : Bool :=
  k.items.any (·.covers c) != k.negated

/-- The class of one character. -/
def single (c : Char) : CharClass :=
  ⟨false, [.range c c]⟩

/-- The class behind a letter after a backslash. -/
def ofNamed (kind : NamedClass) (negated : Bool) : CharClass :=
  ⟨false, [.named kind negated]⟩

/-- Every character that does not end a line. -/
def anyInLine : CharClass :=
  ⟨true, [.range '\n' '\n']⟩

end CharClass
end FancyTokens
