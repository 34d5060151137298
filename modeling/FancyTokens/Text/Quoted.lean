import FancyTokens.Text.Numeral
import FancyTokens.Text.Printable

/-!
# Quoted texts

A text on one line between quotation marks. The mark and the backslash are escaped, the usual
control characters have letters of their own, and a character that would not be readable as itself
is written by its code point.
-/
namespace FancyTokens

/-- A character between the quotation marks `mark`. -/
def escaped (mark : Char) (c : Char) : List Char :=
  if c = '\x00' then ['\\', '0']
  else if c = '\t' then ['\\', 't']
  else if c = '\r' then ['\\', 'r']
  else if c = '\n' then ['\\', 'n']
  else if c = '\\' ∨ c = mark then ['\\', c]
  else if isPrintable c then [c]
  else ['\\', 'u', '{'] ++ hexadecimal c.toNat ++ ['}']

/-- A text in double quotation marks. -/
def quoteText (s : List Char) : List Char :=
  '"' :: s.flatMap (escaped '"') ++ ['"']

/-- A character in single quotation marks. -/
def quoteChar (c : Char) : List Char :=
  '\x27' :: escaped '\x27' c ++ ['\x27']

end FancyTokens
