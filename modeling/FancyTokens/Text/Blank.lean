import FancyTokens.Text.CodeRanges

/-!
# Blank characters

White space in the sense of the Unicode property White_Space, and the two ways of trimming a text.
-/
namespace FancyTokens

/-- The characters with the property White_Space. -/
def blankRanges : CodeRanges := [
  (0x9, 0xD), (0x20, 0x20), (0x85, 0x85), (0xA0, 0xA0), (0x1680, 0x1680), (0x2000, 0x200A),
  (0x2028, 0x2029), (0x202F, 0x202F), (0x205F, 0x205F), (0x3000, 0x3000)]

/-- White space. -/
def isBlank (c : Char) : Bool :=
  blankRanges.covers c

/-- A text without the characters of a class at its two ends. -/
def trimEnds (drop : Char → Bool) (s : List Char) : List Char :=
  ((s.dropWhile drop).reverse.dropWhile drop).reverse

/-- A text without the white space at its two ends. -/
def trimBlanks (s : List Char) : List Char :=
  trimEnds isBlank s

end FancyTokens
