import FancyTokens.Text.Quoted
import FancyTokens.Token

/-!
# One token per line

Each line holds a category below the common root of all categories, a tab and the quoted text.
-/
namespace FancyTokens
namespace Raw

/-- The line of a token. -/
def line (t : Token) : List Char :=
  "Token.".toList ++ t.category.dottedName.toList ++ '\t' :: quoteText t.text ++ ['\n']

/-- The lines of some tokens. -/
def render (tokens : List Token) : List Char :=
  tokens.flatMap line

end Raw
end FancyTokens
