import FancyTokens.Grammar.Rule

/-!
# Tokens of a match

A rule gives one token for its whole match, or one for each group. Of the groups, those count that
have matched something and do not start before the end of the group taken last; what lies between
them becomes plain text, so that nothing of the match is lost.
-/
namespace FancyTokens

/-- A piece of plain text between two bytes of a match, unless they leave nothing between them. -/
def gap? (offset : Nat) (whole : List Char) (start stop : Nat) : Option (List Token) :=
  if start < stop then
    (slice? whole start stop).map fun text => [.ofText .text (offset + start) text]
  else some []

/-- The tokens of the remaining groups, each with its category, of a match of which the first
`covered` bytes have been given out. -/
def groupTokens? (offset : Nat) (s whole : List Char) (covered : Nat) :
    List (Category × Option Span) → Option (List Token)
  | [] => gap? offset whole covered (byteLength whole)
  | (category, some span) :: groups =>
    if span.start ≠ span.stop ∧ covered ≤ span.start then do
      let gap ← gap? offset whole covered span.start
      let text ← slice? s span.start span.stop
      let tokens ← groupTokens? offset s whole span.stop groups
      return gap ++ .ofText category (offset + span.start) text :: tokens
    else groupTokens? offset s whole covered groups
  | (_, none) :: groups => groupTokens? offset s whole covered groups

/-- The tokens of a match in a text that starts at an offset. -/
def emission? (offset : Nat) (s : List Char) (action : Action) (found : Pattern.Found) :
    Option (List Token) := do
  let whole ← slice? s found.whole.start found.whole.stop
  match action with
  | .whole category => return [.ofText category offset whole]
  | .byGroups categories => groupTokens? offset s whole 0 (categories.zip found.groups)

end FancyTokens
