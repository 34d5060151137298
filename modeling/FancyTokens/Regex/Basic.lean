import FancyTokens.Regex.CharClass

/-!
# Regular expressions

The syntax tree of a pattern. Alternatives are in order of preference, a repetition is greedy or
lazy, and groups carry the number under which they record what they matched.
-/
namespace FancyTokens

inductive Regex
  /-- Matches the empty text. -/
  | empty
  /-- Matches one character of a class. -/
  | one (set : CharClass)
  /-- Holds at the start of the text. -/
  | textStart
  /-- Holds at the end of the text. -/
  | textEnd
  /-- Holds between a word character and one that is none, or, negated, everywhere else. -/
  | wordBoundary (negated : Bool)
  | seq (first second : Regex)
  /-- Prefers its first alternative. -/
  | alt (first second : Regex)
  /-- Any number of repetitions. -/
  | star (greedy : Bool) (body : Regex)
  /-- One or more repetitions. -/
  | plus (greedy : Bool) (body : Regex)
  /-- Records what its body matches under `index`, counted from zero. -/
  | group (index : Nat) (body : Regex)
deriving DecidableEq, Repr

namespace Regex

/-- One character. -/
def char (c : Char) : Regex :=
  .one (.single c)

/-- One expression after another, without a trace of an empty one. -/
def followedBy : Regex → Regex → Regex
  | .empty, r => r
  | r, .empty => r
  | r, s => .seq r s

/-- The sequence of some expressions, which are given last first. -/
def ofReversed (parts : List Regex) : Regex :=
  parts.foldl (fun tail r => r.followedBy tail) .empty

/-- At most one occurrence; a greedy one is taken whenever possible. -/
def optional (greedy : Bool) (r : Regex) : Regex :=
  if greedy then .alt r .empty else .alt .empty r

/-- An expression `n` times before `tail`. -/
def copies (r : Regex) (tail : Regex) : Nat → Regex
  | 0 => tail
  | n + 1 => r.followedBy (copies r tail n)

/-- At most `n` occurrences. -/
def atMost (greedy : Bool) (r : Regex) : Nat → Regex
  | 0 => .empty
  | n + 1 => optional greedy (r.followedBy (atMost greedy r n))

/-- How often something may occur; without a highest number there is no limit. -/
structure Count where
  low : Nat
  high : Option Nat
deriving DecidableEq, Repr

/-- The occurrences that a count allows. -/
def repeated (r : Regex) (count : Count) (greedy : Bool) : Regex :=
  match count.high, count.low with
  | none, 0 => .star greedy r
  | none, n + 1 => copies r (.plus greedy r) n
  | some high, low => copies r (atMost greedy r (high - low)) low

/-- The expression may match the empty text. -/
def nullable : Regex → Bool
  | .one _ => false
  | .seq r s => r.nullable && s.nullable
  | .alt r s => r.nullable || s.nullable
  | .plus _ r => r.nullable
  | .group _ r => r.nullable
  | _ => true

/-- Every match begins at the start of the text, because the expression asks for it first. -/
def anchored : Regex → Bool
  | .textStart => true
  | .seq r _ => r.anchored
  | .alt r s => r.anchored && s.anchored
  | .plus _ r => r.anchored
  | .group _ r => r.anchored
  | _ => false

end Regex
end FancyTokens
