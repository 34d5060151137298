import FancyTokens.Regex.Basic

/-!
# Matching a regular expression

Matching explores the ways in which an expression can match from a position, the preferred way
first, and hands the position behind each one to a continuation until that accepts. What is found
is therefore what the order of alternatives and the greed of repetitions prefer, not the longest
match.

A repetition whose body may match the empty text has ways that go in circles. They are left out by
one rule: between two characters no way comes twice to the same joint, where a joint is a point
at which ways meet, before each occurrence of a repeated body or behind an alternation.
-/
namespace FancyTokens

/-- A range of byte offsets. -/
structure Span where
  start : Nat
  stop : Nat
deriving DecidableEq, Repr

namespace Regex

/-- A part of an expression, by the way from the whole expression down to it, last turn first. -/
abbrev Part := List Bool

/-- A place in a text: the bytes and the last character before it, and the text behind it. -/
structure Position where
  offset : Nat
  previous : Option Char
  rest : List Char
  /-- The joints of repetitions that have been passed since the last character. -/
  passed : List Part := []
deriving DecidableEq, Repr

namespace Position

/-- The start of a text. -/
def start (s : List Char) : Position :=
  { offset := 0, previous := none, rest := s }

/-- The character at a position, and the position behind it. -/
def next? (p : Position) : Option (Char × Position) :=
  match p.rest with
  | [] => none
  | c :: s => some (c, { offset := p.offset + c.utf8Size, previous := some c, rest := s })

/-- A word character stands on exactly one side. -/
def atWordBoundary (p : Position) : Bool :=
  p.previous.any isWordCharacter != p.rest.head?.any isWordCharacter

/-- The position once a joint has been passed, unless the way goes in a circle. Outside of
repetitions no way does, and joints do not matter. -/
def pass? (p : Position) (looping : Bool) (joint : Part) : Option Position :=
  if !looping then some p
  else if joint ∈ p.passed then none
  else some { p with passed := joint :: p.passed }

end Position

/-- What each group has matched last, in the order of the group numbers. -/
abbrev Captures := List (Option Span)

/-- What happens behind a match. -/
abbrev Continuation (β : Type) := Position → Captures → Option β

/-- Explores the ways to go on from a position, each ended by the continuation. -/
abbrev Explorer (β : Type) := Position → Captures → Continuation β → Option β

/-- The continuation behind a joint. -/
def behind {β : Type} (looping : Bool) (joint : Part) (k : Continuation β) : Continuation β :=
  fun p captures => (p.pass? looping joint).bind fun p => k p captures

/-- Goes on or stops, whichever is preferred, or else the other one. -/
@[macro_inline] def goOnOrStop {β : Type} (greedy : Bool) (goOn stop : Option β) : Option β :=
  if greedy then goOn <|> stop else stop <|> goOn

/-- Any number of occurrences of `body`, each of which consumes at least one character of the text
ahead. The joint lies before each occurrence and before the end. -/
def exploreStar {β : Type} (looping : Bool) (joint : Part) (greedy : Bool) (body : Explorer β) :
    (ahead : List Char) → Explorer β
  | [], p, captures, k => (p.pass? looping joint).bind fun p => k p captures
  | _ :: ahead, p, captures, k =>
    (p.pass? looping joint).bind fun p => goOnOrStop greedy
      (body p captures fun p' captures' =>
        exploreStar looping joint greedy body ahead p' captures' k)
      (k p captures)

/-- One or more occurrences of `body`, all of which but the last one consume at least one character
of the text ahead. The joint lies before each occurrence. -/
def explorePlus {β : Type} (looping : Bool) (joint : Part) (greedy : Bool) (body : Explorer β) :
    (ahead : List Char) → Explorer β
  | [], p, captures, k => (p.pass? looping joint).bind fun p => body p captures k
  | _ :: ahead, p, captures, k =>
    (p.pass? looping joint).bind fun p => body p captures fun p' captures' =>
      goOnOrStop greedy (explorePlus looping joint greedy body ahead p' captures' k)
        (k p' captures')

/-- Explores the matches of an expression at a position. `part` tells where the expression stands in
the whole one, and `looping` whether it stands in a repetition whose body may match the empty
text. -/
def explore {β : Type} : Regex → (part : Part) → (looping : Bool) → Explorer β
  | .empty, _, _, p, captures, k => k p captures
  | .one set, _, _, p, captures, k =>
    match p.next? with
    | some (c, p') => if set.covers c then k p' captures else none
    | none => none
  | .textStart, _, _, p, captures, k => if p.previous.isNone then k p captures else none
  | .textEnd, _, _, p, captures, k => if p.rest.isEmpty then k p captures else none
  | .wordBoundary negated, _, _, p, captures, k =>
    if p.atWordBoundary != negated then k p captures else none
  | .seq r s, part, looping, p, captures, k =>
    r.explore (false :: part) looping p captures fun p' captures' =>
      s.explore (true :: part) looping p' captures' k
  | .alt r s, part, looping, p, captures, k =>
    r.explore (false :: part) looping p captures (behind looping part k) <|>
      s.explore (true :: part) looping p captures (behind looping part k)
  | .star greedy r, part, looping, p, captures, k =>
    if r.nullable then
      goOnOrStop greedy
        (explorePlus true part greedy (r.explore (false :: part) true) p.rest p captures
          (behind true (true :: part) k))
        (behind true (true :: part) k p captures)
    else
      exploreStar looping part greedy (r.explore (false :: part) looping) p.rest p captures k
  | .plus greedy r, part, looping, p, captures, k =>
    explorePlus (looping || r.nullable) part greedy
      (r.explore (false :: part) (looping || r.nullable)) p.rest p captures k
  | .group index r, part, looping, p, captures, k =>
    r.explore (false :: part) looping p captures fun p' captures' =>
      k p' (captures'.set index (some ⟨p.offset, p'.offset⟩))

end Regex

/-- A regular expression with the number of its groups. -/
structure Pattern where
  regex : Regex
  groups : Nat
deriving DecidableEq, Repr

namespace Pattern

/-- Where a pattern has matched, and what its groups hold. -/
structure Found where
  whole : Span
  groups : Regex.Captures
deriving DecidableEq, Repr

/-- The preferred match that begins at a position. -/
def matchAt? (pattern : Pattern) (p : Regex.Position) : Option Found :=
  pattern.regex.explore [] false p (List.replicate pattern.groups none) fun p' captures =>
    some ⟨⟨p.offset, p'.offset⟩, captures⟩

/-- The first match at a position or behind it. -/
def searchFrom? (pattern : Pattern) (offset : Nat) (previous : Option Char) :
    List Char → Option Found
  | [] => pattern.matchAt? { offset, previous, rest := [] }
  | c :: s =>
    pattern.matchAt? { offset, previous, rest := c :: s } <|>
      searchFrom? pattern (offset + c.utf8Size) (some c) s

/-- The first match in a text. An anchored pattern is tried at the start only. -/
def search? (pattern : Pattern) (s : List Char) : Option Found :=
  if pattern.regex.anchored then pattern.matchAt? (.start s)
  else pattern.searchFrom? 0 none s

end Pattern
end FancyTokens
