/-!
# Patterns for file names

A pattern describes a whole name: a question mark stands for one character, a star for any
characters, brackets for one character of a set, and two stars between slashes for any directories.
-/
namespace FancyTokens

/-- A range of characters in brackets. -/
structure CharRange where
  low : Char
  high : Char
deriving DecidableEq, Repr

/-- Membership in a range. -/
def CharRange.covers (range : CharRange) (c : Char) : Bool :=
  range.low ≤ c && c ≤ range.high

inductive GlobPart
  | char (c : Char)
  | anyChar
  /-- A character of the ranges or, negated, of none of them. -/
  | set (negated : Bool) (ranges : List CharRange)
  /-- Any characters. -/
  | anyText
  /-- Nothing, any text that ends with a slash, or all the rest. -/
  | anyDirectories
deriving DecidableEq, Repr

/-- A pattern is the list of its parts. -/
abbrev Glob := List GlobPart

namespace Glob

/-! ## Reading -/

/-- The ranges between brackets. A dash between two characters makes a range of them. -/
def ranges : List Char → List CharRange
  | low :: '-' :: high :: s => ⟨low, high⟩ :: ranges s
  | c :: s => ⟨c, c⟩ :: ranges s
  | [] => []

/-- The text up to the first closing bracket, and the text behind that. -/
def closeBracket? : List Char → Option (List Char × List Char)
  | [] => none
  | ']' :: s => some ([], s)
  | c :: s => (closeBracket? s).map fun (inside, rest) => (c :: inside, rest)

/-- What brackets hold, and the text behind them. The first character inside is never the closing
bracket. -/
def readSet? : List Char → Option (GlobPart × List Char)
  | '!' :: c :: s =>
    (closeBracket? s).map fun (inside, rest) => (.set true (ranges (c :: inside)), rest)
  | ['!'] => none
  | c :: s =>
    (closeBracket? s).map fun (inside, rest) => (.set false (ranges (c :: inside)), rest)
  | [] => none

/-- Reads the parts of a pattern. `atStart` holds at the start and behind a slash, where alone two
stars may stand; a slash or the end must follow them. The fuel is the length of the text. -/
def readParts? : Nat → (atStart : Bool) → List Char → Option Glob
  | _, _, [] => some []
  | 0, _, _ :: _ => none
  | fuel + 1, atStart, c :: s =>
    match c, s with
    | '?', s => (readParts? fuel false s).map (.anyChar :: ·)
    | '*', '*' :: '*' :: _ => none
    | '*', ['*'] => if atStart then some [.anyDirectories] else none
    | '*', '*' :: '/' :: s =>
      if atStart then (readParts? fuel true s).map (.anyDirectories :: ·) else none
    | '*', '*' :: _ :: _ => none
    | '*', s => (readParts? fuel false s).map (.anyText :: ·)
    | '[', s => (readSet? s).bind fun (set, s) => (readParts? fuel false s).map (set :: ·)
    | c, s => (readParts? fuel (c == '/') s).map (.char c :: ·)

/-- Reads a pattern. -/
def read? (s : List Char) : Option Glob :=
  readParts? s.length true s

/-! ## Matching -/

/-- A part that stands for one character accepts it. -/
def acceptsChar : GlobPart → Char → Bool
  | .char c, d => c == d
  | .anyChar, _ => true
  | .set negated ranges, d => ranges.any (·.covers d) != negated
  | .anyText, _ => false
  | .anyDirectories, _ => false

/-- Some rest of a text that `here` admits, given the character before it, has a property. -/
def anyRest (here : Option Char → Bool) (p : List Char → Bool) (previous : Option Char) :
    List Char → Bool
  | [] => here previous && p []
  | c :: s => here previous && p (c :: s) || anyRest here p (some c) s

/-- A pattern describes a text. -/
def accepts : Glob → List Char → Bool
  | [], s => s.isEmpty
  | .anyText :: parts, s => anyRest (fun _ => true) (accepts parts) none s
  | .anyDirectories :: parts, s =>
    anyRest (fun previous => previous.all (· == '/')) (accepts parts) none s || accepts parts []
  | part :: parts, c :: s => acceptsChar part c && accepts parts s
  | _ :: _, [] => false

end Glob
end FancyTokens
