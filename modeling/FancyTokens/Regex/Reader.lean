import FancyTokens.Regex.Search
import FancyTokens.Text.Numeral

/-!
# Reading patterns

A pattern is read in one pass over its characters. The reader keeps the groups that are still open,
each with the parts read so far, and what it has begun but not finished: an escape, a class, a
repetition that may yet turn out lazy. Since every character only takes one state to the next, the
reading of a text that is made of two parts is the reading of the second part from the state that
the first one leaves (`readFrom_append`).

Besides characters a pattern may hold `.`, `^`, `$`, classes in brackets, the escapes `\d \s \w`
with their opposites, `\b \B \A \z`, groups that capture and groups that do not, alternatives, and
repetitions, greedy or lazy.

This is a part of the usual syntax of patterns. Not read are flags, groups with names, properties
of characters (`\p`), characters by their numbers (`\x`, `\u`), word boundaries of one side, classes
and operations on classes inside of classes, and counts with white space or without a lowest number.
A pattern that holds any of these is refused, as a malformed one is. The bound on counts
(`countLimit`) is one of this reader, too.
-/
namespace FancyTokens
namespace Regex
namespace Reader

/-- The most occurrences that a count may ask for. It bounds the size of the expression and belongs
to this reader, not to the syntax of patterns. -/
def countLimit : Nat := 1000

/-- A group that is still open. The outermost frame stands for the pattern itself. -/
structure Frame where
  /-- The number of a group that captures. -/
  capture : Option Nat
  /-- The finished alternatives, last first. -/
  alternatives : List Regex
  /-- The parts of the alternative being read, last first. -/
  parts : List Regex
deriving DecidableEq, Repr

namespace Frame

/-- A group of which nothing has been read. -/
def opened (capture : Option Nat) : Frame :=
  ⟨capture, [], []⟩

/-- The frame with one more part. -/
def push (frame : Frame) (r : Regex) : Frame :=
  { frame with parts := r :: frame.parts }

/-- The frame at the start of its next alternative. -/
def nextAlternative (frame : Frame) : Frame :=
  { frame with alternatives := .ofReversed frame.parts :: frame.alternatives, parts := [] }

/-- The expression between the ends of the group. -/
def body (frame : Frame) : Regex :=
  frame.alternatives.foldl (fun later r => .alt r later) (.ofReversed frame.parts)

/-- The expression that a finished group stands for. -/
def finished (frame : Frame) : Regex :=
  match frame.capture with
  | some index => .group index frame.body
  | none => frame.body

end Frame

/-- The last thing read inside a class, which a dash may join to the next one. -/
inductive LastItem
  | nothing
  /-- A character. One that is not escaped must not stand twice if it could be an operator. -/
  | char (c : Char) (escaped : Bool)
  | named
deriving DecidableEq, Repr

/-- A class in brackets up to some point; `last` is not among its items yet. -/
structure OpenClass where
  negated : Bool
  items : List ClassItem
  last : LastItem
deriving DecidableEq, Repr

namespace OpenClass

/-- The class with the character waiting for a dash among its items. -/
def settle (k : OpenClass) : OpenClass :=
  match k.last with
  | .char c _ => { k with items := .range c c :: k.items, last := .nothing }
  | _ => { k with last := .nothing }

/-- The class with one more item. -/
def add (k : OpenClass) (item : ClassItem) : OpenClass :=
  { k.settle with items := item :: k.settle.items }

/-- The class with a character that the next dash may make the start of a range. -/
def addChar (k : OpenClass) (c : Char) (escaped : Bool) : OpenClass :=
  { k.settle with last := .char c escaped }

/-- The expression of a class that has been read. -/
def finished (k : OpenClass) : Regex :=
  .one ⟨k.negated, k.settle.items.reverse⟩

end OpenClass

/-- What the reader is in the middle of. -/
inductive Pending
  /-- Nothing: a new part may start. -/
  | part
  /-- A repetition of `body`, which a question mark would make lazy. -/
  | repetition (body : Regex) (count : Count)
  /-- The lowest number of a count in braces. -/
  | countLow (body : Regex) (digits : Option Nat)
  /-- The highest number of a count in braces. -/
  | countHigh (body : Regex) (low : Nat) (digits : Option Nat)
  /-- A backslash. -/
  | escape
  /-- An opening parenthesis. -/
  | groupStart
  /-- An opening parenthesis and a question mark. -/
  | groupKind
  /-- An opening bracket. -/
  | classStart
  /-- A class of which dashes at most have been read; they stand for themselves. -/
  | classHead (k : OpenClass)
  | classBody (k : OpenClass)
  /-- A backslash in a class. -/
  | classEscape (k : OpenClass)
  /-- A dash in a class that joins nothing. -/
  | classDash (k : OpenClass)
  /-- A dash after a character. -/
  | classRange (k : OpenClass) (low : Char)
  /-- A dash after a character, and a backslash. -/
  | classRangeEscape (k : OpenClass) (low : Char)
deriving DecidableEq, Repr

structure State where
  pending : Pending
  /-- The innermost open group. -/
  frame : Frame
  /-- The open groups around it, innermost first. -/
  outer : List Frame
  /-- Number of capturing groups opened so far. -/
  groups : Nat
deriving DecidableEq, Repr

/-- Nothing has been read. -/
def State.initial : State :=
  ⟨.part, .opened none, [], 0⟩

namespace State

/-- The state after one more part of the innermost group. -/
def push (st : State) (r : Regex) : State :=
  { st with pending := .part, frame := st.frame.push r }

/-- The state inside a new group. -/
def openGroup (st : State) (capture : Option Nat) : State :=
  { st with pending := .part, frame := .opened capture, outer := st.frame :: st.outer }

/-- The state inside a new group that captures. -/
def openCapture (st : State) : State :=
  { st.openGroup (some st.groups) with groups := st.groups + 1 }

/-- The state behind the end of the innermost group. -/
def closeGroup? (st : State) : Option State :=
  match st.outer with
  | [] => none
  | frame :: outer =>
    some { st with pending := .part, frame := frame.push st.frame.finished, outer }

/-- The state in which the last part has been taken back, to become something else. -/
def retake? (st : State) (next : Regex → Pending) : Option State :=
  match st.frame.parts with
  | [] => none
  | r :: parts => some { st with pending := next r, frame := { st.frame with parts } }

/-- The state with the repetition that has been read among the parts. -/
def settle (st : State) : State :=
  match st.pending with
  | .repetition body count => st.push (body.repeated count true)
  | _ => st

end State

/-- Punctuation that a backslash makes stand for itself. -/
def isEscapable (c : Char) : Bool :=
  c.toNat < 128 && !c.isAlphanum && c != '<' && c != '>'

/-- The control characters that have a letter after a backslash. -/
def controlEscape? : Char → Option Char
  | 'n' => some '\n'
  | 't' => some '\t'
  | 'r' => some '\r'
  | 'a' => some '\x07'
  | 'v' => some '\x0b'
  | 'f' => some '\x0c'
  | _ => none

/-- The character that a backslash before another one stands for. -/
def charEscape? (c : Char) : Option Char :=
  if isEscapable c then some c else controlEscape? c

/-- The class that a letter after a backslash stands for, and whether it is the opposite. -/
def classEscape? : Char → Option (NamedClass × Bool)
  | 'd' => some (.digit, false)
  | 'D' => some (.digit, true)
  | 's' => some (.blank, false)
  | 'S' => some (.blank, true)
  | 'w' => some (.word, false)
  | 'W' => some (.word, true)
  | _ => none

/-- What a character after a backslash stands for outside classes. -/
def escape? (c : Char) : Option Regex :=
  match c with
  | 'A' => some .textStart
  | 'z' => some .textEnd
  | 'b' => some (.wordBoundary false)
  | 'B' => some (.wordBoundary true)
  | c => match classEscape? c with
    | some (kind, negated) => some (.one (.ofNamed kind negated))
    | none => (charEscape? c).map .char

/-- One character where a new part may start. -/
def readPart? (st : State) (c : Char) : Option State :=
  match c with
  | '(' => some { st with pending := .groupStart }
  | ')' => st.closeGroup?
  | '|' => some { st with frame := st.frame.nextAlternative }
  | '[' => some { st with pending := .classStart }
  | '\\' => some { st with pending := .escape }
  | '.' => some (st.push (.one .anyInLine))
  | '^' => some (st.push .textStart)
  | '$' => some (st.push .textEnd)
  | '*' => st.retake? (.repetition · ⟨0, none⟩)
  | '+' => st.retake? (.repetition · ⟨1, none⟩)
  | '?' => st.retake? (.repetition · ⟨0, some 1⟩)
  | '{' => st.retake? (.countLow · none)
  | c => some (st.push (.char c))

/-- One digit of a count. -/
def readCountDigit? (digits : Option Nat) (c : Char) : Option Nat :=
  (digitValue? 10 c).bind fun d => some (10 * digits.getD 0 + d) |>.filter (· ≤ countLimit)

/-- One character of a class behind its head. -/
def readClassBody? (st : State) (k : OpenClass) (c : Char) : Option State :=
  match c with
  | ']' => some (st.push k.finished)
  | '[' => none
  | '\\' => some { st with pending := .classEscape k }
  | '-' => match k.last with
    | .char low _ => some { st with pending := .classRange { k with last := .nothing } low }
    | _ => some { st with pending := .classDash k }
  | c =>
    if (c = '&' ∨ c = '~') ∧ k.last = .char c false then none
    else some { st with pending := .classBody (k.addChar c false) }

/-- The end of a range in a class. -/
def closeRange? (st : State) (k : OpenClass) (low high : Char) : Option State :=
  if low ≤ high then some { st with pending := .classBody (k.add (.range low high)) } else none

/-- One character of a pattern; there is no next state when the pattern is malformed. -/
def read? (st : State) (c : Char) : Option State :=
  match st.pending with
  | .part => readPart? st c
  | .repetition body count =>
    if c = '?' then some (st.push (body.repeated count false)) else readPart? st.settle c
  | .countLow body digits =>
    match c, digits with
    | '}', some n => some { st with pending := .repetition body ⟨n, some n⟩ }
    | ',', some n => some { st with pending := .countHigh body n none }
    | c, digits => (readCountDigit? digits c).map fun n =>
      { st with pending := .countLow body (some n) }
  | .countHigh body low digits =>
    match c, digits with
    | '}', none => some { st with pending := .repetition body ⟨low, none⟩ }
    | '}', some high =>
      if low ≤ high then some { st with pending := .repetition body ⟨low, some high⟩ } else none
    | c, digits => (readCountDigit? digits c).map fun n =>
      { st with pending := .countHigh body low (some n) }
  | .escape => (escape? c).map st.push
  | .groupStart =>
    if c = '?' then some { st with pending := .groupKind } else readPart? st.openCapture c
  | .groupKind => if c = ':' then some (st.openGroup none) else none
  | .classStart =>
    if c = '^' then some { st with pending := .classHead ⟨true, [], .nothing⟩ }
    else if c = '-' then some { st with pending := .classHead ⟨false, [.range '-' '-'], .nothing⟩ }
    else if c = ']' then some { st with pending := .classBody ⟨false, [.range ']' ']'], .nothing⟩ }
    else readClassBody? st ⟨false, [], .nothing⟩ c
  | .classHead k =>
    if c = '-' then some { st with pending := .classHead (k.add (.range '-' '-')) }
    else if c = ']' ∧ k.items = [] then
      some { st with pending := .classBody (k.add (.range ']' ']')) }
    else readClassBody? st k c
  | .classBody k => readClassBody? st k c
  | .classEscape k =>
    match classEscape? c with
    | some (kind, negated) =>
      some { st with pending := .classBody { k.add (.named kind negated) with last := .named } }
    | none => (charEscape? c).map fun c => { st with pending := .classBody (k.addChar c true) }
  | .classDash k =>
    if c = '-' then none
    else if c = ']' ∨ k.last ≠ .named then readClassBody? st (k.add (.range '-' '-')) c
    else none
  | .classRange k low =>
    match c with
    | ']' => some (st.push (k.add (.range low low) |>.add (.range '-' '-')).finished)
    | '-' => none
    | '[' => none
    | '\\' => some { st with pending := .classRangeEscape k low }
    | high => closeRange? st k low high
  | .classRangeEscape k low => (charEscape? c).bind (closeRange? st k low)

/-- The characters of a text, one after another. -/
def readFrom? (st : State) : List Char → Option State
  | [] => some st
  | c :: s => (read? st c).bind fun st => readFrom? st s

/-- Reading two texts in a row. -/
theorem readFrom_append (st : State) (s t : List Char) :
    readFrom? st (s ++ t) = (readFrom? st s).bind fun st => readFrom? st t := by
  induction s generalizing st with
  | nil => rfl
  | cons c s ih =>
    simp only [List.cons_append, readFrom?, Option.bind_assoc]
    exact congrArg _ (funext ih)

/-- The pattern, once all groups are closed and nothing is left unfinished. -/
def finish? (st : State) : Option Pattern :=
  let st := st.settle
  if st.pending = .part ∧ st.outer = [] then some ⟨st.frame.finished, st.groups⟩ else none

end Reader
end Regex

/-- Reads a pattern. -/
def Pattern.read? (s : List Char) : Option Pattern :=
  (Regex.Reader.readFrom? .initial s).bind Regex.Reader.finish?

/-- Reads the pattern that matches what `s` matches at the start of a text. Since the anchor is
put in front of the pattern's own text, a pattern whose parentheses do not match can end the
anchor's group itself. -/
def Pattern.readAnchored? (s : List Char) : Option Pattern :=
  Pattern.read? ("\\A(?:".toList ++ s ++ ")".toList)

end FancyTokens
