import FancyTokens.Scan.Stack
import FancyTokens.Text.Quoted

/-!
# What happens during a scan

The scanner reports each change of its stack and each character that no rule takes.
-/
namespace FancyTokens

/-- How much a reader of the log wants to know. -/
inductive Event.Level
  | trace
  | debug
deriving DecidableEq, Repr

inductive Event
  /-- A mode has been entered; the offset is that behind the match. -/
  | entered (offset : Nat) (mode : Mode)
  /-- A mode has been left; the offset is that behind the match. -/
  | left (offset : Nat) (mode : Mode)
  /-- A line break, which no rule took, has led back from a mode to the outermost one. -/
  | reset (offset : Nat) (mode : Mode)
  /-- No rule takes a character. -/
  | unmatched (offset : Nat) (mode : Mode) (character : Char)
deriving DecidableEq, Repr

namespace Event

/-- The offset that goes with an event. -/
def offset : Event → Nat
  | entered offset _ | left offset _ | reset offset _ | unmatched offset _ _ => offset

/-- The mode that goes with an event. -/
def mode : Event → Mode
  | entered _ mode | left _ mode | reset _ mode | unmatched _ mode _ => mode

def level : Event → Level
  | unmatched .. => .debug
  | _ => .trace

def message : Event → String
  | entered .. => "push state"
  | left .. => "pop state"
  | reset .. => "newline resets state stack"
  | unmatched .. => "no rule matched, emitting error token"

/-- The quoted character that no rule takes. -/
def character? : Event → Option (List Char)
  | unmatched _ _ c => some (quoteChar c)
  | _ => none

end Event

/-- The name of a level in the log. -/
def Event.Level.name : Event.Level → String
  | trace => "TRACE"
  | debug => "DEBUG"

end FancyTokens
