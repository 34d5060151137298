import FancyTokens.Settings.Value
import FancyTokens.Text.Numeral

/-!
# Paths to settings

A path starts at a key of the outermost table and leads on through keys and places of arrays:
`lexer.tabsize`, `list[2].name`.
-/
namespace FancyTokens
namespace Settings

/-- A step from one value to a value inside it. -/
inductive PathStep
  | key (key : Key)
  /-- A place of an array; a negative one counts from the end. -/
  | index (i : Int)
deriving DecidableEq, Repr

structure KeyPath where
  root : Key
  steps : List PathStep
deriving DecidableEq, Repr

/-- Why a text is no path. -/
inductive PathError
  /-- It does not start with a key. -/
  | noKey
  /-- Something other than a step follows, or a bracket is not closed. -/
  | unexpected
  /-- There is no number between brackets. -/
  | noNumber
  /-- The number between brackets is out of range. -/
  | numberTooLarge
deriving DecidableEq, Repr

/-- The name by which an error is reported. -/
def PathError.message : PathError → String
  | noKey => "IsA"
  | unexpected => "Char"
  | noNumber => "Digit"
  | numberTooLarge => "Map on Result"

namespace KeyPath

/-! ## Reading -/

/-- The character may stand in a key of a path. -/
def isKeyChar (c : Char) : Bool :=
  c.isAlphanum || c = ' ' || c = '_' || c = '-'

/-- White space between a bracket and a number. -/
def skipSpace (s : List Char) : List Char :=
  s.dropWhile fun c => c = ' ' || c = '\t' || c = '\r' || c = '\n'

/-- A place behind its opening bracket. -/
def readIndex (s : List Char) : Except PathError (PathStep × List Char) :=
  let s := skipSpace s
  let (sign, s) := match s with
    | '-' :: s => (['-'], s)
    | s => ([], s)
  match s.span Char.isDigit with
  | ([], _) => throw .noNumber
  | (digits, s) =>
    match readSigned? 10 64 (sign ++ digits) with
    | none => throw .numberTooLarge
    | some i =>
      match skipSpace s with
      | ']' :: s => return (.index i, s)
      | _ => throw .unexpected

/-- One step. -/
def readStep (s : List Char) : Except PathError (PathStep × List Char) :=
  match s with
  | '.' :: s =>
    match s.span isKeyChar with
    | ([], _) => throw .unexpected
    | (key, s) => return (.key key, s)
  | '[' :: s => readIndex s
  | _ => throw .unexpected

/-- The steps up to the end of a text. The fuel is the length of the text. -/
def readSteps : Nat → List Char → Except PathError (List PathStep)
  | _, [] => return []
  | 0, _ => throw .unexpected
  | fuel + 1, s => do
    let (step, s) ← readStep s
    return step :: (← readSteps fuel s)

/-- Reads a path. -/
def read (s : List Char) : Except PathError KeyPath :=
  match s.span isKeyChar with
  | ([], _) => throw .noKey
  | (root, s) => do return ⟨root, ← readSteps s.length s⟩

/-! ## Setting values -/

/-- The place in an array of some length that a number stands for. There is none before its
start. -/
def place? (length : Nat) (i : Int) : Option Nat :=
  if 0 ≤ i then some i.toNat
  else if i.natAbs ≤ length then some (length - i.natAbs) else none

/-- The elements with a value at a place, and with nothing in the places before it that there were
not yet. -/
def putAt (elements : List Value) (i : Nat) (value : Value) : List Value :=
  (elements ++ List.replicate (i + 1 - elements.length) Value.nil).set i value

/-- The value after some steps inside it have been given a value. What stands in the way is replaced
by a table or an array. -/
def setSteps? (new : Value) : List PathStep → Value → Option Value
  | [], _ => some new
  | [.key key], value => some (value.toTable.set key new)
  | .key key :: steps, value =>
    let inner := (value.toTable.entries.lookup (lowercase key)).getD Value.nil
    (setSteps? new steps inner).map (value.toTable.replace key)
  | .index i :: steps, value =>
    let elements := value.toArray.elements
    (place? elements.length i).bind fun i =>
      (setSteps? new steps (elements[i]?.getD Value.nil)).map fun inner =>
        .array value.toArray.origin (putAt elements i inner)

/-- The tree after a path has been given a value. -/
def set? (path : KeyPath) (new root : Value) : Option Value :=
  setSteps? new (.key path.root :: path.steps) root

end KeyPath
end Settings
end FancyTokens
