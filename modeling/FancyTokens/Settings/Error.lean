import FancyTokens.Files.Reading
import FancyTokens.Settings.KeyPath
import FancyTokens.Text.Quoted

/-!
# What can be wrong with settings
-/
namespace FancyTokens
namespace Settings

/-- A kind of value that was not expected. -/
inductive Unexpected
  | unit
  | boolean (value : Bool)
  | integer (value : Int)
  /-- An integer that has been asked for as such. -/
  | integer64 (value : Int)
  | float (value : Binary64)
  | string (text : List Char)
  | sequence
  | map
deriving DecidableEq, Repr

/-- The description of a value that was not expected. -/
def Unexpected.message : Unexpected → String
  | unit => "unit value"
  | boolean value => s!"boolean \x60{value}\x60"
  | integer value => s!"integer \x60{value}\x60"
  | integer64 value => s!"64-bit integer \x60{value}\x60"
  | float value => "floating point \x60" ++ .ofList value.display ++ "\x60"
  | string text => "string " ++ .ofList (quoteText text)
  | sequence => "sequence"
  | map => "map"

inductive Error
  /-- A file does not exist. -/
  | missing (name : List Char)
  /-- A file cannot be read. -/
  | unreadable (e : ReadError)
  /-- A file is no TOML document. What is wrong in it is not told. -/
  | malformed (name : List Char)
  /-- A text is no path to a setting. -/
  | path (e : PathError)
  /-- A place lies before the start of its array. -/
  | outOfRange
  /-- A value is of a wrong kind; `key` and `origin` tell where it stands, as far as is known. -/
  | invalidType (unexpected : Unexpected) (expected : String) (key : List Char) (origin : Origin)
  /-- An array has too few elements to describe something. -/
  | invalidLength (length : Nat) (expected : String)
  /-- A key is missing. -/
  | missingField (name : String)
  /-- A name is not among the alternatives. -/
  | unknownVariant (kind : String) (name : List Char)
  /-- A value cannot name an alternative. -/
  | noVariant (kind : String)
deriving DecidableEq, Repr

namespace Error

/-- The end of a message that tells where a value stands. -/
def place (key : List Char) (origin : Origin) : String :=
  (if key = [] then "" else " for key \x60" ++ .ofList key ++ "\x60") ++
    match origin with
    | none => ""
    | some name => " in " ++ .ofList name

/-- The message of an error. Two of them are this library's own words: that of a file that is no
TOML document, which does not report what is wrong in it, and that of a place out of range. -/
def message : Error → String
  | missing name => "configuration file \"" ++ .ofList name ++ "\" not found"
  | unreadable e => e.message
  | malformed name => .ofList name ++ " is not a TOML document"
  | path e => e.message
  | outOfRange => "subscript out of range"
  | invalidType unexpected expected key origin =>
    s!"invalid type: {unexpected.message}, expected {expected}" ++ place key origin
  | invalidLength length expected => s!"invalid length {length}, expected {expected}"
  | missingField name => s!"missing field \x60{name}\x60"
  | unknownVariant kind name =>
    s!"enum {kind} does not have variant constructor " ++ .ofList name
  | noVariant kind =>
    s!"value of enum {kind} should be represented by either string or table with exactly one key"

end Error
end Settings
end FancyTokens
