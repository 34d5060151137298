import FancyTokens.Output.Record

/-!
# Records in JSON

An array of objects, one field on each line, indented by two columns for each level.
-/
namespace FancyTokens
namespace JsonOutput

/-- A character of a string. -/
def escaped (c : Char) : List Char :=
  if c = '"' then ['\\', '"']
  else if c = '\\' then ['\\', '\\']
  else if c = '\x08' then ['\\', 'b']
  else if c = '\x0c' then ['\\', 'f']
  else if c = '\n' then ['\\', 'n']
  else if c = '\r' then ['\\', 'r']
  else if c = '\t' then ['\\', 't']
  else if c.toNat < 0x20 then ['\\', 'u'] ++ padZeros 4 (hexadecimal c.toNat)
  else [c]

/-- A string. -/
def string (s : List Char) : List Char :=
  '"' :: s.flatMap escaped ++ ['"']

/-- The value of a field. -/
def value : FieldValue → List Char
  | .text s => string s
  | .number n => decimal n

/-- Items in brackets, separated by commas, each on a line of its own that is indented to `column`.
Without items the brackets touch. -/
def block (column : Nat) (opening closing : Char) (items : List (List Char)) : List Char :=
  let newline (column : Nat) := '\n' :: List.replicate column ' '
  match items with
  | [] => [opening, closing]
  | item :: items =>
    opening :: newline (column + 2) ++ item ++
      items.flatMap (fun item => ',' :: newline (column + 2) ++ item) ++
      newline column ++ [closing]

/-- A field. -/
def member (field : String × FieldValue) : List Char :=
  string field.1.toList ++ [':', ' '] ++ value field.2

/-- A record, as an element of the outermost array. -/
def object (record : Record) : List Char :=
  block 2 '{' '}' (record.map member)

/-- The array of some records. -/
def array (records : List Record) : List Char :=
  block 0 '[' ']' (records.map object)

/-- Tokens as an array of objects. -/
def render (tokens : List Token) : List Char :=
  array (tokens.map Token.record)

end JsonOutput
end FancyTokens
