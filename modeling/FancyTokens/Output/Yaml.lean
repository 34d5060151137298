import FancyTokens.Output.Record
import FancyTokens.Yaml.Scalar

/-!
# Records in YAML

A sequence of mappings, one field on each line.
-/
namespace FancyTokens
namespace YamlOutput

/-- The value of a field, up to the end of its last line. -/
def value : FieldValue → List Char
  | .text s => Yaml.writeLine s
  | .number n => decimal n ++ ['\n']

/-- A field. -/
def entry (field : String × FieldValue) : List Char :=
  field.1.toList ++ [':', ' '] ++ value field.2

/-- A record: its first field stands behind the dash, the others below it. -/
def item : Record → List Char
  | [] => "- \x7b\x7d\n".toList
  | field :: fields =>
    ['-', ' '] ++ entry field ++ fields.flatMap fun field => [' ', ' '] ++ entry field

/-- The sequence of some records. -/
def sequence : List Record → List Char
  | [] => "[]\n".toList
  | records => records.flatMap item

/-- Tokens as a sequence of mappings. -/
def render (tokens : List Token) : List Char :=
  sequence (tokens.map Token.record)

end YamlOutput
end FancyTokens
