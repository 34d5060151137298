import FancyTokens.Output.Json
import FancyTokens.Output.Raw
import FancyTokens.Output.Yaml
import FancyTokens.Text.Lowercase

/-!
# Output formats
-/
namespace FancyTokens

inductive OutputFormat
  | raw
  | json
  | yaml
deriving DecidableEq, Repr

namespace OutputFormat

/-- Every format, in the order in which they are listed. -/
def all : List OutputFormat :=
  [.raw, .json, .yaml]

def name : OutputFormat → String
  | raw => "raw"
  | json => "json"
  | yaml => "yaml"

def description : OutputFormat → String
  | raw => "One token per line: category, tab, quoted text"
  | json => "JSON array of \x7bcategory, start, end, text\x7d"
  | yaml => "YAML sequence of \x7bcategory, start, end, text\x7d"

/-- The format of a name, in whatever case. -/
def ofName? (name : List Char) : Option OutputFormat :=
  all.find? (equalIgnoringCase ·.name.toList name)

/-- The names of the formats, separated by commas. -/
def names : String :=
  ", ".intercalate (all.map name)

/-- Tokens in a format. -/
def render : OutputFormat → List Token → List Char
  | raw => Raw.render
  | json => JsonOutput.render
  | yaml => YamlOutput.render

end OutputFormat

/-- No format has a name. -/
structure UnknownFormat where
  name : List Char
deriving DecidableEq, Repr

def UnknownFormat.message (e : UnknownFormat) : String :=
  "unknown output format '" ++ .ofList e.name ++ s!"' (available: {OutputFormat.names})"

/-- Reads the name of a format. -/
def OutputFormat.read (name : List Char) : Except UnknownFormat OutputFormat :=
  match ofName? name with
  | some format => return format
  | none => throw ⟨name⟩

end FancyTokens
