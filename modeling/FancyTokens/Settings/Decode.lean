import FancyTokens.Output.Format
import FancyTokens.Preprocessing
import FancyTokens.Settings.Error

/-!
# Settings of the lexer

What the tree of settings says about preprocessing and the output format. Values are taken
generously: words and numbers pass for truth values, and truth values and texts for numbers.
-/
namespace FancyTokens
namespace Settings

/-! ## Single values -/

/-- The words for truth values. -/
def truthWords : List (String × Bool) :=
  [("true", true), ("on", true), ("yes", true), ("false", false), ("off", false), ("no", false)]

/-- The truth value of a word. -/
def truthOfWord? (word : List Char) : Option Bool :=
  (truthWords.find? fun (name, _) => name.toList == word).map Prod.snd

/-- The truth value of a word or digit. -/
def truthOfText? (text : List Char) : Option Bool :=
  if text = ['1'] then some true else if text = ['0'] then some false else truthOfWord? text

/-- The value as a truth value; `key` is where it stands. -/
def toBool (key : List Char) (value : Value) : Except Error Bool :=
  let refuse (unexpected : Unexpected) :=
    throw (.invalidType unexpected "a boolean" key value.origin)
  match value with
  | .scalar _ (.boolean b) => return b
  | .scalar _ (.integer i) => return i != 0
  | .scalar _ (.float x) => return x.isNonzero
  | .scalar _ (.string text) =>
    match truthOfText? (lowercase text) with
    | some b => return b
    | none => refuse (.string (lowercase text))
  | .scalar _ .nil => refuse .unit
  | .array .. => refuse .sequence
  | .table .. => refuse .map

/-- The value as a number of 64 bits without a sign; `key` is where it stands. -/
def toUnsigned (key : List Char) (value : Value) : Except Error Nat :=
  let refuse (unexpected : Unexpected) (expected : String) :=
    throw (.invalidType unexpected expected key value.origin)
  match value with
  | .scalar _ (.boolean b) => return b.toNat
  | .scalar _ (.integer i) =>
    if 0 ≤ i then return i.toNat
    else refuse (.integer64 i) "an unsigned 64 bit or less integer"
  | .scalar _ (.float x) => return x.toUnsigned 64
  | .scalar _ (.string text) =>
    match truthOfWord? (lowercase text), readUnsigned? 10 64 text with
    | some b, _ => return b.toNat
    | none, some n => return n
    | none, none => refuse (.string text) "an integer"
  | .scalar _ .nil => refuse .unit "an integer"
  | .array .. => refuse .sequence "an integer"
  | .table .. => refuse .map "an integer"

/-- A value that stands where a table or array is expected. -/
def Scalar.unexpected : Scalar → Unexpected
  | .nil => .unit
  | .boolean value => .boolean value
  | .integer value => .integer value
  | .float value => .float value
  | .string text => .string text

/-! ## Preprocessing -/

/-- The options with one of them set; `key` is where the value stands. -/
def setOption (options : Preprocessing) (option : Preprocessing.Key) (key : List Char)
    (value : Value) : Except Error Preprocessing :=
  match option with
  | .stripNewlines => do return { options with stripNewlines := ← toBool key value }
  | .stripAll => do return { options with stripAll := ← toBool key value }
  | .ensureNewline => do return { options with ensureNewline := ← toBool key value }
  | .tabSize => do return { options with tabSize := ← toUnsigned key value }

/-- The options with those set that have an entry in a table. -/
def setNamed (entries : List (Key × Value)) (options : Preprocessing) :
    List Preprocessing.Key → Except Error Preprocessing
  | [] => return options
  | option :: rest =>
    match entries.lookup option.name.toList with
    | none => setNamed entries options rest
    | some value => do
      let options ← setOption options option ("lexer.".toList ++ option.name.toList) value
      setNamed entries options rest

/-- The options with the first ones set from the elements of an array; `i` is the place of the first
one. Further elements do not matter. -/
def setPlaced (options : Preprocessing) :
    (i : Nat) → List Preprocessing.Key → List Value → Except Error Preprocessing
  | _, [], _ => return options
  | _, _, [] => return options
  | i, option :: rest, value :: values => do
    let options ← setOption options option ("lexer[".toList ++ decimal i ++ [']']) value
    setPlaced options (i + 1) rest values

/-- The options that a value describes: a table by names, or an array by places. -/
def toPreprocessing : Value → Except Error Preprocessing
  | .table _ entries => setNamed entries {} Preprocessing.Key.all
  | .array _ elements => setPlaced {} 0 Preprocessing.Key.all elements
  | .scalar _ value => throw (.invalidType value.unexpected "struct LexerOptions" [] none)

/-! ## Output format -/

/-- The format of a name, in whatever case. -/
def formatOfName (name : List Char) : Except Error OutputFormat :=
  match OutputFormat.all.find? (·.name.toList == lowercase name) with
  | some format => return format
  | none => throw (.unknownVariant "OutputFormat" name)

/-- The format that a value names: a text, or a table by its only key. -/
def toFormat : Value → Except Error OutputFormat
  | .scalar _ (.string name) => formatOfName name
  | .table _ [(name, _)] => formatOfName name
  | _ => throw (.noVariant "OutputFormat")

/-- The format that the settings of the output name: a table by an entry, or an array by its first
element. -/
def toOutput : Value → Except Error OutputFormat
  | .table _ entries =>
    match entries.lookup "format".toList with
    | some value => toFormat value
    | none => throw (.missingField "format")
  | .array _ (value :: _) => toFormat value
  | .array _ [] => throw (.invalidLength 0 "struct OutputConfig with 1 element")
  | .scalar _ value => throw (.invalidType value.unexpected "struct OutputConfig" [] none)

end Settings

/-- All that can be set. -/
structure Configuration where
  preprocessing : Preprocessing := {}
  format : OutputFormat := .raw
deriving DecidableEq, Repr

/-- The configuration that the tree of settings describes. -/
def Configuration.ofSettings (root : Settings.Value) : Except Settings.Error Configuration := do
  let some lexer := root.entries.lookup "lexer".toList
    | throw (.missingField "lexer")
  let some output := root.entries.lookup "output".toList
    | throw (.missingField "output")
  return ⟨← Settings.toPreprocessing lexer, ← Settings.toOutput output⟩

end FancyTokens
