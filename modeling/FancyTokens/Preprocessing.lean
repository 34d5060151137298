import FancyTokens.Json.Reader
import FancyTokens.Scan.Run
import FancyTokens.Text.Blank

/-!
# Preprocessing of source

Before source is shown it is brought into a normal form: line breaks become line feeds, the ends
are trimmed, tabs become spaces up to the next column of a grid, and a last line break is added.
Each part but the first can be switched off.
-/
namespace FancyTokens

/-- Which parts of preprocessing to do. -/
structure Preprocessing where
  /-- Trim line feeds at both ends. -/
  stripNewlines : Bool := true
  /-- Trim all white space at both ends; this includes the line feeds. -/
  stripAll : Bool := false
  /-- End the text with a line feed. -/
  ensureNewline : Bool := true
  /-- The distance of the columns to which tabs lead; zero leaves them alone. -/
  tabSize : Nat := 0
deriving DecidableEq, Repr

namespace Preprocessing

/-! ## Line breaks -/

/-- The text in which a carriage return before a line feed is gone. -/
def dropReturns : List Char → List Char
  | '\r' :: '\n' :: s => '\n' :: dropReturns s
  | c :: s => c :: dropReturns s
  | [] => []

/-- The text with line feeds for all line breaks. -/
def normalizeBreaks (s : List Char) : List Char :=
  (dropReturns s).map fun c => if c = '\r' then '\n' else c

/-! ## Tabs -/

/-- The rest of a text with spaces for its tabs, from a column on. -/
def expandTabsFrom (tabSize column : Nat) : List Char → List Char
  | [] => []
  | c :: s =>
    if c = '\t' then
      let pad := tabSize - column % tabSize
      List.replicate pad ' ' ++ expandTabsFrom tabSize (column + pad) s
    else if c = '\n' ∨ c = '\r' then c :: expandTabsFrom tabSize 0 s
    else c :: expandTabsFrom tabSize (column + 1) s

/-- The text with spaces for its tabs. Columns count from each line break. -/
def expandTabs (tabSize : Nat) (s : List Char) : List Char :=
  expandTabsFrom tabSize 0 s

/-! ## All together -/

/-- The text without what is to be trimmed. -/
def strip (options : Preprocessing) (s : List Char) : List Char :=
  if options.stripAll then trimBlanks s
  else if options.stripNewlines then trimEnds (· == '\n') s
  else s

/-- The text with a line feed at its end, unless it has one. -/
def endLine (s : List Char) : List Char :=
  if s.getLast? = some '\n' then s else s ++ ['\n']

/-- The normal form of a source. A text without carriage returns or without tabs is not gone through
for them, as it would stay the same (`normalizeBreaks_eq_self`, `expandTabsFrom_eq_self`). -/
def apply (options : Preprocessing) (s : List Char) : List Char :=
  let s := if '\r' ∈ s then normalizeBreaks s else s
  let s := options.strip s
  let s := if options.tabSize > 0 ∧ '\t' ∈ s then expandTabs options.tabSize s else s
  if options.ensureNewline then endLine s else s

/-- The tokens of the normal form of a source. -/
def tokens (options : Preprocessing) (s : List Char) : List (Category × List Char) :=
  categorized (options.apply s)

/-! ## Options in JSON -/

/-- The options, in their order in an array. -/
inductive Key
  | stripNewlines
  | stripAll
  | ensureNewline
  | tabSize
deriving DecidableEq, Repr

namespace Key

def all : List Key :=
  [.stripNewlines, .stripAll, .ensureNewline, .tabSize]

/-- The name of an option. -/
def name : Key → String
  | stripNewlines => "stripnl"
  | stripAll => "stripall"
  | ensureNewline => "ensurenl"
  | tabSize => "tabsize"

/-- The option of a name. -/
def ofName? (name : List Char) : Option Key :=
  all.find? (·.name.toList == name)

end Key

/-- The options with one of them set from a JSON value of exactly the right kind. -/
def set? (options : Preprocessing) (value : JsonValue) : Key → Option Preprocessing
  | .stripNewlines => value.boolean?.map fun b => { options with stripNewlines := b }
  | .stripAll => value.boolean?.map fun b => { options with stripAll := b }
  | .ensureNewline => value.boolean?.map fun b => { options with ensureNewline := b }
  | .tabSize => (value.unsigned? 64).map fun n => { options with tabSize := n }

/-- The options with those set that the members of an object name. Members of other names do not
matter, but no option may be named twice. -/
def ofMembers? (options : Preprocessing) (seen : List Key) :
    List (Option (List Char) × JsonValue) → Option Preprocessing
  | [] => some options
  | (none, _) :: _ => none
  | (some name, value) :: members =>
    match Key.ofName? name with
    | none => ofMembers? options seen members
    | some key =>
      if key ∈ seen then none
      else (options.set? value key).bind fun options => ofMembers? options (key :: seen) members

/-- The options with the first ones set from the elements of an array. -/
def ofElements? (options : Preprocessing) : List Key → List JsonValue → Option Preprocessing
  | _, [] => some options
  | [], _ :: _ => none
  | key :: keys, value :: values =>
    (options.set? value key).bind fun options => ofElements? options keys values

/-- The options that a JSON value describes: an object by names, or an array by places. Those that
it leaves out stay as they are by default. -/
def ofJson? : JsonValue → Option Preprocessing
  | .object members => ofMembers? {} [] members
  | .array elements => ofElements? {} Key.all elements
  | _ => none

end Preprocessing

/-- The category that a JSON value names: a string, or an object with the name as its only key and
nothing as its value. -/
def Category.ofJson? : JsonValue → Option Category
  | .string (some dotted) => ofDottedName? (.ofList dotted)
  | .object [(some dotted, .null)] => ofDottedName? (.ofList dotted)
  | _ => none

end FancyTokens
