import FancyTokens.Settings.Entries
import FancyTokens.Text.Lowercase
import FancyTokens.Toml.Document

/-!
# Values of settings

Settings form a tree of tables and arrays, in which later layers are merged into earlier ones. A
value that comes from a file remembers the file's name, and a key in any case stands for the key in
lower case.
-/
namespace FancyTokens
namespace Settings

abbrev Key := List Char

/-- The name of the file that a value comes from. -/
abbrev Origin := Option (List Char)

inductive Scalar
  | nil
  | boolean (value : Bool)
  | integer (value : Int)
  | float (value : Binary64)
  | string (text : List Char)
deriving DecidableEq, Repr

inductive Value
  | scalar (origin : Origin) (value : Scalar)
  | array (origin : Origin) (elements : List Value)
  | table (origin : Origin) (entries : List (Key × Value))
deriving Repr

namespace Value

/-- Where a value comes from. -/
def origin : Value → Origin
  | scalar origin _ | array origin _ | table origin _ => origin

/-- A value that is not there yet. -/
def nil : Value :=
  .scalar none .nil

/-- The table without entries. -/
def empty : Value :=
  .table none []

/-! ## Tables and arrays -/

/-- The value itself if it is a table, or else the table without entries. -/
def toTable : Value → Value
  | table origin entries => .table origin entries
  | _ => empty

/-- The entries of a table; other values have none. -/
def entries : Value → List (Key × Value)
  | table _ entries => entries
  | _ => []

/-- The value itself if it is an array, or else the array without elements. -/
def toArray : Value → Value
  | array origin elements => .array origin elements
  | _ => .array none []

/-- The elements of an array; other values have none. -/
def elements : Value → List Value
  | array _ elements => elements
  | _ => []

/-! ## Layers -/

/-- The tree with a value in the place of what stood under a key. -/
def replace (root : Value) (key : Key) (value : Value) : Value :=
  .table root.toTable.origin (Entries.put (lowercase key) value root.toTable.entries)

mutual

/-- The tree with a value under a key. A table is merged into what stands there, anything else
replaces it. -/
def set (root : Value) (key : Key) : Value → Value
  | scalar origin value => replace root key (.scalar origin value)
  | array origin elements => replace root key (.array origin elements)
  | table _ incoming =>
    let target := (root.toTable.entries.lookup (lowercase key)).getD empty
    replace root key (setAll target incoming)

/-- The tree with the values of some entries under their keys. -/
def setAll (root : Value) : List (Key × Value) → Value
  | [] => root
  | (key, value) :: incoming => setAll (set root key value) incoming

end

/-! ## Out of a file -/

mutual

/-- The value of a node of a document. -/
def ofNode (origin : Origin) : Toml.Node → Value
  | .string text => .scalar origin (.string text)
  | .integer value => .scalar origin (.integer value)
  | .float value => .scalar origin (.float value)
  | .boolean value => .scalar origin (.boolean value)
  | .dateTime text => .scalar origin (.string text)
  | .array nodes => .array origin (ofNodes origin nodes)
  | .inline entries => .table origin (ofEntries origin entries)
  | .table _ entries => .table origin (ofEntries origin entries)
  | .tables tables => .array origin (ofTables origin tables).reverse

/-- The values of some nodes. -/
def ofNodes (origin : Origin) : List Toml.Node → List Value
  | [] => []
  | node :: nodes => ofNode origin node :: ofNodes origin nodes

/-- The entries of a table. -/
def ofEntries (origin : Origin) : List (Toml.Key × Toml.Node) → List (Key × Value)
  | [] => []
  | (key, node) :: entries => (key, ofNode origin node) :: ofEntries origin entries

/-- Some tables as values. -/
def ofTables (origin : Origin) : List (List (Toml.Key × Toml.Node)) → List Value
  | [] => []
  | entries :: tables => .table origin (ofEntries origin entries) :: ofTables origin tables

end

end Value
end Settings
end FancyTokens
