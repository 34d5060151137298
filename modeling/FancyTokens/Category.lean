/-!
# Categories of tokens

The fixed set of classes into which tokens fall. They form a small hierarchy, so that a reader who
knows how to show a name can show every kind of name.
-/
namespace FancyTokens

inductive Category
  | text
  | whitespace
  | error
  | comment
  | lineComment
  | keyword
  | operator
  | punctuation
  | name
  | constant
  | builtin
  | function
  | «variable»
  | instanceVariable
  | classVariable
  | string
  | regex
  | symbol
  | number
  | integer
  | float
  | octal
  | hexadecimal
  | binary
deriving DecidableEq, Repr

namespace Category

/-- Every category, in the order in which they compare. -/
def all : List Category := [
  .text, .whitespace, .error, .comment, .lineComment, .keyword, .operator, .punctuation,
  .name, .constant, .builtin, .function, .variable, .instanceVariable, .classVariable,
  .string, .regex, .symbol, .number, .integer, .float, .octal, .hexadecimal, .binary]

/-- The place of a category in the order. -/
def rank (category : Category) : Nat :=
  all.idxOf category

/-- The dotted name of a category. -/
def dottedName : Category → String
  | text => "Text"
  | whitespace => "Text.Whitespace"
  | error => "Error"
  | comment => "Comment"
  | lineComment => "Comment.Single"
  | keyword => "Keyword"
  | operator => "Operator"
  | punctuation => "Punctuation"
  | name => "Name"
  | constant => "Name.Constant"
  | builtin => "Name.Builtin"
  | function => "Name.Function"
  | «variable» => "Name.Variable"
  | instanceVariable => "Name.Variable.Instance"
  | classVariable => "Name.Variable.Class"
  | string => "String"
  | regex => "String.Regex"
  | symbol => "String.Symbol"
  | number => "Number"
  | integer => "Number.Integer"
  | float => "Number.Float"
  | octal => "Number.Oct"
  | hexadecimal => "Number.Hex"
  | binary => "Number.Bin"

/-- The category of a dotted name. -/
def ofDottedName? (name : String) : Option Category :=
  all.find? (·.dottedName == name)

/-- The category of a dotted name that may stand below the common root of all categories. -/
def ofName? (name : String) : Option Category :=
  match name.toList with
  | 'T' :: 'o' :: 'k' :: 'e' :: 'n' :: '.' :: rest => ofDottedName? (.ofList rest)
  | _ => ofDottedName? name

/-- The category around a category; the outermost ones have none. -/
def parent? : Category → Option Category
  | whitespace => some text
  | lineComment => some comment
  | constant | builtin | function | «variable» => some name
  | instanceVariable | classVariable => some «variable»
  | regex | symbol => some string
  | integer | float | octal | hexadecimal | binary => some number
  | text | error | comment | keyword | operator | punctuation | name | string | number => none

theorem rank_lt_of_parent? {c p : Category} (h : c.parent? = some p) : p.rank < c.rank := by
  cases c <;> simp_all [parent?] <;> subst h <;> decide

/-- A category and all those around it, outwards. -/
def ancestors (c : Category) : List Category :=
  match h : c.parent? with
  | none => [c]
  | some p =>
    have := rank_lt_of_parent? h
    c :: ancestors p
termination_by c.rank

/-- A category lies within another one, or is the same. -/
def isWithin (c other : Category) : Bool :=
  c.ancestors.contains other

theorem mem_all (c : Category) : c ∈ all := by
  cases c <;> decide

/-- The name of a category leads back to it. -/
theorem ofDottedName?_dottedName (c : Category) : ofDottedName? c.dottedName = some c := by
  cases c <;> decide

/-- A child's name is its parent's name with a part more. -/
theorem dottedName_of_parent? {c p : Category} (h : c.parent? = some p) :
    (p.dottedName.toList ++ ['.']).isPrefixOf c.dottedName.toList = true := by
  cases c <;> simp_all [parent?] <;> subst h <;> decide

end Category
end FancyTokens
