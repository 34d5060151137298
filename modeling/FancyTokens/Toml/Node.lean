import FancyTokens.Decimal.Binary64

/-!
# The tree of a TOML document

Tables come about in three ways: a header or braces define one, a header below it brings one along,
and a dotted key brings one along. A document may not define a table twice, nor add to a table by
other means than those that made it; `define?`, `append?` and `assign?` hold these rules.
-/
namespace FancyTokens
namespace Toml

/-- How a table has come about. -/
inductive Making
  /-- A header names it. -/
  | defined
  /-- A header names a table inside it. -/
  | broughtByHeader
  /-- A dotted key names something inside it. -/
  | broughtByKey
deriving DecidableEq, Repr

abbrev Key := List Char

inductive Node
  | string (text : List Char)
  | integer (value : Int)
  | float (value : Binary64)
  | boolean (value : Bool)
  /-- A date, a time or both, by its canonical text. -/
  | dateTime (text : List Char)
  | array (elements : List Node)
  /-- A table in braces, to which nothing can be added. -/
  | inline (entries : List (Key × Node))
  | table (making : Making) (entries : List (Key × Node))
  /-- The tables of one header in double brackets, last first. -/
  | tables (elements : List (List (Key × Node)))
deriving Repr

/-- The entries of a table, in the order of their keys' first appearance. -/
abbrev Entries := List (Key × Node)

/-- The entries after the one of a key has changed. A new one comes last. -/
def alter? (key : Key) (change : Option Node → Option Node) : Entries → Option Entries
  | [] => (change none).map fun node => [(key, node)]
  | (k, node) :: entries =>
    if k = key then (change (some node)).map fun node => (k, node) :: entries
    else (alter? key change entries).map ((k, node) :: ·)

/-- The entries after the table at the end of a path has changed, with tables made on the way where
there are none. A dotted key does not lead into a table that a header defines. -/
def descend? (dotted : Bool) (change : Making → Entries → Option Entries) :
    List Key → Making → Entries → Option Entries
  | [], making, entries => change making entries
  | key :: path, _, entries =>
    entries |> alter? key fun
      | none =>
        let making := if dotted then .broughtByKey else .broughtByHeader
        (descend? dotted change path making []).map (.table making)
      | some (.table making inner) =>
        if dotted ∧ making = .defined then none
        else (descend? dotted change path making inner).map (.table making)
      | some (.tables (last :: earlier)) =>
        (descend? dotted change path .defined last).map fun last => .tables (last :: earlier)
      | some _ => none

/-- The document after a header has defined a table. -/
def define? (path : List Key) (key : Key) (document : Entries) : Option Entries :=
  document |> descend? false
    (fun _ => alter? key fun
      | none => some (.table .defined [])
      | some (.table .broughtByHeader entries) => some (.table .defined entries)
      | some _ => none)
    path .defined

/-- The document after a header has added a table to those of its name. -/
def append? (path : List Key) (key : Key) (document : Entries) : Option Entries :=
  document |> descend? false
    (fun _ => alter? key fun
      | none => some (.tables [[]])
      | some (.tables elements) => some (.tables ([] :: elements))
      | some _ => none)
    path .defined

/-- The entries after a key, perhaps dotted, has been given a value. A dotted key adds only to a
table that dotted keys have made. -/
def assign? (path : List Key) (key : Key) (node : Node) : Entries → Option Entries :=
  descend? true
    (fun making entries =>
      if path ≠ [] ∧ making ≠ .broughtByKey then none
      else entries |> alter? key fun
        | none => some node
        | some _ => none)
    path .defined

/-- The document after a key has been given a value in the table of the last header. -/
def assignBelow? (header path : List Key) (key : Key) (node : Node) (document : Entries) :
    Option Entries :=
  document |> descend? false (fun _ => assign? path key node) header .defined

end Toml
end FancyTokens
