import FancyTokens.Toml.Scalar

/-!
# TOML documents

A document is a list of lines, each of which is blank, opens a table or gives a key its value. What
a line may contain is decided here; what it does to the tables read so far, by the tree itself.
-/
namespace FancyTokens
namespace Toml

/-- The levels of arrays and tables in braces that a value may have, and the parts of a key. -/
def nestingLimit : Nat := 79

/-! ## Blanks and comments -/

/-- The text behind spaces and tabs. -/
def skipBlanks (s : List Char) : List Char :=
  s.dropWhile fun c => c = ' ' || c = '\t'

/-- The text behind a comment, if there is one. -/
def skipComment (s : List Char) : List Char :=
  match s with
  | '#' :: s => s.dropWhile fun c => c = '\t' || (' ' ≤ c && c ≠ '\x7f')
  | s => s

/-- The text behind blanks, a comment and the end of the line. -/
def afterLine? (s : List Char) : Option (List Char) :=
  match skipComment (skipBlanks s) with
  | [] => some []
  | s => afterBreak? s

/-- The text behind blanks, comments and line breaks. The fuel is the length of the text. -/
def skipLines : Nat → List Char → List Char
  | 0, s => s
  | fuel + 1, s =>
    let s := skipComment (skipBlanks s)
    match afterBreak? s with
    | some s => skipLines fuel s
    | none => s

/-! ## Keys -/

/-- The character may stand in a key without quotation marks. -/
def isBareKeyChar (c : Char) : Bool :=
  c.isAlphanum || c = '_' || c = '-'

/-- One part of a key. -/
def readKeyPart? (s : List Char) : Option (Key × List Char) :=
  match s with
  | '"' :: s => readBasic? (s.length + 1) s
  | '\x27' :: s => readLiteral? s
  | s => match s.span isBareKeyChar with
    | ([], _) => none
    | (key, s) => some (key, s)

/-- A key, as the path to its last part and that part, with blanks around all parts. The fuel is the
number of parts that a key may have. -/
def readKey? : Nat → List Char → Option ((List Key × Key) × List Char)
  | 0, _ => none
  | fuel + 1, s => do
    let (part, s) ← readKeyPart? (skipBlanks s)
    match skipBlanks s with
    | '.' :: s =>
      let ((path, key), s) ← readKey? fuel s
      return ((part :: path, key), s)
    | s => return (([], part), s)

/-! ## Values -/

/-- Reads a value. -/
abbrev ValueReader := List Char → Option (Node × List Char)

/-- The elements of an array and its closing bracket. The fuel is the length of the text. -/
def readElements? (value : ValueReader) : Nat → List Char → Option (List Node × List Char)
  | 0, _ => none
  | fuel + 1, s =>
    match skipLines s.length s with
    | ']' :: s => some ([], s)
    | s => do
      let (node, s) ← value s
      match skipLines s.length s with
      | ',' :: s =>
        let (nodes, s) ← readElements? value fuel s
        return (node :: nodes, s)
      | ']' :: s => return ([node], s)
      | _ => none

/-- A key, the sign behind it and its value. -/
def readPair? (value : ValueReader) (s : List Char) :
    Option ((List Key × Key) × Node × List Char) := do
  let (key, s) ← readKey? nestingLimit s
  let s ← afterChar? ['='] s
  let (node, s) ← value (skipBlanks s)
  return (key, node, skipBlanks s)

/-- One or more entries of a table in braces, added to those before them, and the closing brace. -/
def readEntries? (value : ValueReader) : Nat → Entries → List Char → Option (Entries × List Char)
  | 0, _, _ => none
  | fuel + 1, entries, s => do
    let ((path, key), node, s) ← readPair? value s
    let entries ← assign? path key node entries
    match s with
    | ',' :: s => readEntries? value fuel entries s
    | '}' :: s => return (entries, s)
    | _ => none

/-- A value with at most so many levels of arrays and tables. -/
def readValue? : Nat → ValueReader
  | 0, s => readScalar? s
  | levels + 1, s =>
    match s with
    | '[' :: s => (readElements? (readValue? levels) (s.length + 1) s).map fun (nodes, s) =>
      (.array nodes, s)
    | '{' :: s => match skipBlanks s with
      | '}' :: s => some (.inline [], s)
      | s => (readEntries? (readValue? levels) (s.length + 1) [] s).map fun (entries, s) =>
        (.inline entries, s)
    | s => readScalar? s

/-! ## Lines -/

/-- The tables read so far, and the path of the last header. -/
structure Progress where
  document : Entries
  header : List Key
deriving Repr

/-- A header behind its opening brackets. -/
def readHeader? (progress : Progress) (s : List Char) : Option (Progress × List Char) :=
  match s with
  | '[' :: s => do
    let ((path, key), s) ← readKey? nestingLimit s
    let s ← (afterChar? [']'] s).bind (afterChar? [']'])
    let document ← append? path key progress.document
    return (⟨document, path ++ [key]⟩, s)
  | s => do
    let ((path, key), s) ← readKey? nestingLimit s
    let s ← afterChar? [']'] s
    let document ← define? path key progress.document
    return (⟨document, path ++ [key]⟩, s)

/-- The part of a line that is neither blank nor comment. -/
def readStatement? (progress : Progress) (s : List Char) : Option (Progress × List Char) :=
  match s with
  | '[' :: s => readHeader? progress s
  | s => do
    let ((path, key), node, s) ← readPair? (readValue? nestingLimit) s
    let document ← assignBelow? progress.header path key node progress.document
    return ({ progress with document }, s)

/-- The lines of a document. The fuel is the length of the text. -/
def readLines? : Nat → Progress → List Char → Option Entries
  | 0, progress, s => if s.isEmpty then some progress.document else none
  | fuel + 1, progress, s => do
    match skipBlanks s with
    | [] => return progress.document
    | s =>
      let (progress, s) ←
        if s.head?.any fun c => c = '#' || c = '\n' || c = '\r' then some (progress, s)
        else readStatement? progress s
      readLines? fuel progress (← afterLine? s)

/-- The text without a byte order mark at its start. -/
def dropMark (s : List Char) : List Char :=
  match s with
  | '\ufeff' :: s => s
  | s => s

/-- Reads a document. -/
def read? (s : List Char) : Option Entries :=
  let s := dropMark s
  readLines? (s.length + 1) ⟨[], []⟩ s

end Toml
end FancyTokens
