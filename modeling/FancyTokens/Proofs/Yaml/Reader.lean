import FancyTokens.Proofs.Text.Numerals
import FancyTokens.Proofs.Text.Splitting
import FancyTokens.Yaml.Scalar
import Mathlib.Data.List.DropRight

/-!
# Reading sequences of mappings

A reader for as much of YAML as sequences of mappings from names to scalars need, one field on each
line. It follows the rules of the format for scalars of all four styles. It refuses characters that
may not stand in a document, and what would have to be folded or would go on in another line. Plain
scalars are resolved to nothing, truth values, numbers or texts.
-/

namespace FancyTokens
namespace Yaml

/-! ## Plain scalars -/

/-- What a scalar stands for. -/
inductive Scalar
  | nothing
  | truth (value : Bool)
  | number (s : List Char)
  | text (s : List Char)
deriving DecidableEq, Repr

/-- The text is one of some words. -/
def isWord (words : List String) (s : List Char) : Bool :=
  words.any (·.toList == s)

/-- What a plain scalar stands for. -/
def resolve (s : List Char) : Scalar :=
  if isWord nullWords s then .nothing
  else if isWord booleanWords s then .truth (s.head?.any fun c => c = 't' || c = 'T')
  else if isWord specialNumberWords s then .number s
  else if isZeroLed s then .text s
  else if isInteger s || isFiniteNumber s then .number s
  else .text s

/-- A space or a tab. -/
def isWhite (c : Char) : Bool :=
  c = ' ' || c = '\t'

/-- The mark says something else if white space or the end of the line follows it. -/
def isMark (c : Char) : Bool :=
  c = '-' || c = '?' || c = ':'

/-- A plain scalar may start like this. -/
def startsPlain : List Char → Bool
  | [] => false
  | c :: s => !isGap (some c) && !isIndicator c && !(isMark c && isGap s.head?)

/-- A line up to its comment, which stands behind white space. -/
def cutComment : List Char → List Char
  | [] => []
  | c :: s => if isWhite c && s.head? == some '#' then [] else c :: cutComment s

/-- A colon makes a key of what stands before it. -/
def hasKey : List Char → Bool
  | [] => false
  | c :: s => (c = ':' && isGap s.head?) || hasKey s

/-- The plain scalar of a line. -/
def readPlain? (line : List Char) : Option Scalar :=
  let text := (cutComment line).rdropWhile isWhite
  if startsPlain line && !hasKey text then some (resolve text) else none

/-! ## Quoted scalars -/

/-- A break that is not kept as it is between quotation marks. -/
def isFolded (c : Char) : Bool :=
  c = '\r' || c = '\n' || c = '\u0085'

/-- The text up to the closing single quotation mark, and what follows it. White space around a
break is dropped. `fresh` holds behind a break. -/
def readSingle? : Bool → List Char → Option (List Char × List Char)
  | _, [] => none
  | _, '\x27' :: '\x27' :: s =>
    (readSingle? false s).map fun (text, rest) => ('\x27' :: text, rest)
  | _, '\x27' :: s => some ([], s)
  | fresh, c :: s =>
    if isFolded c then none
    else if isWhite c && (fresh || (s.dropWhile isWhite).head?.any isBreak) then
      readSingle? fresh s
    else (readSingle? (isBreak c) s).map fun (text, rest) => (c :: text, rest)

/-- The character that a letter behind a backslash stands for. -/
def unescape? : Char → Option Char
  | '0' => some '\x00'
  | 'a' => some '\x07'
  | 'b' => some '\x08'
  | 't' => some '\t'
  | '\t' => some '\t'
  | 'n' => some '\n'
  | 'v' => some '\x0b'
  | 'f' => some '\x0c'
  | 'r' => some '\r'
  | 'e' => some '\x1b'
  | ' ' => some ' '
  | '"' => some '"'
  | '/' => some '/'
  | '\\' => some '\\'
  | 'N' => some '\u0085'
  | '_' => some '\u00a0'
  | 'L' => some '\u2028'
  | 'P' => some '\u2029'
  | _ => none

/-- The number of digits that a letter announces. -/
def codeLength : Char → Nat
  | 'x' => 2
  | 'u' => 4
  | 'U' => 8
  | _ => 0

/-- The text up to the closing double quotation mark, and what follows it. -/
def readDouble? (s : List Char) : Option (List Char × List Char) :=
  match s with
  | [] => none
  | '"' :: s => some ([], s)
  | '\\' :: letter :: s =>
    ((unescape? letter).or (charOfCode? (s.take (codeLength letter)))).bind fun c =>
      (readDouble? (s.drop (codeLength letter))).map fun (text, rest) => (c :: text, rest)
  | c :: s =>
    if c = '\\' || isBreak c then none
    else (readDouble? s).map fun (text, rest) => (c :: text, rest)
termination_by s.length
decreasing_by
  · simp only [List.length_cons, List.length_drop]
    omega
  · simp

/-! ## Blocks -/

/-- How far a block is indented, where its header says it. -/
def readDigit (s : List Char) : Option Nat × List Char :=
  match s with
  | [] => (none, s)
  | c :: rest => match digitValue? 10 c with
    | some (n + 1) => (some (n + 1), rest)
    | _ => (none, s)

/-- The sign in the header of a block. -/
def readSign : List Char → Option Char × List Char
  | '-' :: s => (some '-', s)
  | '+' :: s => (some '+', s)
  | s => (none, s)

/-- How far the first line of a block is indented, which has to be further than the keys. -/
def shownIndent? (s : List Char) : Option Nat :=
  if (s.dropWhile (· = ' ')).head?.all isBreak then none
  else some (max 3 (s.takeWhile (· = ' ')).length)

/-- The lines of a block without the spaces to which they are indented, and what follows them.
`missing` spaces are still to come in this line; a line in which some of them do not come is empty
or ends the block, and the spaces before it are given back. -/
def readLines (column : Nat) : Nat → List Char → List Char × List Char
  | _, [] => ([], [])
  | missing, c :: s =>
    if isBreak c then
      let (text, rest) := readLines column column s
      (c :: text, rest)
    else match missing with
      | 0 =>
        let (text, rest) := readLines column 0 s
        (c :: text, rest)
      | missing + 1 =>
        if c = ' ' then readLines column missing s
        else ([], List.replicate (column - (missing + 1)) ' ' ++ c :: s)

/-- The text of a block with as many breaks at its end as the sign wants. -/
def chomp (sign : Option Char) (text : List Char) : List Char :=
  let body := text.rdropWhile isBreak
  if sign = some '+' then text
  else if sign = some '-' || body.isEmpty then body
  else body ++ (text.drop body.length).take 1

/-- The text of a block, of which the bar has been read, and what follows it. The keys around it
stand in the third column. -/
def readBlock? (s : List Char) : Option (List Char × List Char) :=
  let (digit, s) := readDigit s
  let (sign, s) := readSign s
  match s with
  | '\n' :: s => do
    let column ← (digit.map (2 + ·)).or (shownIndent? s)
    let (text, rest) := readLines column column s
    return (chomp sign text, rest)
  | _ => none

/-! ## Documents -/

/-- A quoted text ends its line. -/
def closeLine? : List Char × List Char → Option (Scalar × List Char)
  | (text, '\n' :: rest) => some (.text text, rest)
  | _ => none

/-- A scalar and the lines below it. -/
def readScalar? (s : List Char) : Option (Scalar × List Char) :=
  match s with
  | '\x27' :: s => (readSingle? false s).bind closeLine?
  | '"' :: s => (readDouble? s).bind closeLine?
  | '|' :: s => (readBlock? s).map fun (text, rest) => (.text text, rest)
  | s => match s.span (!isBreak ·) with
    | (line, '\n' :: rest) => (readPlain? line).map fun scalar => (scalar, rest)
    | _ => none

/-- Fields with their names. -/
abbrev Mapping := List (List Char × Scalar)

/-- A field and the lines below it. -/
def readField? (s : List Char) : Option ((List Char × Scalar) × List Char) :=
  match s.span Char.isLower with
  | (name, ':' :: ' ' :: s) => (readScalar? s).map fun (scalar, rest) => ((name, scalar), rest)
  | _ => none

/-- The fields of a mapping, the first of which stands behind a dash, and the lines below them. -/
def readFields? : Nat → List Char → Option (Mapping × List Char)
  | 0, _ => none
  | fuel + 1, s => do
    let (field, rest) ← readField? s
    match rest with
    | ' ' :: ' ' :: rest =>
      let (fields, rest) ← readFields? fuel rest
      return (field :: fields, rest)
    | _ => return ([field], rest)

/-- The mappings of a sequence. -/
def readItems? : Nat → List Char → Option (List Mapping)
  | _, [] => some []
  | 0, _ => none
  | fuel + 1, '-' :: ' ' :: s => do
    let (fields, rest) ← readFields? s.length s
    let items ← readItems? fuel rest
    return fields :: items
  | _, _ => none

/-- The character may stand in a document. -/
def isPermitted (c : Char) : Bool :=
  isOrdinary c || c = '\t' || c = '\r' || c = '\u0085'

/-- The sequence of a document. -/
def read? (s : List Char) : Option (List Mapping) :=
  if s.isEmpty || !s.all isPermitted then none
  else if s = "[]\n".toList then some []
  else readItems? s.length s

end Yaml
end FancyTokens
