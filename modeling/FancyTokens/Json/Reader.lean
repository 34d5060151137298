import FancyTokens.Json.Value

/-!
# Reading JSON

Each reader takes the start of a text and gives what it has read together with the rest.
-/
namespace FancyTokens
namespace JsonValue

/-! ## White space and words -/

/-- White space between the parts of a JSON text. -/
def isSpace (c : Char) : Bool :=
  c = ' ' || c = '\n' || c = '\t' || c = '\r'

/-- The text without white space at its start. -/
def skipSpace (s : List Char) : List Char :=
  s.dropWhile isSpace

/-- What follows a word at the start of a text. -/
def afterWord? : List Char → List Char → Option (List Char)
  | [], s => some s
  | w :: word, c :: s => if w = c then afterWord? word s else none
  | _ :: _, [] => none

/-! ## Numbers -/

/-- The digits at the start of a text; there must be one. -/
def readDigitRun? (s : List Char) : Option (List Char × List Char) :=
  match s.span Char.isDigit with
  | ([], _) => none
  | (digits, rest) => some (digits, rest)

/-- Digits without a needless zero before them. -/
def readWhole? (s : List Char) : Option (List Char × List Char) := do
  let (digits, rest) ← readDigitRun? s
  if digits.length > 1 ∧ digits.head? = some '0' then none else some (digits, rest)

/-- A point and digits, if there is a point. -/
def readFraction? (s : List Char) : Option (List Char × List Char) :=
  match s with
  | '.' :: s => (readDigitRun? s).map fun (digits, rest) => ('.' :: digits, rest)
  | s => some ([], s)

/-- An exponent, if there is its letter. -/
def readExponent? (s : List Char) : Option (List Char × List Char) :=
  match s with
  | e :: sign :: s =>
    if e = 'e' ∨ e = 'E' then
      if sign = '+' ∨ sign = '-' then
        (readDigitRun? s).map fun (digits, rest) => (e :: sign :: digits, rest)
      else (readDigitRun? (sign :: s)).map fun (digits, rest) => (e :: digits, rest)
    else some ([], e :: sign :: s)
  | [e] => if e = 'e' ∨ e = 'E' then none else some ([], [e])
  | [] => some ([], [])

/-- A number that follows its sign, if it has one. -/
def readNumber? (sign : List Char) (s : List Char) : Option (JsonValue × List Char) := do
  let (whole, s) ← readWhole? s
  let (fraction, s) ← readFraction? s
  let (exponent, s) ← readExponent? s
  return (.number (sign ++ whole ++ fraction ++ exponent), s)

/-! ## Strings -/

/-- One unit of a string: a character, or half of a surrogate pair. -/
inductive StringUnit
  | char (c : Char)
  | high (code : Nat)
  | low (code : Nat)
deriving DecidableEq, Repr

/-- The unit of a code of sixteen bits. -/
def StringUnit.ofCode (code : Nat) : StringUnit :=
  if 0xD800 ≤ code ∧ code < 0xDC00 then .high code
  else if 0xDC00 ≤ code ∧ code < 0xE000 then .low code
  else .char (Char.ofNat code)

/-- The text of some units. Halves of surrogate pairs count only in pairs. -/
def textOfUnits? : List StringUnit → Option (List Char)
  | [] => some []
  | .char c :: units => (textOfUnits? units).map (c :: ·)
  | .high high :: .low low :: units =>
    let c := Char.ofNat (0x10000 + (high - 0xD800) * 0x400 + (low - 0xDC00))
    (textOfUnits? units).map (c :: ·)
  | _ => none

/-- The character that a letter after a backslash stands for. -/
def escape? : Char → Option Char
  | '"' => some '"'
  | '\\' => some '\\'
  | '/' => some '/'
  | 'b' => some '\x08'
  | 'f' => some '\x0c'
  | 'n' => some '\n'
  | 'r' => some '\r'
  | 't' => some '\t'
  | _ => none

/-- The units up to the closing quotation mark, which is left out. -/
def readUnits? : List Char → Option (List StringUnit × List Char)
  | [] => none
  | '"' :: s => some ([], s)
  | '\\' :: 'u' :: a :: b :: c :: d :: s => do
    let code ← readDigits? 16 [a, b, c, d]
    let (units, rest) ← readUnits? s
    return (.ofCode code :: units, rest)
  | '\\' :: c :: s => do
    let c ← escape? c
    let (units, rest) ← readUnits? s
    return (.char c :: units, rest)
  | c :: s =>
    if c = '\\' ∨ c.toNat < 0x20 then none
    else (readUnits? s).map fun (units, rest) => (.char c :: units, rest)

/-- A string behind its opening quotation mark. -/
def readString? (s : List Char) : Option (Option (List Char) × List Char) :=
  (readUnits? s).map fun (units, rest) => (textOfUnits? units, rest)

/-! ## Values -/

mutual

/-- A value. Each step into an array or object takes two of the fuel. -/
def readValue? : Nat → List Char → Option (JsonValue × List Char)
  | 0, _ => none
  | fuel + 1, s =>
    match skipSpace s with
    | '"' :: s => (readString? s).map fun (text, s) => (.string text, s)
    | '[' :: s =>
      match skipSpace s with
      | ']' :: s => some (.array [], s)
      | s => (readElements? fuel s).map fun (elements, s) => (.array elements, s)
    | '{' :: s =>
      match skipSpace s with
      | '}' :: s => some (.object [], s)
      | s => (readMembers? fuel s).map fun (members, s) => (.object members, s)
    | '-' :: s => readNumber? ['-'] s
    | 't' :: s => (afterWord? ['r', 'u', 'e'] s).map fun s => (.boolean true, s)
    | 'f' :: s => (afterWord? ['a', 'l', 's', 'e'] s).map fun s => (.boolean false, s)
    | 'n' :: s => (afterWord? ['u', 'l', 'l'] s).map fun s => (.null, s)
    | s => readNumber? [] s

/-- One or more elements and the end of their array. -/
def readElements? : Nat → List Char → Option (List JsonValue × List Char)
  | 0, _ => none
  | fuel + 1, s => do
    let (value, s) ← readValue? fuel s
    match skipSpace s with
    | ']' :: s => return ([value], s)
    | ',' :: s =>
      let (values, s) ← readElements? fuel s
      return (value :: values, s)
    | _ => none

/-- One or more members and the end of their object. -/
def readMembers? : Nat → List Char → Option (List (Option (List Char) × JsonValue) × List Char)
  | 0, _ => none
  | fuel + 1, s =>
    match skipSpace s with
    | '"' :: s => do
      let (key, s) ← readString? s
      match skipSpace s with
      | ':' :: s =>
        let (value, s) ← readValue? fuel s
        match skipSpace s with
        | '}' :: s => return ([(key, value)], s)
        | ',' :: s =>
          let (members, s) ← readMembers? fuel s
          return ((key, value) :: members, s)
        | _ => none
      | _ => none
    | _ => none

end

/-- The value that a text holds, with white space around it at most. -/
def read? (s : List Char) : Option JsonValue :=
  match readValue? (2 * s.length) s with
  | some (value, rest) => if (skipSpace rest).isEmpty then some value else none
  | none => none

end JsonValue
end FancyTokens
