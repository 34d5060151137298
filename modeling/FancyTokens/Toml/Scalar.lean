import FancyTokens.Toml.DateTime
import FancyTokens.Toml.Node

/-!
# Strings, numbers and words of a TOML document
-/
namespace FancyTokens
namespace Toml

/-! ## Strings -/

/-- The character may stand in quotation marks on one line, apart from marks and escapes. -/
def isStringChar (c : Char) : Bool :=
  c = '\t' || (' ' ≤ c && c != '\x7f')

/-- What follows a line break. -/
def afterBreak? : List Char → Option (List Char)
  | '\n' :: s => some s
  | '\r' :: '\n' :: s => some s
  | _ => none

/-- The character of a code in hexadecimal digits. -/
def charOfCode? (digits : List Char) : Option Char :=
  (readDigits? 16 digits).bind fun code =>
    if code.isValidChar then some (Char.ofNat code) else none

/-- An escape behind its backslash. -/
def readEscape? : List Char → Option (Char × List Char)
  | 'b' :: s => some ('\x08', s)
  | 't' :: s => some ('\t', s)
  | 'n' :: s => some ('\n', s)
  | 'f' :: s => some ('\x0c', s)
  | 'r' :: s => some ('\r', s)
  | '"' :: s => some ('"', s)
  | '\\' :: s => some ('\\', s)
  | 'u' :: s => if s.length < 4 then none else (charOfCode? (s.take 4)).map (·, s.drop 4)
  | 'U' :: s => if s.length < 8 then none else (charOfCode? (s.take 8)).map (·, s.drop 8)
  | _ => none

/-- A string behind its opening double quotation mark. The fuel is the length of the text. -/
def readBasic? : Nat → List Char → Option (List Char × List Char)
  | 0, _ => none
  | _ + 1, [] => none
  | _ + 1, '"' :: s => some ([], s)
  | fuel + 1, '\\' :: s => do
    let (c, s) ← readEscape? s
    let (text, s) ← readBasic? fuel s
    return (c :: text, s)
  | fuel + 1, c :: s =>
    if isStringChar c then (readBasic? fuel s).map fun (text, s) => (c :: text, s) else none

/-- A string behind its opening single quotation mark. -/
def readLiteral? : List Char → Option (List Char × List Char)
  | [] => none
  | '\x27' :: s => some ([], s)
  | c :: s =>
    if isStringChar c then (readLiteral? s).map fun (text, s) => (c :: text, s) else none

/-- White space and line breaks at the start of a text. The fuel is the length of the text. -/
def skipBreaks : Nat → List Char → List Char
  | 0, s => s
  | fuel + 1, s =>
    match s with
    | ' ' :: s => skipBreaks fuel s
    | '\t' :: s => skipBreaks fuel s
    | s => match afterBreak? s with
      | some s => skipBreaks fuel s
      | none => s

/-- The marks at the end of a string of several lines: up to two belong to the text. -/
def readClosing? (mark : Char) (s : List Char) : Option (List Char × List Char) :=
  let (marks, rest) := s.span (· = mark)
  let inside := min 2 (marks.length - 3)
  if marks.length < 3 then none
  else some (List.replicate inside mark, List.replicate (marks.length - 3 - inside) mark ++ rest)

/-- A string of several lines behind its three opening double quotation marks. -/
def readBasicLines? : Nat → List Char → Option (List Char × List Char)
  | 0, _ => none
  | _ + 1, [] => none
  | fuel + 1, c :: s =>
    if c = '"' then
      match readClosing? '"' (c :: s) with
      | some closing => some closing
      | none => (readBasicLines? fuel s).map fun (text, s) => (c :: text, s)
    else if c = '\\' then
      match afterBreak? (s.dropWhile fun c => c = ' ' || c = '\t') with
      | some s => readBasicLines? fuel (skipBreaks s.length s)
      | none => do
        let (c, s) ← readEscape? s
        let (text, s) ← readBasicLines? fuel s
        return (c :: text, s)
    else match afterBreak? (c :: s) with
      | some s => (readBasicLines? fuel s).map fun (text, s) => ('\n' :: text, s)
      | none =>
        if isStringChar c then (readBasicLines? fuel s).map fun (text, s) => (c :: text, s)
        else none

/-- A string of several lines behind its three opening single quotation marks. -/
def readLiteralLines? : Nat → List Char → Option (List Char × List Char)
  | 0, _ => none
  | _ + 1, [] => none
  | fuel + 1, c :: s =>
    if c = '\x27' then
      match readClosing? '\x27' (c :: s) with
      | some closing => some closing
      | none => (readLiteralLines? fuel s).map fun (text, s) => (c :: text, s)
    else match afterBreak? (c :: s) with
      | some s => (readLiteralLines? fuel s).map fun (text, s) => ('\n' :: text, s)
      | none =>
        if isStringChar c then (readLiteralLines? fuel s).map fun (text, s) => (c :: text, s)
        else none

/-- The text behind a line break that follows an opening mark, or the text itself. -/
def dropFirstBreak (s : List Char) : List Char :=
  (afterBreak? s).getD s

/-- A string. -/
def readString? : List Char → Option (List Char × List Char)
  | '"' :: '"' :: '"' :: s =>
    let s := dropFirstBreak s
    readBasicLines? (s.length + 1) s
  | '"' :: s => readBasic? (s.length + 1) s
  | '\x27' :: '\x27' :: '\x27' :: s =>
    let s := dropFirstBreak s
    readLiteralLines? (s.length + 1) s
  | '\x27' :: s => readLiteral? s
  | _ => none

/-! ## Numbers -/

/-- Digits that a class admits, perhaps with single underscores between them. -/
def readGrouped? (isDigit : Char → Bool) : List Char → Option (List Char × List Char)
  | [] => none
  | c :: s =>
    if isDigit c then
      match s with
      | '_' :: s => (readGrouped? isDigit s).map fun (digits, s) => (c :: digits, s)
      | d :: s =>
        if isDigit d then (readGrouped? isDigit (d :: s)).map fun (digits, s) => (c :: digits, s)
        else some ([c], d :: s)
      | [] => some ([c], [])
    else none

/-- The sign at the start of a number: whether it is a minus, and the text behind it. -/
def readSign : List Char → Bool × List Char
  | '+' :: s => (false, s)
  | '-' :: s => (true, s)
  | s => (false, s)

/-- The digits of a decimal number, of which the first of several is no zero. -/
def readWhole? (s : List Char) : Option (List Char × List Char) :=
  match s with
  | '0' :: s => some (['0'], s)
  | s => readGrouped? Char.isDigit s

/-- The digits behind a point. -/
def readPlaces? : List Char → Option (List Char × List Char)
  | '.' :: s => readGrouped? Char.isDigit s
  | _ => none

/-- An exponent with its letter. -/
def readExponent? : List Char → Option (Int × List Char)
  | e :: s =>
    if e = 'e' ∨ e = 'E' then do
      let (negative, s) := readSign s
      let (digits, s) ← readGrouped? Char.isDigit s
      let value ← readDigits? 10 digits
      return (if negative then -(value : Int) else value, s)
    else none
  | [] => none

/-- A number with a point, an exponent or both. It must not be too great, but may be too small. -/
def readFloat? (s : List Char) : Option (Binary64 × List Char) := do
  let (negative, s) := readSign s
  let (whole, s) ← readWhole? s
  let places := readPlaces? s
  let (fraction, s) := places.getD ([], s)
  let exponent := readExponent? s
  let (scale, s) := exponent.getD (0, s)
  if places.isNone ∧ exponent.isNone then none
  else
    let digits ← readDigits? 10 (whole ++ fraction)
    match Binary64.ofDecimal negative ⟨digits, scale - fraction.length⟩ with
    | .infinite false => none
    | value => some (value, s)

/-- An infinite number, or what is no number. -/
def readSpecial? (s : List Char) : Option (Binary64 × List Char) :=
  match readSign s with
  | (negative, 'i' :: 'n' :: 'f' :: s) => some (.infinite negative, s)
  | (_, 'n' :: 'a' :: 'n' :: s) => some (.nan, s)
  | _ => none

/-- A whole number of 64 bits in a base other than ten, behind the letter of its base. -/
def readBased? (base : Nat) (s : List Char) : Option (Int × List Char) := do
  let (digits, s) ← readGrouped? (fun c => (digitValue? base c).isSome) s
  let value ← (readDigits? base digits).filter (· < Nat.pow 2 63)
  return (value, s)

/-- A whole number of 64 bits. -/
def readInteger? (s : List Char) : Option (Int × List Char) :=
  match s with
  | '0' :: 'x' :: s => readBased? 16 s
  | '0' :: 'o' :: s => readBased? 8 s
  | '0' :: 'b' :: s => readBased? 2 s
  | s => do
    let (negative, s) := readSign s
    let (digits, s) ← readWhole? s
    let value ← readDigits? 10 digits
    if negative then
      if value ≤ Nat.pow 2 63 then some (-(value : Int), s) else none
    else if value < Nat.pow 2 63 then some (value, s) else none

/-! ## All together -/

/-- A value that holds no other values. -/
def readScalar? (s : List Char) : Option (Node × List Char) :=
  match s with
  | '"' :: _ => (readString? s).map fun (text, s) => (.string text, s)
  | '\x27' :: _ => (readString? s).map fun (text, s) => (.string text, s)
  | 't' :: 'r' :: 'u' :: 'e' :: s => some (.boolean true, s)
  | 'f' :: 'a' :: 'l' :: 's' :: 'e' :: s => some (.boolean false, s)
  | s =>
    ((readDateTime? s).map fun (text, s) => (Node.dateTime text, s)) <|>
    ((readFloat? s).map fun (value, s) => (Node.float value, s)) <|>
    ((readSpecial? s).map fun (value, s) => (Node.float value, s)) <|>
    ((readInteger? s).map fun (value, s) => (Node.integer value, s))

end Toml
end FancyTokens
