import FancyTokens.Text.Numeral

/-!
# Dates and times of a TOML document
-/
namespace FancyTokens
namespace Toml

/-- A number of exactly `width` digits at the start of a text. -/
def readFixed? : (width : Nat) → (value : Nat) → List Char → Option (Nat × List Char)
  | 0, value, s => some (value, s)
  | width + 1, value, c :: s =>
    (digitValue? 10 c).bind fun d => readFixed? width (10 * value + d) s
  | _ + 1, _, [] => none

/-- A number of exactly `width` digits between two bounds. -/
def readBounded? (width low high : Nat) (s : List Char) : Option (Nat × List Char) :=
  (readFixed? width 0 s).filter fun (value, _) => low ≤ value && value ≤ high

/-- What follows a character of a set. -/
def afterChar? (set : List Char) : List Char → Option (List Char)
  | c :: s => if c ∈ set then some s else none
  | [] => none

/-- The number of days of a month. -/
def daysOfMonth (year month : Nat) : Nat :=
  if month = 2 then
    if year % 4 = 0 ∧ (year % 100 ≠ 0 ∨ year % 400 = 0) then 29 else 28
  else if month ∈ [4, 6, 9, 11] then 30
  else 31

/-- A number with zeros before it. -/
def padded (width n : Nat) : List Char :=
  padZeros width (decimal n)

/-- A date, by its canonical text. -/
def readDate? (s : List Char) : Option (List Char × List Char) := do
  let (year, s) ← readFixed? 4 0 s
  let (month, s) ← readBounded? 2 1 12 (← afterChar? ['-'] s)
  let (day, s) ← readBounded? 2 1 (daysOfMonth year month) (← afterChar? ['-'] s)
  return (padded 4 year ++ '-' :: padded 2 month ++ '-' :: padded 2 day, s)

/-- A fraction of a second, if there is a point. Nine digits count, and zeros at the end do not. -/
def readFraction? (s : List Char) : Option (List Char × List Char) :=
  match s with
  | '.' :: s =>
    match s.span Char.isDigit with
    | ([], _) => none
    | (digits, s) =>
      let digits := ((digits.take 9).reverse.dropWhile (· = '0')).reverse
      some (if digits = [] then [] else '.' :: digits, s)
  | s => some ([], s)

/-- A time of day, by its canonical text. -/
def readTime? (s : List Char) : Option (List Char × List Char) := do
  let (hour, s) ← readBounded? 2 0 23 s
  let (minute, s) ← readBounded? 2 0 59 (← afterChar? [':'] s)
  let (second, s) ← readBounded? 2 0 60 (← afterChar? [':'] s)
  let (fraction, s) ← readFraction? s
  return (padded 2 hour ++ ':' :: padded 2 minute ++ ':' :: padded 2 second ++ fraction, s)

/-- The distance from universal time, if it is given, by its canonical text. -/
def readOffset? (s : List Char) : Option (List Char × List Char) :=
  match s with
  | 'Z' :: s => some (['Z'], s)
  | 'z' :: s => some (['Z'], s)
  | sign :: rest =>
    if sign = '+' ∨ sign = '-' then do
      let (hours, s) ← readBounded? 2 0 23 rest
      let (minutes, s) ← readBounded? 2 0 59 (← afterChar? [':'] s)
      let sign := if hours = 0 ∧ minutes = 0 then '+' else sign
      return (sign :: padded 2 hours ++ ':' :: padded 2 minutes, s)
    else some ([], s)
  | [] => some ([], s)

/-- The letter or space that leads from a date to a time. -/
def dateTimeSeparators : List Char := ['T', 't', ' ']

/-- A date, a date with a time, or a time. -/
def readDateTime? (s : List Char) : Option (List Char × List Char) :=
  match readDate? s with
  | none => readTime? s
  | some (date, rest) =>
    match (afterChar? dateTimeSeparators rest).bind readTime? with
    | none => some (date, rest)
    | some (time, rest) =>
      (readOffset? rest).map fun (offset, rest) => (date ++ 'T' :: time ++ offset, rest)

end Toml
end FancyTokens
