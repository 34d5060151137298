import FancyTokens.Text.Numeral
import FancyTokens.Yaml.Resolution

/-!
# Scalars of a YAML document

A text is written in one of four styles: plain, in single quotation marks, in double quotation
marks, or as a block of lines. The style is the first of these that the characters of the text and
its form admit.
-/
namespace FancyTokens
namespace Yaml

/-! ## Characters -/

/-- The character ends a line. -/
def isBreak (c : Char) : Bool :=
  c = '\r' || c = '\n' || c = '\u0085' || c = '\u2028' || c = '\u2029'

/-- The character may be written as itself. -/
def isOrdinary (c : Char) : Bool :=
  c = '\n' || (' ' ≤ c && c ≤ '~') ||
    ('\u00a0' ≤ c && c != '\ufeff' && c.toNat != 0xFFFE && c.toNat != 0xFFFF)

/-- A space, a tab or the end of a line or of the text. -/
def isGap (c : Option Char) : Bool :=
  c.all fun c => c = ' ' || c = '\t' || isBreak c

/-- The characters with which a plain scalar never starts. -/
def isIndicator (c : Char) : Bool :=
  ['#', ',', '[', ']', '{', '}', '&', '*', '!', '|', '>', '\x27', '"', '%', '@', '\x60'].contains c

/-! ## Texts -/

/-- Two neighbours of a text have a property. -/
def anyPair (p : Char → Char → Bool) : List Char → Bool
  | c :: d :: s => p c d || anyPair p (d :: s)
  | _ => false

/-- The text holds a space before a break. -/
def hasSpaceBeforeBreak (s : List Char) : Bool :=
  anyPair (fun c d => c = ' ' && isBreak d) s

/-- The text holds a break before a space. -/
def hasBreakBeforeSpace (s : List Char) : Bool :=
  anyPair (fun c d => isBreak c && d = ' ') s

/-- Behind its first character, the text holds a colon before a gap or a number sign behind one. -/
def hasInnerIndicator : List Char → Bool
  | [] => false
  | [_] => false
  | c :: d :: s =>
    (d = ':' && isGap s.head?) || (d = '#' && isGap (some c)) || hasInnerIndicator (d :: s)

/-- The text starts like something other than a scalar. -/
def hasLeadingIndicator : List Char → Bool
  | [] => false
  | c :: s =>
    isIndicator c || ((c = '-' || c = '?' || c = ':') && isGap s.head?) ||
      ("---".toList).isPrefixOf (c :: s) || ("...".toList).isPrefixOf (c :: s)

/-- The text starts or ends with a space or a break. -/
def hasLooseEnd (s : List Char) : Bool :=
  s.head?.any (fun c => c = ' ' || isBreak c) || s.getLast?.any fun c => c = ' ' || isBreak c

/-- The text can stand without quotation marks. -/
def allowsPlain (s : List Char) : Bool :=
  s.all isOrdinary && !s.any isBreak && !hasLooseEnd s && !hasLeadingIndicator s &&
    !hasInnerIndicator s

/-- The text can stand in single quotation marks. -/
def allowsSingle (s : List Char) : Bool :=
  s.all isOrdinary && !hasSpaceBeforeBreak s && !hasBreakBeforeSpace s

/-- The text can stand in a block. -/
def allowsBlock (s : List Char) : Bool :=
  s.all isOrdinary && !hasSpaceBeforeBreak s && s.getLast? != some ' '

/-! ## Styles -/

inductive Style
  | plain
  | single
  | double
  | block
deriving DecidableEq, Repr

/-- The style of a text. Only a text with a line feed becomes a block, and it never stands in
single quotation marks. -/
def style (s : List Char) : Style :=
  if s.contains '\n' then
    if allowsBlock s then .block else .double
  else if allowsPlain s && !isMistakable s then .plain
  else if allowsSingle s then .single
  else .double

/-! ## Writing -/

/-- The column to which the lines of a scalar are indented. -/
def indent : List Char := [' ', ' ', ' ', ' ']

/-- The lines of a text, each but the empty ones indented. `fresh` holds at the start of a line. -/
def indented (fresh : Bool) : List Char → List Char
  | [] => []
  | c :: s =>
    if isBreak c then c :: indented true s
    else (if fresh then indent else []) ++ c :: indented false s

/-- A text in single quotation marks, which are written twice inside. -/
def writeSingle (s : List Char) : List Char :=
  let inside := (indented false s).flatMap fun c => if c = '\x27' then [c, c] else [c]
  let closing := if s.getLast?.any isBreak then indent else []
  '\x27' :: inside ++ closing ++ ['\x27']

/-- The letter that stands for a character behind a backslash. -/
def escapeLetter? : Char → Option Char
  | '\x00' => some '0'
  | '\x07' => some 'a'
  | '\x08' => some 'b'
  | '\t' => some 't'
  | '\n' => some 'n'
  | '\x0b' => some 'v'
  | '\x0c' => some 'f'
  | '\r' => some 'r'
  | '\x1b' => some 'e'
  | '"' => some '"'
  | '\\' => some '\\'
  | '\u0085' => some 'N'
  | '\u2028' => some 'L'
  | '\u2029' => some 'P'
  | _ => none

/-- The code of a character in upper-case hexadecimal digits, with a letter for their number. -/
def codeEscape (c : Char) : List Char :=
  let digits := (hexadecimal c.toNat).map Char.toUpper
  if c.toNat ≤ 0xFF then 'x' :: padZeros 2 digits
  else if c.toNat ≤ 0xFFFF then 'u' :: padZeros 4 digits
  else 'U' :: padZeros 8 digits

/-- A character in double quotation marks. -/
def writeEscaped (c : Char) : List Char :=
  match escapeLetter? c with
  | some letter => ['\\', letter]
  | none => if isOrdinary c then [c] else '\\' :: codeEscape c

/-- A text in double quotation marks. -/
def writeDouble (s : List Char) : List Char :=
  '"' :: s.flatMap writeEscaped ++ ['"']

/-- How a block ends: without a break, with one, or with more than its lines would give it. -/
def chomping (s : List Char) : List Char :=
  match s.reverse with
  | [] => ['-']
  | [c] => if isBreak c then ['+'] else ['-']
  | c :: d :: _ => if isBreak c then if isBreak d then ['+'] else [] else ['-']

/-- The header of a block, which tells how far the lines are indented if the first one does not show
it. -/
def blockHeader (s : List Char) : List Char :=
  '|' :: (if s.head?.any fun c => c = ' ' || isBreak c then ['2'] else []) ++ chomping s

/-- A text as a block of lines. -/
def writeBlock (s : List Char) : List Char :=
  blockHeader s ++ '\n' :: indented true s

/-- A text and the end of its last line. -/
def writeLine (s : List Char) : List Char :=
  match style s with
  | .plain => s ++ ['\n']
  | .single => writeSingle s ++ ['\n']
  | .double => writeDouble s ++ ['\n']
  | .block => writeBlock s ++ if s.getLast?.any isBreak then [] else ['\n']

end Yaml
end FancyTokens
