import FancyTokens.Grammar.Rule

/-!
# The grammar of Fancy

In the mode `root` stands ordinary source. An opener of a regular expression (an `m` before a
delimiter, or the pattern half of a substitution) leads into the mode `balancedRegex`, which takes
one delimited literal and leaves again.

The order of the rules decides: regular expressions come before all that could take a slash, words
with a meaning before plain names, labels before operators, and operators before punctuation. The
rules for whole numbers take the white space behind the number and a slash or question mark after
it as tokens of their own, so that a division never opens a regular expression.
-/
namespace FancyTokens

open RuleDef

/-- The classes that every program knows. -/
def builtinNames : List String := [
  "Object", "Array", "Hash", "Directory", "File", "Class", "String", "Number", "Enumerable",
  "FancyEnumerable", "Block", "TrueClass", "NilClass", "FalseClass", "Tuple", "Symbol", "Stack",
  "Set", "FancySpec", "Method", "Package", "Range"]

/-- The parts of a number: its digits, the white space behind it, and an operator. -/
def numberParts (digits : Category) : List Category :=
  [digits, .whitespace, .operator]

/-- The rules for ordinary source. -/
def rootRules : List RuleDef := [
  whole "whitespace" r"\s+" .whitespace,
  (whole "substitution-brace" "s\\\x7b(\\\\\\\\|\\\\[^\\\\]|[^\x7d\\\\])*\\\x7d\\s*" .regex).push
    .balancedRegex,
  (whole "substitution-angle" r"s<(\\\\|\\[^\\]|[^>\\])*>\s*" .regex).push .balancedRegex,
  (whole "substitution-bracket" r"s\[(\\\\|\\[^\\]|[^\]\\])*\]\s*" .regex).push .balancedRegex,
  (whole "substitution-paren" r"s\((\\\\|\\[^\\]|[^)\\])*\)\s*" .regex).push .balancedRegex,
  whole "regex-slash" r"m?/(\\\\|\\[^\\]|[^/\\\n])*/[gcimosx]*" .regex,
  ((whole "regex-open" r"m" .regex).before "[/!\\\\\x7b<\\[(@%$]").push .balancedRegex,
  whole "comment" r"#[^\n]*(?:\n|\z)" .lineComment,
  whole "symbol" "'([^'\\s\\[\\]()\x7b\x7d,]+|\\[\\])" .symbol,
  whole "string-triple" "\"\"\"(\\\\\\\\|\\\\[^\\\\]|[^\\\\])*?\"\"\"" .string,
  whole "string" "\"(\\\\\\\\|\\\\[^\\\\]|[^\"\\\\])*\"" .string,
  whole "keyword" r"(def|class|try|catch|finally|retry|return|return_local|match|case)\b|->|=>"
    .keyword,
  whole "constant" r"(self|super|nil|false|true)\b" .constant,
  whole "builtin" ("(" ++ "|".intercalate builtinNames ++ r")\b") .builtin,
  whole "function" r"[a-zA-Z]([a-zA-Z0-9_]|[-+?!=*/^><%])*:" .function,
  whole "operator" r"[-+*/~,<>=&!?%^\[\]]+" .operator,
  whole "punctuation" "[()\x7b\x7d;,/?|:\\\\]" .punctuation,
  whole "constant-name" r"[A-Z][a-zA-Z0-9_]*" .constant,
  whole "instance-variable" r"@[a-zA-Z_][a-zA-Z0-9_]*" .instanceVariable,
  whole "class-variable" r"@@[a-zA-Z_][a-zA-Z0-9_]*" .classVariable,
  whole "sigil" r"@@?" .operator,
  whole "identifier" r"[a-zA-Z_][a-zA-Z0-9_]*" .name,
  byGroups "octal" r"(0[oO]?[0-7]+(?:_[0-7]+)*)(\s*)([/?])?" (numberParts .octal),
  byGroups "hex" r"(0[xX][0-9A-Fa-f]+(?:_[0-9A-Fa-f]+)*)(\s*)([/?])?" (numberParts .hexadecimal),
  byGroups "binary" r"(0[bB][01]+(?:_[01]+)*)(\s*)([/?])?" (numberParts .binary),
  byGroups "integer" r"(\d+(?:_\d+)*)(\s*)([/?])?" (numberParts .integer),
  whole "float" r"(\d+\.?\d*|\d*\.\d+)([eE][+-]?[0-9]+)?" .float,
  whole "integer-plain" r"\d+" .integer]

/-- The rules for a literal between delimiters, each of which ends the mode. -/
def balancedRegexRules : List RuleDef := [
  (whole "slash" r"/(\\\\|\\[^\\]|[^/\\])*/[egimosx]*" .regex).pop,
  (whole "bang" r"!(\\\\|\\[^\\]|[^!\\])*![egimosx]*" .regex).pop,
  (whole "backslash" r"\\(\\\\|[^\\])*\\[egimosx]*" .regex).pop,
  (whole "brace" "\\\x7b(\\\\\\\\|\\\\[^\\\\]|[^\x7d\\\\])*\\\x7d[egimosx]*" .regex).pop,
  (whole "angle" r"<(\\\\|\\[^\\]|[^>\\])*>[egimosx]*" .regex).pop,
  (whole "bracket" r"\[(\\\\|\\[^\\]|[^\]\\])*\][egimosx]*" .regex).pop,
  (whole "paren" r"\((\\\\|\\[^\\]|[^)\\])*\)[egimosx]*" .regex).pop,
  (whole "at" r"@(\\\\|\\[^\\]|[^@\\])*@[egimosx]*" .regex).pop,
  (whole "percent" r"%(\\\\|\\[^\\]|[^%\\])*%[egimosx]*" .regex).pop,
  (whole "dollar" r"\$(\\\\|\\[^\\]|[^$\\])*\$[egimosx]*" .regex).pop]

/-- The grammar of Fancy. -/
def fancyGrammar : List (Mode × List RuleDef) :=
  [(.root, rootRules), (.balancedRegex, balancedRegexRules)]

/-- The rules of Fancy, ready to be tried. -/
def fancyTable : RuleTable :=
  (RuleTable.compile? fancyGrammar).getD .empty

end FancyTokens
