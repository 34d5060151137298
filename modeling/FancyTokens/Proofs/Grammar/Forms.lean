import FancyTokens.Proofs.Grammar.Fancy
import FancyTokens.Proofs.Grammar.Words

/-!
# The patterns of ordinary source

The expressions that the patterns of `rootRules` are read as, in the order of the rules
(`rootForms`). The patterns are read here once (`map_form_rules_root`), and what a rule takes is
from then on a matter of its expression alone. As the first rule that matches wins, a rule is only
chosen where the rules before it take no beginning of the text (`not_takes_of_choose`).
-/

namespace FancyTokens

/-! ## Words and characters -/

/-- The words with a meaning of their own. -/
def keywordNames : List String :=
  ["def", "class", "try", "catch", "finally", "retry", "return", "return_local", "match", "case"]

/-- The words for values. -/
def constantNames : List String :=
  ["self", "super", "nil", "false", "true"]

/-- The characters of operators. -/
def operatorChars : List Char :=
  ['-', '+', '*', '/', '~', ',', '<', '>', '=', '&', '!', '?', '%', '^', '[', ']']

/-- The characters of the rule for punctuation. -/
def punctuationChars : List Char :=
  ['(', ')', '\x7b', '\x7d', ';', ',', '/', '?', '|', ':', '\\']

/-- The characters that may stand in the name of a function besides those of any name. -/
def functionMarks : List Char :=
  ['-', '+', '?', '!', '=', '*', '/', '^', '>', '<', '%']

/-- The letters that may stand behind a regular expression between slashes. -/
def slashFlags : List Char :=
  ['g', 'c', 'i', 'm', 'o', 's', 'x']

namespace CharClass

def blanks : CharClass :=
  .ofNamed .blank false

def decimalDigits : CharClass :=
  .ofNamed .digit false

def octalDigits : CharClass :=
  ⟨false, [.range '0' '7']⟩

def hexadecimalDigits : CharClass :=
  ⟨false, [.range '0' '9', .range 'A' 'F', .range 'a' 'f']⟩

def asciiDigits : CharClass :=
  ⟨false, [.range '0' '9']⟩

/-- The characters of which a symbol is made. -/
def symbolParts : CharClass :=
  ⟨true, [.range '\'' '\'', .named .blank false, .range '[' '[', .range ']' ']', .range '(' '(',
    .range ')' ')', .range '\x7b' '\x7b', .range '\x7d' '\x7d', .range ',' ',']⟩

end CharClass

/-! ## Patterns -/

namespace Regex

/-- One of some characters. -/
def oneOf (cs : List Char) : Regex :=
  .one (.ofChars false cs)

/-- At most one occurrence, preferably one. -/
def maybe (r : Regex) : Regex :=
  .alt r .empty

/-- A regular expression between slashes. -/
def slashLiteral : Regex :=
  .seq (maybe (.char 'm')) (.seq (.char '/') (.seq (escaped true ['/', '\\', '\n'])
    (.seq (.char '/') (.star true (oneOf slashFlags)))))

/-- A comment up to the end of its line. -/
def comment : Regex :=
  .seq (.char '#') (.seq (.star true (.one (.ofChars true ['\n']))) (.alt (.char '\n') .textEnd))

def symbol : Regex :=
  .seq (.char '\'') (.group 0 (.alt (.plus true (.one .symbolParts)) (literal ['[', ']'])))

/-- A string between three quotation marks on each side. -/
def tripleString : Regex :=
  .seq (.char '"') (.seq (.char '"') (.seq (.char '"')
    (.seq (escaped false ['\\']) (literal ['"', '"', '"']))))

def string : Regex :=
  .seq (.char '"') (.seq (escaped true ['"', '\\']) (.char '"'))

def keyword : Regex :=
  .alt (wholeWord (keywordNames.map String.toList)) (.alt (literal ['-', '>']) (literal ['=', '>']))

/-- The name of a function with its colon. -/
def function : Regex :=
  .seq (.one .letters) (.seq (.star true (.group 0 (.alt (.one .nameParts) (oneOf functionMarks))))
    (.char ':'))

def octal : Regex :=
  .seq (.char '0') (.seq (maybe (oneOf ['o', 'O'])) (grouped .octalDigits))

def hexadecimal : Regex :=
  .seq (.char '0') (.seq (oneOf ['x', 'X']) (grouped .hexadecimalDigits))

def binary : Regex :=
  .seq (.char '0') (.seq (oneOf ['b', 'B']) (grouped (.ofChars false ['0', '1'])))

/-- Digits with a point in them, or before them, or none. -/
def pointed : Regex :=
  .alt (.seq (.plus true (.one .decimalDigits))
      (.seq (maybe (.char '.')) (.star true (.one .decimalDigits))))
    (.seq (.star true (.one .decimalDigits))
      (.seq (.char '.') (.plus true (.one .decimalDigits))))

/-- The exponent of a number. -/
def exponent : Regex :=
  .seq (oneOf ['e', 'E']) (.seq (maybe (oneOf ['+', '-'])) (.plus true (.one .asciiDigits)))

def float : Regex :=
  .seq (.group 0 pointed) (maybe (.group 1 exponent))

/-- A number with what may stand behind it, each in a group of its own. -/
def suffixed (digits : Regex) : Regex :=
  .seq (.group 0 digits) (.seq (.group 1 (.star true (.one .blanks)))
    (maybe (.group 2 (oneOf ['/', '?']))))

end Regex

/-- The pattern of an expression with some groups, which is tried at the start of the text only. -/
def anchoredPattern (r : Regex) (groups : Nat) : Pattern :=
  ⟨.seq .textStart r, groups⟩

/-- The pattern of a number with what may stand behind it. -/
def numberPattern (digits : Regex) : Pattern :=
  anchoredPattern (.suffixed digits) 3

/-- What a rule takes, and what it does with it. -/
structure Form where
  action : Action
  pattern : Pattern
  lookahead : Option Pattern := none
deriving DecidableEq

/-- The form of a rule. -/
def Rule.form (rule : Rule) : Form :=
  ⟨rule.action, rule.pattern, rule.lookahead⟩

/-- The form of a rule that gives one token for what an expression with some groups takes. -/
def Form.whole (category : Category) (r : Regex) (groups : Nat := 0) : Form :=
  ⟨.whole category, anchoredPattern r groups, none⟩

/-- The form of a rule for numbers. -/
def Form.number (category : Category) (digits : Regex) : Form :=
  ⟨.byGroups (numberParts category), numberPattern digits, none⟩

/-- The forms of the rules for ordinary source, in their order. -/
def rootForms : List Form := [
  .whole .whitespace (.plus true (.one .blanks)),
  ⟨.whole .regex, substitutionPattern ('\x7b', '\x7d'), none⟩,
  ⟨.whole .regex, substitutionPattern ('<', '>'), none⟩,
  ⟨.whole .regex, substitutionPattern ('[', ']'), none⟩,
  ⟨.whole .regex, substitutionPattern ('(', ')'), none⟩,
  .whole .regex .slashLiteral 1,
  ⟨.whole .regex, letterPattern,
    some (anchoredPattern (.oneOf ['/', '!', '\\', '\x7b', '<', '[', '(', '@', '%', '$']) 0)⟩,
  .whole .lineComment .comment,
  .whole .symbol .symbol 1,
  .whole .string .tripleString 1,
  .whole .string .string 1,
  .whole .keyword .keyword 1,
  .whole .constant (.wholeWord (constantNames.map String.toList)) 1,
  .whole .builtin (.wholeWord (builtinNames.map String.toList)) 1,
  .whole .function .function 1,
  .whole .operator (.plus true (.oneOf operatorChars)),
  .whole .punctuation (.oneOf punctuationChars),
  .whole .constant (.name .capitals),
  .whole .instanceVariable (.seq (.char '@') (.name .nameStarts)),
  .whole .classVariable (.seq (.char '@') (.seq (.char '@') (.name .nameStarts))),
  .whole .operator (.seq (.char '@') (.maybe (.char '@'))),
  .whole .name (.name .nameStarts),
  .number .octal .octal,
  .number .hexadecimal .hexadecimal,
  .number .binary .binary,
  .number .integer (.grouped .decimalDigits),
  .whole .float .float 2,
  .whole .integer (.plus true (.one .decimalDigits))]

theorem map_compile?_rootRules :
    (rootRules.map fun d => (Rule.compile? d).map Rule.form) = rootForms.map some := by
  decide +kernel

theorem map_eq_of_mapM {α β : Type} {f : α → Option β} {l : List α} {l' : List β}
    (h : l.mapM f = some l') : l.map f = l'.map some := by
  induction l generalizing l' with
  | nil =>
    cases h
    rfl
  | cons a l ih =>
    rw [List.mapM_cons] at h
    obtain ⟨b, first, h⟩ := Option.bind_eq_some_iff.1 h
    obtain ⟨bs, more, h⟩ := Option.bind_eq_some_iff.1 h
    cases h
    rw [List.map_cons, List.map_cons, first, ih more]

/-- Compiled rules have the forms that their definitions are read as. -/
theorem map_form_of_mapM {defs : List RuleDef} {rules : List Rule} {forms : List Form}
    (h : defs.mapM Rule.compile? = some rules)
    (read : (defs.map fun d => (Rule.compile? d).map Rule.form) = forms.map some) :
    rules.map Rule.form = forms := by
  have compiled := congrArg (List.map (Option.map Rule.form)) (map_eq_of_mapM h)
  rw [List.map_map, List.map_map] at compiled
  have same : rules.map (some ∘ Rule.form) = forms.map some := compiled.symm.trans read
  rw [← List.map_map] at same
  exact (List.map_inj_right fun _ _ => Option.some.inj).1 same

/-- The rules for ordinary source have these forms. -/
theorem map_form_rules_root : (fancyTable.rules .root).map Rule.form = rootForms :=
  map_form_of_mapM mapM_rootRules map_compile?_rootRules

/-! ## Order of the rules -/

/-- The rules at the first places miss if a rule of a later form is chosen. -/
theorem missed_of_choose {n : Nat} {s : List Char} {rule : Rule} {m : RuleMatch}
    (chosen : choose (fancyTable.rules .root) s = .rule rule m)
    (later : rule.form ∉ rootForms.take n) :
    ∀ r ∈ (fancyTable.rules .root).take n, r.attempt s = .missed := by
  have anchored : ∀ r ∈ (fancyTable.rules .root).take n, r.pattern.Anchored :=
    fun r mem => fancyTable_anchored .root r (List.mem_of_mem_take mem)
  rw [← List.take_append_drop n (fancyTable.rules .root)] at chosen
  cases early : choose ((fancyTable.rules .root).take n) s with
  | nothing => exact choose_eq_nothing_iff.1 early
  | torn =>
    obtain ⟨r, mem, torn⟩ := exists_of_choose_eq_torn early
    exact absurd torn (Rule.attempt_ne_torn (anchored r mem))
  | rule r m' =>
    -- a rule that matches at the first places would be chosen
    rw [choose_append _ early] at chosen
    cases chosen
    refine absurd ?_ later
    rw [← map_form_rules_root, ← List.map_take]
    exact List.mem_map_of_mem (mem_of_choose early).1

/-- A rule that asks for nothing behind it does not miss what its expression takes. -/
theorem Rule.attempt_ne_missed {rule : Rule} {action : Action} {r : Regex} {groups : Nat}
    (form : rule.form = ⟨action, anchoredPattern r groups, none⟩) (advances : r.loopsAdvance = true)
    (nonempty : r.nullable = false) {w rest : List Char} (takes : r.Takes none w rest) :
    rule.attempt (w ++ rest) ≠ .missed := by
  have pattern : rule.pattern = anchoredPattern r groups := congrArg Form.pattern form
  have alone : rule.lookahead = none := congrArg Form.lookahead form
  have anchored : rule.pattern.regex.anchored = true := by
    rw [pattern]
    rfl
  have takes' : rule.pattern.regex.Takes none w rest := by
    rw [pattern]
    exact .seq (u := []) .textStart takes
  obtain ⟨found, search⟩ := Option.isSome_iff_exists.1
    (Pattern.isSome_search?_of_takes anchored (by rw [pattern]; exact advances) takes')
  obtain ⟨u, v, -, fits, first⟩ := Pattern.fits_of_search?
    (Pattern.anchored_of_regex anchored _ _ search) search
  have consumed : rule.consumed found ≠ 0 := by
    rw [pattern] at first
    rw [Rule.consumed_of_fits fits]
    exact mt byteLength_eq_zero_iff.1 (first.of_textStart_seq.ne_nil nonempty)
  rw [attempt, search]
  dsimp only
  rw [if_neg consumed, alone]
  intro missed
  cases missed

/-- What the form at some place takes, no rule of a later form is chosen for. -/
theorem not_takes_of_choose {n : Nat} {action : Action} {r : Regex} {groups : Nat}
    (place : rootForms[n]? = some ⟨action, anchoredPattern r groups, none⟩)
    (advances : r.loopsAdvance = true) (nonempty : r.nullable = false)
    {s : List Char} {rule : Rule} {m : RuleMatch}
    (chosen : choose (fancyTable.rules .root) s = .rule rule m)
    (later : rule.form ∉ rootForms.take (n + 1)) {w rest : List Char} (eq : s = w ++ rest) :
    ¬ r.Takes none w rest := by
  intro takes
  have form : ((fancyTable.rules .root)[n]?).map Rule.form =
      some ⟨action, anchoredPattern r groups, none⟩ := by
    rw [← List.getElem?_map, map_form_rules_root, place]
  obtain ⟨rule', place', form⟩ := Option.map_eq_some_iff.1 form
  have missed : rule'.attempt s = .missed := by
    refine missed_of_choose chosen later rule' (List.mem_of_getElem? (i := n) ?_)
    rw [List.getElem?_take_of_lt (Nat.lt_succ_self n), place']
  exact Rule.attempt_ne_missed form advances nonempty takes (eq ▸ missed)

end FancyTokens
