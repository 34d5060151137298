import FancyTokens.Regex.Reader
import FancyTokens.Token

/-!
# Rules of a grammar

A grammar lists, for each mode of the scanner, the rules that apply in it. A rule says in its
definition what text it takes, which tokens this gives and how the mode changes; once its patterns
have been read it can be tried on a text.
-/
namespace FancyTokens

/-- What the scanner is in the middle of. -/
inductive Mode
  /-- Ordinary source. -/
  | root
  /-- A regular expression between delimiters is to follow. -/
  | balancedRegex
deriving DecidableEq, Repr

/-- The name of a mode. -/
def Mode.name : Mode → String
  | root => "root"
  | balancedRegex => "balanced-regex"

/-- The tokens that a rule gives. -/
inductive Action
  /-- One token for the whole match. -/
  | whole (category : Category)
  /-- A token for each group that matched, by the categories of the groups in order. -/
  | byGroups (categories : List Category)
deriving DecidableEq, Repr

/-- How a rule changes the mode. -/
inductive Transition
  | stay
  | push (mode : Mode)
  /-- Leaves the mode, unless it is the outermost one. -/
  | pop
deriving DecidableEq, Repr

/-- A rule as it stands in a grammar. -/
structure RuleDef where
  name : String
  pattern : String
  action : Action
  transition : Transition := .stay
  /-- A pattern that must match right behind the match. -/
  lookahead : Option String := none
deriving DecidableEq, Repr

namespace RuleDef

/-- A rule that gives one token. -/
def whole (name pattern : String) (category : Category) : RuleDef :=
  { name, pattern, action := .whole category }

/-- A rule that gives a token for each group. -/
def byGroups (name pattern : String) (categories : List Category) : RuleDef :=
  { name, pattern, action := .byGroups categories }

/-- The rule, entering a mode. -/
def push (rule : RuleDef) (mode : Mode) : RuleDef :=
  { rule with transition := .push mode }

/-- The rule, leaving the mode. -/
def pop (rule : RuleDef) : RuleDef :=
  { rule with transition := .pop }

/-- The rule, on the condition that a pattern matches behind it. -/
def before (rule : RuleDef) (lookahead : String) : RuleDef :=
  { rule with lookahead := some lookahead }

end RuleDef

/-- A rule whose patterns have been read. -/
structure Rule where
  name : String
  /-- The pattern as it stands in the grammar. -/
  source : String
  pattern : Pattern
  lookahead : Option Pattern
  action : Action
  transition : Transition
deriving DecidableEq, Repr

/-- A match of a rule, with the number of bytes that it consumes. -/
structure RuleMatch where
  found : Pattern.Found
  length : Nat
deriving DecidableEq, Repr

/-- The outcome of trying a rule. -/
inductive Attempt
  | missed
  /-- The text cannot be cut where the match says that it ends. -/
  | torn
  | matched (m : RuleMatch)
deriving DecidableEq, Repr

namespace Rule

/-- A rule out of its definition, if its patterns are well formed. -/
def compile? (rule : RuleDef) : Option Rule := do
  let pattern ← Pattern.readAnchored? rule.pattern.toList
  let lookahead ← match rule.lookahead with
    | none => some none
    | some lookahead => (Pattern.readAnchored? lookahead.toList).map some
  return ⟨rule.name, rule.pattern, pattern, lookahead, rule.action, rule.transition⟩

/-- The number of bytes that a match consumes: the size of its token, or all up to its end. -/
def consumed (rule : Rule) (found : Pattern.Found) : Nat :=
  match rule.action with
  | .whole _ => found.whole.stop - found.whole.start
  | .byGroups _ => found.whole.stop

/-- Tries a rule at the start of a text. A match of nothing does not count, and the lookahead sees
what remains as a text of its own. -/
def attempt (rule : Rule) (s : List Char) : Attempt :=
  match rule.pattern.search? s with
  | none => .missed
  | some found =>
    let length := rule.consumed found
    if length = 0 then .missed
    else match rule.lookahead with
      | none => .matched ⟨found, length⟩
      | some lookahead =>
        match cut? s length with
        | none => .torn
        | some (_, after) =>
          if (lookahead.search? after).isSome then .matched ⟨found, length⟩ else .missed

end Rule

/-- The rules of each mode, in order of precedence. -/
structure RuleTable where
  rules : Mode → List Rule

namespace RuleTable

/-- The table without rules. -/
def empty : RuleTable :=
  ⟨fun _ => []⟩

/-- The table in which a mode has other rules. -/
def set (table : RuleTable) (mode : Mode) (rules : List Rule) : RuleTable :=
  ⟨fun m => if m = mode then rules else table.rules m⟩

/-- The table of a grammar. Of two entries for one mode the later one counts. -/
def compile? (grammar : List (Mode × List RuleDef)) : Option RuleTable :=
  grammar.foldlM (fun table (mode, rules) => (rules.mapM Rule.compile?).map (table.set mode)) empty

/-- The place of the first rule of a name. -/
def position? (table : RuleTable) (mode : Mode) (name : String) : Option Nat :=
  (table.rules mode).findIdx? (·.name == name)

end RuleTable

/-- What the rules of a mode make of a text. -/
inductive Choice
  /-- No rule matches. -/
  | nothing
  /-- The first rule that does not miss tears the text. -/
  | torn
  /-- The first rule that does not miss, and its match. -/
  | rule (rule : Rule) (m : RuleMatch)
deriving DecidableEq, Repr

/-- The first rule in order that matches wins, however long the matches of the others are. -/
def choose : List Rule → List Char → Choice
  | [], _ => .nothing
  | rule :: rules, s =>
    match rule.attempt s with
    | .missed => choose rules s
    | .torn => .torn
    | .matched m => .rule rule m

end FancyTokens
