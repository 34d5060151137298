import FancyTokens.Proofs.Grammar.Choice
import FancyTokens.Proofs.Grammar.Units

/-!
# Where delimited literals end

The rules for strings, for regular expressions between delimiters and for the first half of a
substitution, each with its delimiters (`delimitedRules`). Such a rule matches exactly the texts
that its delimiters open and close, and its match ends behind the first closing delimiter and the
tail (`literals_end_at_first_closer`).
-/

namespace FancyTokens

/-! ## Rules and their delimiters -/

/-- A rule for texts between delimiters. -/
structure DelimitedRule where
  mode : Mode
  name : String
  delimiters : Delimiters

namespace DelimitedRule

/-- A rule for the first half of a substitution. White space may stand behind it. -/
def substitution (name : String) (opener closer : Char) : DelimitedRule :=
  ⟨.root, name, { openers := [['s', opener]], closing := [[closer]], tail := isBlank }⟩

/-- A rule for a regular expression in a mode of its own. Letters may stand behind it. -/
def literal (name : String) (opener closer : Char) : DelimitedRule :=
  ⟨.balancedRegex, name,
    { openers := [[opener]], closing := [[closer]], tail := (· ∈ literalFlags) }⟩

/-- The rule for a regular expression between slashes, which ends in its line unless the line break
is escaped. -/
def slash : DelimitedRule :=
  ⟨.root, "regex-slash", {
    openers := [['/'], ['m', '/']], closing := [['/']], barred := [['\n']],
    tail := (· ∈ slashFlags) }⟩

def tripleString : DelimitedRule :=
  ⟨.root, "string-triple",
    { openers := [['"', '"', '"']], closing := [['"'], ['"'], ['"']] }⟩

def string : DelimitedRule :=
  ⟨.root, "string", { openers := [['"']], closing := [['"']] }⟩

end DelimitedRule

open DelimitedRule in
/-- The rules for texts between delimiters, but for the one of which the delimiter is a
backslash. -/
def delimitedRules : List DelimitedRule := [
  substitution "substitution-brace" '\x7b' '\x7d', substitution "substitution-angle" '<' '>',
  substitution "substitution-bracket" '[' ']', substitution "substitution-paren" '(' ')',
  slash, tripleString, string,
  literal "slash" '/' '/', literal "bang" '!' '!', literal "brace" '\x7b' '\x7d',
  literal "angle" '<' '>', literal "bracket" '[' ']', literal "paren" '(' ')',
  literal "at" '@' '@', literal "percent" '%' '%', literal "dollar" '$' '$']

/-! ## Their expressions -/

namespace Regex

variable {d : Delimiters} {opener : List Char} {closer : Char} {tail : CharClass}

/-- What stands behind an escaped text: the closing delimiter, and all characters of the tail. -/
theorem prefers_closer (covers : ∀ c, tail.covers c = d.tail c) (before : Option Char)
    (v : List Char) : Prefers (.seq (.char closer) (.star true (.one tail))) before
      (closer :: v.takeWhile d.tail) (v.dropWhile d.tail) :=
  .char_seq (prefers_star_takeWhile covers (some closer) v)

theorem delimits_delimited (opens : d.openers = [opener]) (closing : d.closing = [[closer]])
    (open_ended : d.barred = []) (covers : ∀ c, tail.covers c = d.tail c)
    (other : closer ≠ '\\') :
    (behindText opener (.seq (escaped true [closer, '\\'])
      (.seq (.char closer) (.star true (.one tail))))).Delimits d := by
  refine Encloses.behindText ?_ opens
  refine encloses_escaped [] closing open_ended other List.not_mem_nil (by simp) ?_
    (prefers_closer covers)
  intro before w behind takes
  obtain ⟨v, rfl, -⟩ := takes.exists_of_char_seq
  exact ⟨v, rfl⟩

/-- Where the closing delimiter is not a backslash, the units between delimiters are those of other
escaped texts. -/
theorem delimited_eq (opener : Char) (other : closer ≠ '\\') (tail : Regex) :
    delimited opener closer tail =
      behindText [opener] (.seq (escaped true [closer, '\\']) (.seq (.char closer) tail)) := by
  have same : unit closer = escapedUnit [closer, '\\'] := if_neg other
  rw [delimited, same]
  rfl

theorem delimits_slashLiteral : slashLiteral.Delimits DelimitedRule.slash.delimiters := by
  refine Encloses.behindMaybe ?_ (by decide) rfl
  refine encloses_escaped ['\n'] rfl rfl (by decide) (by decide) (by simp) ?_
    (prefers_closer (CharClass.covers_ofChars_false slashFlags))
  intro before w behind takes
  obtain ⟨v, rfl, -⟩ := takes.exists_of_char_seq
  exact ⟨v, rfl⟩

theorem delimits_tripleString : tripleString.Delimits DelimitedRule.tripleString.delimiters := by
  refine Encloses.behindText (s := ['"', '"', '"']) ?_ rfl
  exact encloses_lazy ['"', '"', '"'] rfl rfl rfl (by simp) (by simp)

theorem delimits_string : string.Delimits DelimitedRule.string.delimiters := by
  refine Encloses.behindText (s := ['"']) ?_ rfl
  refine encloses_escaped [] rfl rfl (by decide) List.not_mem_nil (by simp) ?_ ?_
  · exact fun takes => ⟨[], takes.of_char⟩
  · intro before v
    -- there is no tail
    have none_left : v.takeWhile DelimitedRule.string.delimiters.tail = [] := by
      cases v <;> rfl
    rw [none_left]
    exact prefers_char '"'

end Regex

/-! ## Their forms -/

/-- The form is for an expression that takes texts between some delimiters, and asks for nothing
behind it. -/
def Form.Delimits (form : Form) (d : Delimiters) : Prop :=
  ∃ r groups, form.pattern = anchoredPattern r groups ∧ form.lookahead = none ∧ r.Delimits d

theorem delimits_substitution (name : String) (opener : Char) {closer : Char}
    (other : closer ≠ '\\') :
    (Form.mk (.whole .regex) (substitutionPattern (opener, closer)) none).Delimits
      (DelimitedRule.substitution name opener closer).delimiters := by
  refine ⟨_, 1, ?_, rfl, Regex.delimits_delimited rfl rfl rfl CharClass.covers_blanks other⟩
  rw [substitutionPattern, Regex.delimited_eq _ other]
  rfl

theorem delimits_literal (name : String) (opener : Char) {closer : Char} (other : closer ≠ '\\') :
    (Form.mk (.whole .regex) (literalPattern (opener, closer)) none).Delimits
      (DelimitedRule.literal name opener closer).delimiters := by
  refine ⟨_, 1, ?_, rfl, Regex.delimits_delimited rfl rfl rfl
    (CharClass.covers_ofChars_false literalFlags) other⟩
  rw [literalPattern, Regex.delimited_eq _ other]
  rfl

/-- The rules of the table stand in the grammar, with forms for their delimiters. -/
theorem exists_form_of_mem_delimitedRules : ∀ entry ∈ delimitedRules,
    ∃ form, (entry.name, form) ∈ namedForms entry.mode ∧ form.Delimits entry.delimiters := by
  have substitution (n : Nat) {name : String} {opener closer : Char} (other : closer ≠ '\\')
      (place : (namedForms .root)[n]? =
        some (name, ⟨.whole .regex, substitutionPattern (opener, closer), none⟩)) :
      ∃ form, (name, form) ∈ namedForms .root ∧
        form.Delimits (DelimitedRule.substitution name opener closer).delimiters :=
    ⟨_, List.mem_of_getElem? place, delimits_substitution name opener other⟩
  have literal (n : Nat) {name : String} {opener closer : Char} (other : closer ≠ '\\')
      (place : (namedForms .balancedRegex)[n]? =
        some (name, ⟨.whole .regex, literalPattern (opener, closer), none⟩)) :
      ∃ form, (name, form) ∈ namedForms .balancedRegex ∧
        form.Delimits (DelimitedRule.literal name opener closer).delimiters :=
    ⟨_, List.mem_of_getElem? place, delimits_literal name opener other⟩
  have whole (n : Nat) {name : String} {category : Category} {r : Regex} {groups : Nat}
      {d : Delimiters} (delimits : r.Delimits d)
      (place : (namedForms .root)[n]? = some (name, .whole category r groups)) :
      ∃ form, (name, form) ∈ namedForms .root ∧ form.Delimits d :=
    ⟨_, List.mem_of_getElem? place, r, groups, rfl, rfl, delimits⟩
  simp only [delimitedRules, List.forall_mem_cons]
  and_intros
  · exact substitution 1 (by decide) rfl
  · exact substitution 2 (by decide) rfl
  · exact substitution 3 (by decide) rfl
  · exact substitution 4 (by decide) rfl
  · exact whole 5 Regex.delimits_slashLiteral rfl
  · exact whole 9 Regex.delimits_tripleString rfl
  · exact whole 10 Regex.delimits_string rfl
  · exact literal 0 (by decide) rfl
  · exact literal 1 (by decide) rfl
  · exact literal 3 (by decide) rfl
  · exact literal 4 (by decide) rfl
  · exact literal 5 (by decide) rfl
  · exact literal 6 (by decide) rfl
  · exact literal 7 (by decide) rfl
  · exact literal 8 (by decide) rfl
  · exact literal 9 (by decide) rfl
  · exact List.forall_mem_nil _

theorem nonempty_of_mem_delimitedRules : ∀ entry ∈ delimitedRules,
    entry.delimiters.closing ≠ [] ∧ ∀ opener ∈ entry.delimiters.openers, opener ≠ [] := by
  decide

/-! ## Matches -/

variable {mode : Mode} {rule : Rule} {d : Delimiters} {s w : List Char} {m : RuleMatch}

/-- A rule for texts between delimiters matches nothing but texts that are opened and closed. -/
theorem closed_of_attempt (mem : rule ∈ fancyTable.rules mode) (delimits : rule.form.Delimits d)
    (h : rule.attempt s = .matched m) : d.Closed s := by
  obtain ⟨r, groups, pattern, -, delimits⟩ := delimits
  obtain ⟨w, rest, rfl, -, -, -, takes⟩ :=
    Rule.fits_of_attempt (fancyTable_anchored mode rule mem) h
  change rule.pattern = _ at pattern
  rw [pattern] at takes
  exact delimits.closed takes.of_textStart_seq

theorem attempt_eq_missed_of_not_closed (mem : rule ∈ fancyTable.rules mode)
    (delimits : rule.form.Delimits d) (open_ended : ¬ d.Closed s) : rule.attempt s = .missed := by
  cases h : rule.attempt s with
  | missed => rfl
  | torn => exact absurd h (Rule.attempt_ne_torn (fancyTable_anchored mode rule mem))
  | matched m => exact absurd (closed_of_attempt mem delimits h) open_ended

/-- A rule for texts between delimiters matches such a text up to its end. -/
theorem exists_attempt_of_ends (mem : rule ∈ fancyTable.rules mode)
    (delimits : rule.form.Delimits d) (opens : ∀ opener ∈ d.openers, opener ≠ [])
    (ends : d.Ends s w) :
    ∃ m, rule.attempt s = .matched m ∧ m.length = byteLength w ∧ m.found.Fits w := by
  obtain ⟨r, groups, pattern, alone, delimits⟩ := delimits
  have nonempty : w ≠ [] := by
    obtain ⟨opener, memOpeners, t, v, -, -, rfl⟩ := ends
    exact List.append_ne_nil_of_left_ne_nil (opens opener memOpeners) v
  obtain ⟨rest, rfl, prefers⟩ := delimits.prefers ends
  exact Rule.exists_attempt_of_prefers mem alone pattern nonempty prefers

/-- Each rule for texts between delimiters matches exactly the texts that are opened and closed, up
to the first closing delimiter and with the whole tail behind it. -/
theorem literals_end_at_first_closer : ∀ entry ∈ delimitedRules,
    (∃ rule ∈ fancyTable.rules entry.mode, rule.name = entry.name) ∧
      ∀ rule ∈ fancyTable.rules entry.mode, rule.name = entry.name → ∀ s,
        ((∃ m, rule.attempt s = .matched m) ↔ entry.delimiters.Closed s) ∧
          ∀ m, rule.attempt s = .matched m → ∃ w, entry.delimiters.Ends s w ∧
            m.length = byteLength w ∧ m.found.whole = ⟨0, byteLength w⟩ := by
  intro entry memEntry
  obtain ⟨form, listed, delimits⟩ := exists_form_of_mem_delimitedRules entry memEntry
  obtain ⟨closing, opens⟩ := nonempty_of_mem_delimitedRules entry memEntry
  obtain ⟨rule, mem, named, -⟩ := exists_rule_of_mem_namedForms listed
  refine ⟨⟨rule, mem, named⟩, fun rule mem named s => ?_⟩
  rw [← form_of_name listed mem named] at delimits
  have attempt {w : List Char} (ends : entry.delimiters.Ends s w) :
      ∃ m, rule.attempt s = .matched m ∧ m.length = byteLength w ∧ m.found.Fits w :=
    exists_attempt_of_ends mem delimits opens ends
  refine ⟨⟨fun ⟨m, h⟩ => closed_of_attempt mem delimits h, fun closed => ?_⟩, fun m h => ?_⟩
  · obtain ⟨w, ends⟩ := closed.exists_ends closing
    obtain ⟨m, h, -⟩ := attempt ends
    exact ⟨m, h⟩
  · obtain ⟨w, ends⟩ := (closed_of_attempt mem delimits h).exists_ends closing
    obtain ⟨m', h', length, fits⟩ := attempt ends
    rw [h, Attempt.matched.injEq] at h'
    rw [h']
    exact ⟨w, ends, length, fits.whole⟩

/-- An escaped quotation mark does not end a string. -/
theorem literals_end_at_first_closer_string :
    ∃ rule ∈ fancyTable.rules .root, rule.name = "string" ∧
      ∃ m w, rule.attempt ['"', 'é', '\\', '"', '"', 'x', '"'] = .matched m ∧
        DelimitedRule.string.delimiters.Ends ['"', 'é', '\\', '"', '"', 'x', '"'] w ∧
        m.length = byteLength w := by
  have listed : DelimitedRule.string ∈ delimitedRules := List.mem_of_getElem? (i := 6) rfl
  have closed : DelimitedRule.string.delimiters.Closed ['"', 'é', '\\', '"', '"', 'x', '"'] :=
    ⟨['"'], List.mem_cons_self, _, rfl, [['é'], ['\\', '"']], [['x'], ['"']], rfl⟩
  obtain ⟨⟨rule, mem, named⟩, holds⟩ := literals_end_at_first_closer _ listed
  obtain ⟨matches_iff, ends⟩ := holds rule mem named ['"', 'é', '\\', '"', '"', 'x', '"']
  have mode : DelimitedRule.string.mode = .root := rfl
  rw [mode] at mem
  obtain ⟨m, h⟩ := matches_iff.2 closed
  obtain ⟨w, ends, length, -⟩ := ends m h
  exact ⟨rule, mem, named, m, w, h, ends, length⟩

end FancyTokens
