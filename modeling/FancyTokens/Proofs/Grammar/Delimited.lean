import FancyTokens.Proofs.Regex.Inversion

/-!
# Literals between delimiters

A regular expression stands between two delimiters, and so does the first half of a substitution.
What stands between them is read in units (`IsUnit`), so that an escaped delimiter ends nothing. The
rules of Fancy for such texts share one form of pattern (`Regex.delimited`), and what a pattern of
this form takes is one opening delimiter, some units, one closing delimiter and a tail
(`Regex.Takes.of_delimited`).
-/

namespace FancyTokens

/-! ## Texts -/

/-- A unit of the text between delimiters: a backslash with the character that it escapes, or any
other character but the closing delimiter. A backslash that is the delimiter escapes only itself. -/
inductive IsUnit (closer : Char) : List Char → Prop
  | escaped {c} : (closer = '\\' → c = '\\') → IsUnit closer ['\\', c]
  | plain {c} : c ≠ closer → c ≠ '\\' → IsUnit closer [c]

/-- Some units in a row. -/
def IsBody (closer : Char) (w : List Char) : Prop :=
  ∃ units : List (List Char), w = units.flatten ∧ ∀ u ∈ units, IsUnit closer u

/-- The delimiters of a regular expression, opening and closing. -/
def literalDelimiters : List (Char × Char) := [
  ('/', '/'), ('!', '!'), ('\\', '\\'), ('{', '}'), ('<', '>'), ('[', ']'), ('(', ')'),
  ('@', '@'), ('%', '%'), ('$', '$')]

/-- The letters that may stand behind a regular expression. -/
def literalFlags : List Char :=
  ['e', 'g', 'i', 'm', 'o', 's', 'x']

/-- One regular expression between delimiters, with its flags. -/
def IsLiteral (w : List Char) : Prop :=
  ∃ opener closer body flags, (opener, closer) ∈ literalDelimiters ∧ IsBody closer body ∧
    (∀ c ∈ flags, c ∈ literalFlags) ∧ w = opener :: body ++ closer :: flags

/-- The delimiters of the first half of a substitution. -/
def substitutionDelimiters : List (Char × Char) :=
  [('{', '}'), ('<', '>'), ('[', ']'), ('(', ')')]

/-- What announces a regular expression: the letter before it, or the first half of a substitution
with the white space behind it. -/
def IsOpener (w : List Char) : Prop :=
  w = ['m'] ∨ ∃ opener closer body blanks, (opener, closer) ∈ substitutionDelimiters ∧
    IsBody closer body ∧ (∀ c ∈ blanks, isBlank c = true) ∧
    w = 's' :: opener :: body ++ closer :: blanks

/-! ## Patterns -/

namespace Regex

/-- The expression for a unit. -/
def unit (closer : Char) : Regex :=
  let escaped : Regex := .seq (.char '\\') (.char '\\')
  if closer = '\\' then .alt escaped (.one (.ofChars true ['\\']))
  else .alt escaped (.alt (.seq (.char '\\') (.one (.ofChars true ['\\'])))
    (.one (.ofChars true [closer, '\\'])))

/-- The expression for a text between delimiters and a tail. -/
def delimited (opener closer : Char) (tail : Regex) : Regex :=
  .seq (.char opener) (.seq (.star true (.group 0 (unit closer))) (.seq (.char closer) tail))

variable {opener closer : Char} {before : Option Char} {w behind : List Char}

theorem Takes.isUnit (h : Takes (unit closer) before w behind) : IsUnit closer w := by
  unfold unit at h
  dsimp only at h
  -- two backslashes are a unit whatever the delimiter is
  have pair {before w behind} (h : Takes (.seq (.char '\\') (.char '\\')) before w behind) :
      IsUnit closer w := by
    cases h with
    | seq first second =>
      rw [of_char first, of_char second]
      exact .escaped fun _ => rfl
  split at h
  -- where the backslash is the delimiter, there is no other escape
  case isTrue backslash =>
    cases h with
    | altLeft h => exact pair h
    | altRight h =>
      obtain ⟨c, other, rfl⟩ := of_noneOf h
      rw [List.mem_singleton] at other
      exact .plain (backslash ▸ other) other
  case isFalse different =>
    cases h with
    | altLeft h => exact pair h
    | altRight h =>
      cases h with
      | altLeft h =>
        cases h with
        | seq first second =>
          obtain ⟨c, -, rfl⟩ := of_noneOf second
          rw [of_char first]
          exact .escaped fun backslash => absurd backslash different
      | altRight h =>
        obtain ⟨c, other, rfl⟩ := of_noneOf h
        rw [List.mem_cons, List.mem_singleton, not_or] at other
        exact .plain other.1 other.2

/-- What stands between delimiters is made of units, and the tail stands behind them. -/
theorem Takes.of_delimited {tail : Regex}
    (h : Takes (delimited opener closer tail) before w behind) :
    ∃ body v, w = opener :: body ++ closer :: v ∧ IsBody closer body ∧
      ∃ before, Takes tail before v behind := by
  cases h with
  | seq first h =>
    cases h with
    | seq units h =>
      cases h with
      | seq last rest =>
        obtain ⟨parts, rfl, all⟩ := units.exists_flatten_of_star
        rw [of_char first, of_char last]
        refine ⟨parts.flatten, _, rfl, ⟨parts, rfl, fun u mem => ?_⟩, _, rest⟩
        obtain ⟨_, _, takes⟩ := all u mem
        -- the group around a unit only records it
        cases takes with
        | group takes => exact takes.isUnit

end Regex

/-- The pattern of a regular expression between delimiters. -/
def literalPattern (delimiters : Char × Char) : Pattern :=
  ⟨.seq .textStart (.delimited delimiters.1 delimiters.2
    (.star true (.one (.ofChars false literalFlags)))), 1⟩

/-- The pattern of the first half of a substitution. -/
def substitutionPattern (delimiters : Char × Char) : Pattern :=
  ⟨.seq .textStart (.seq (.char 's') (.delimited delimiters.1 delimiters.2
    (.star true (.one (.ofNamed .blank false))))), 1⟩

/-- The pattern of the letter before a regular expression. -/
def letterPattern : Pattern :=
  ⟨.seq .textStart (.char 'm'), 0⟩

variable {delimiters : Char × Char} {w behind : List Char}

theorem isLiteral_of_takes (mem : delimiters ∈ literalDelimiters)
    (h : (literalPattern delimiters).regex.Takes none w behind) : IsLiteral w := by
  obtain ⟨body, flags, rfl, isBody, _, tail⟩ := h.of_textStart_seq.of_delimited
  refine ⟨_, _, body, flags, mem, isBody, fun c memFlags => ?_, rfl⟩
  simpa using CharClass.covers_ofChars.1 (tail.covers_of_star_one c memFlags)

theorem isOpener_of_takes (mem : delimiters ∈ substitutionDelimiters)
    (h : (substitutionPattern delimiters).regex.Takes none w behind) : IsOpener w := by
  cases h.of_textStart_seq with
  | seq letter half =>
    obtain ⟨body, blanks, rfl, isBody, _, tail⟩ := half.of_delimited
    rw [letter.of_char]
    refine .inr ⟨_, _, body, blanks, mem, isBody, fun c memBlanks => ?_, rfl⟩
    simpa [CharClass.covers, CharClass.ofNamed, ClassItem.covers, NamedClass.covers] using
      tail.covers_of_star_one c memBlanks

theorem isOpener_of_takes_letter (h : letterPattern.regex.Takes none w behind) : IsOpener w :=
  .inl h.of_textStart_seq.of_char

end FancyTokens
