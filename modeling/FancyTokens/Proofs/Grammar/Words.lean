import FancyTokens.Proofs.Regex.Completeness
import FancyTokens.Proofs.Regex.Inversion

/-!
# Words, names, digits and escaped texts

The forms of text of which tokens are made, each with the expression for it in the patterns of a
grammar and the fact that the expression takes nothing else.
-/

namespace FancyTokens

variable {r : Regex} {set : CharClass} {greedy : Bool} {before : Option Char} {w behind : List Char}

/-! ## Characters of a class in a row -/

namespace Regex

theorem Takes.of_plus_one (h : Takes (.plus greedy (.one set)) before w behind) :
    w ≠ [] ∧ ∀ c ∈ w, set.covers c = true :=
  ⟨h.ne_nil rfl, h.star_of_plus.covers_of_star_one⟩

theorem Takes.of_optional (h : Takes (.alt r .empty) before w behind) :
    w = [] ∨ Takes r before w behind := by
  cases h with
  | altLeft h => exact Or.inr h
  | altRight h =>
    cases h
    exact Or.inl rfl

/-! ## Words -/

/-- The expression for one text. -/
def literal : List Char → Regex
  | [] => .empty
  | [c] => .char c
  | c :: s => .seq (.char c) (literal s)

theorem Takes.of_literal {s : List Char} (h : Takes (literal s) before w behind) : w = s := by
  induction s generalizing before w with
  | nil =>
    cases h
    rfl
  | cons c s ih =>
    cases s with
    | nil => exact of_char h
    | cons d s =>
      cases h with
      | seq first more =>
        rw [of_char first, ih more]
        rfl

/-- The expression for one of some texts. -/
def anyWord : List (List Char) → Regex
  | [] => .one ⟨false, []⟩
  | [s] => literal s
  | s :: words => .alt (literal s) (anyWord words)

theorem Takes.mem_of_anyWord {words : List (List Char)}
    (h : Takes (anyWord words) before w behind) : w ∈ words := by
  induction words with
  | nil =>
    obtain ⟨c, -, covered⟩ := of_one h
    cases covered
  | cons s words ih =>
    cases words with
    | nil => exact List.mem_singleton.2 (of_literal h)
    | cons t words =>
      cases h with
      | altLeft h => exact List.mem_cons.2 (Or.inl (of_literal h))
      | altRight h => exact List.mem_cons_of_mem s (ih h)

/-- The expression for one of some texts that ends where a word ends. -/
def wholeWord (words : List (List Char)) : Regex :=
  .seq (.group 0 (anyWord words)) (.wordBoundary false)

theorem Takes.mem_of_wholeWord {words : List (List Char)}
    (h : Takes (wholeWord words) before w behind) : w ∈ words := by
  cases h with
  | seq word boundary =>
    cases word with
    | group word =>
      cases boundary
      rw [List.append_nil]
      exact word.mem_of_anyWord

end Regex

/-! ## Names -/

/-- The character may start a name. -/
def isNameStart (c : Char) : Bool :=
  c.isAlpha || c = '_'

/-- The character may stand in a name. -/
def isNamePart (c : Char) : Bool :=
  c.isAlphanum || c = '_'

/-- The text is a name, of which the first character is one of some characters. -/
def IsName (first : Char → Bool) (w : List Char) : Prop :=
  ∃ c part, w = c :: part ∧ first c = true ∧ ∀ d ∈ part, isNamePart d = true

namespace CharClass

def letters : CharClass :=
  ⟨false, [.range 'a' 'z', .range 'A' 'Z']⟩

def capitals : CharClass :=
  ⟨false, [.range 'A' 'Z']⟩

def nameStarts : CharClass :=
  ⟨false, [.range 'a' 'z', .range 'A' 'Z', .range '_' '_']⟩

def nameParts : CharClass :=
  ⟨false, [.range 'a' 'z', .range 'A' 'Z', .range '0' '9', .range '_' '_']⟩

theorem range_covers_lower (c : Char) : (ClassItem.range 'a' 'z').covers c = c.isLower := rfl

theorem range_covers_upper (c : Char) : (ClassItem.range 'A' 'Z').covers c = c.isUpper :=
  (Bool.decide_and _ _).symm

theorem range_covers_digit (c : Char) : (ClassItem.range '0' '9').covers c = c.isDigit := rfl

theorem isAlpha_eq (c : Char) : c.isAlpha = (c.isLower || c.isUpper) :=
  Bool.or_comm _ _

theorem covers_letters (c : Char) : letters.covers c = c.isAlpha := by
  simp [letters, covers, range_covers_lower, range_covers_upper, isAlpha_eq]

theorem covers_capitals (c : Char) : capitals.covers c = c.isUpper := by
  simp [capitals, covers, range_covers_upper]

theorem covers_nameStarts (c : Char) : nameStarts.covers c = isNameStart c := by
  simp [nameStarts, covers, range_covers_lower, range_covers_upper, ClassItem.covers_range_self,
    isNameStart, isAlpha_eq, Bool.or_assoc]

theorem covers_nameParts (c : Char) : nameParts.covers c = isNamePart c := by
  simp [nameParts, covers, range_covers_lower, range_covers_upper, range_covers_digit,
    ClassItem.covers_range_self, isNamePart, Char.isAlphanum, isAlpha_eq, Bool.or_assoc]

end CharClass

namespace Regex

/-- The expression for a name. -/
def name (first : CharClass) : Regex :=
  .seq (.one first) (.star true (.one .nameParts))

theorem Takes.isName (h : Takes (name set) before w behind) : IsName set.covers w := by
  cases h with
  | seq first part =>
    obtain ⟨c, rfl, covered⟩ := of_one first
    refine ⟨c, _, rfl, covered, ?_⟩
    intro d mem
    rw [← CharClass.covers_nameParts]
    exact part.covers_of_star_one d mem

end Regex

/-! ## Digits -/

/-- Some digits, one at least. -/
def IsDigits (digit : Char → Bool) (w : List Char) : Prop :=
  w ≠ [] ∧ ∀ c ∈ w, digit c = true

/-- Some digits, and further ones behind underscores. -/
def IsGrouped (digit : Char → Bool) (w : List Char) : Prop :=
  ∃ (first : List Char) (groups : List (List Char)), w = first ++ groups.flatMap ('_' :: ·) ∧
    IsDigits digit first ∧ ∀ g ∈ groups, IsDigits digit g

namespace Regex

/-- The expression for some digits, and further ones behind underscores. -/
def grouped (digit : CharClass) : Regex :=
  .seq (.plus true (.one digit)) (.star true (.seq (.char '_') (.plus true (.one digit))))

/-- Parts that begin with an underscore are groups behind underscores. -/
theorem exists_groups {p : List Char → Prop} {parts : List (List Char)}
    (h : ∀ u ∈ parts, ∃ g, u = '_' :: g ∧ p g) :
    ∃ groups : List (List Char), parts.flatten = groups.flatMap ('_' :: ·) ∧ ∀ g ∈ groups, p g := by
  induction parts with
  | nil => exact ⟨[], rfl, by simp⟩
  | cons u parts ih =>
    obtain ⟨g, rfl, holds⟩ := h u List.mem_cons_self
    obtain ⟨groups, eq, all⟩ := ih fun u mem => h u (List.mem_cons_of_mem _ mem)
    exact ⟨g :: groups, by rw [List.flatten_cons, List.flatMap_cons, eq],
      List.forall_mem_cons.2 ⟨holds, all⟩⟩

theorem Takes.isGrouped (h : Takes (grouped set) before w behind) : IsGrouped set.covers w := by
  cases h with
  | seq first more =>
    obtain ⟨parts, rfl, all⟩ := more.exists_flatten_of_star
    have group : ∀ u ∈ parts, ∃ g, u = '_' :: g ∧ IsDigits set.covers g := by
      intro u mem
      obtain ⟨_, _, takes⟩ := all u mem
      cases takes with
      | seq underscore digits => exact ⟨_, by rw [of_char underscore]; rfl, digits.of_plus_one⟩
    obtain ⟨groups, eq, all⟩ := exists_groups group
    exact ⟨_, groups, by rw [eq], first.of_plus_one, all⟩

end Regex

/-! ## Escaped texts -/

/-- A unit of an escaped text: a backslash with the character behind it, or a character that is not
one of those that need an escape. -/
inductive IsEscapedUnit (stops : List Char) : List Char → Prop
  | escaped (c) : IsEscapedUnit stops ['\\', c]
  | plain {c} : c ∉ stops → IsEscapedUnit stops [c]

/-- Some such units in a row. -/
def IsEscaped (stops : List Char) (w : List Char) : Prop :=
  ∃ units : List (List Char), w = units.flatten ∧ ∀ u ∈ units, IsEscapedUnit stops u

namespace Regex

/-- The expression for a unit of an escaped text. -/
def escapedUnit (stops : List Char) : Regex :=
  .alt (.seq (.char '\\') (.char '\\'))
    (.alt (.seq (.char '\\') (.one (.ofChars true ['\\']))) (.one (.ofChars true stops)))

theorem Takes.isEscapedUnit {stops : List Char} (h : Takes (escapedUnit stops) before w behind) :
    IsEscapedUnit stops w := by
  cases h with
  | altLeft h =>
    cases h with
    | seq first second =>
      rw [of_char first, of_char second]
      exact .escaped _
  | altRight h =>
    cases h with
    | altLeft h =>
      cases h with
      | seq first second =>
        obtain ⟨c, -, rfl⟩ := of_noneOf second
        rw [of_char first]
        exact .escaped c
    | altRight h =>
      obtain ⟨c, other, rfl⟩ := of_noneOf h
      exact .plain other

/-- The expression for an escaped text. -/
def escaped (greedy : Bool) (stops : List Char) : Regex :=
  .star greedy (.group 0 (escapedUnit stops))

theorem Takes.isEscaped {stops : List Char} (h : Takes (escaped greedy stops) before w behind) :
    IsEscaped stops w := by
  obtain ⟨units, rfl, all⟩ := h.exists_flatten_of_star
  refine ⟨units, rfl, ?_⟩
  intro u mem
  obtain ⟨_, _, takes⟩ := all u mem
  cases takes with
  | group takes => exact takes.isEscapedUnit

end Regex
end FancyTokens
