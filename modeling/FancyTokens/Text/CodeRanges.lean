/-!
# Sets of characters given by ranges of code points

The properties of characters that the lexer, the quoting of texts and the settings ask for are
kept as tables of ranges. `covers_eq_true_iff` says what such a table means: membership in one of
its ranges, provided the ranges rise.
-/
namespace FancyTokens

/-- A set of characters: the first and last code point of each range, in rising order. -/
abbrev CodeRanges := List (Nat × Nat)

namespace CodeRanges

/-- Membership of a character. The search ends at the first range that starts above it. -/
def covers : CodeRanges → Char → Bool
  | [], _ => false
  | (low, high) :: ranges, c =>
    if c.toNat < low then false else if c.toNat ≤ high then true else covers ranges c

/-- Every range of the table starts above the end of the one before it. -/
def Rising (ranges : CodeRanges) : Prop :=
  ranges.Pairwise fun a b => a.1 ≤ a.2 ∧ a.2 < b.1

theorem covers_eq_true_iff {ranges : CodeRanges} (rising : ranges.Rising) (c : Char) :
    ranges.covers c = true ↔ ∃ r ∈ ranges, r.1 ≤ c.toNat ∧ c.toNat ≤ r.2 := by
  induction ranges with
  | nil => simp [covers]
  | cons r ranges ih =>
    obtain ⟨low, high⟩ := r
    have later : ∀ s ∈ ranges, low ≤ high ∧ high < s.1 := fun _ mem =>
      List.rel_of_pairwise_cons rising mem
    rw [covers]
    split
    case isTrue below =>
      simp only [Bool.false_eq_true, List.mem_cons, false_iff, not_exists, not_and]
      rintro s (rfl | mem) start
      · exact absurd start (by omega)
      · have := later s mem
        omega
    case isFalse notBelow =>
      split
      case isTrue inside =>
        simp only [true_iff]
        exact ⟨_, List.mem_cons_self, by omega, inside⟩
      case isFalse above =>
        rw [ih (List.Pairwise.of_cons rising)]
        simp only [List.mem_cons]
        constructor
        · rintro ⟨s, mem, h⟩
          exact ⟨s, .inr mem, h⟩
        · rintro ⟨s, rfl | mem, h⟩
          · exact absurd h.2 above
          · exact ⟨s, mem, h⟩

end CodeRanges
end FancyTokens
