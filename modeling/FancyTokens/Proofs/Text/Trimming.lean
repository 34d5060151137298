import FancyTokens.Text.Blank
import Mathlib.Data.List.DropRight

/-!
# Trimmed texts

A trimmed text has no character to be dropped at either end. Trimming gives such a text
(`trimmed_trimEnds`), leaves it as it is (`Trimmed.trimEnds_eq`), and takes away what has been put
before or behind it (`trimEnds_append_left`, `trimEnds_append_right`).
-/

namespace FancyTokens

/-- Neither the first nor the last character of a text is to be dropped. -/
structure Trimmed (drop : Char → Bool) (s : List Char) : Prop where
  head : ∀ c ∈ s.head?, drop c = false
  last : ∀ c ∈ s.getLast?, drop c = false

variable {drop : Char → Bool} {s : List Char} {c : Char}

theorem trimEnds_eq_rdropWhile (drop : Char → Bool) (s : List Char) :
    trimEnds drop s = (s.dropWhile drop).rdropWhile drop := rfl

/-- Nothing is added by trimming. -/
theorem trimEnds_subset (drop : Char → Bool) (s : List Char) : trimEnds drop s ⊆ s := by
  have behind : (s.dropWhile drop).rdropWhile drop ⊆ s.dropWhile drop :=
    (List.rdropWhile_prefix drop _).subset
  have before : s.dropWhile drop ⊆ s := (List.dropWhile_suffix drop).subset
  rw [trimEnds_eq_rdropWhile]
  exact List.Subset.trans behind before

/-- What is left after dropping at the start does not start with a character to be dropped. -/
theorem head?_dropWhile_eq_false (mem : c ∈ (s.dropWhile drop).head?) : drop c = false := by
  have found := List.head?_dropWhile_not drop s
  rw [Option.mem_def.1 mem] at found
  simpa using found

theorem trimmed_trimEnds (drop : Char → Bool) (s : List Char) : Trimmed drop (trimEnds drop s) := by
  rw [trimEnds_eq_rdropWhile]
  constructor
  · intro c mem
    -- what is dropped at the end is not the first character of what remains
    obtain ⟨dropped, parts⟩ := List.rdropWhile_prefix drop (s.dropWhile drop)
    apply head?_dropWhile_eq_false (s := s)
    rw [← parts, Option.mem_def, List.head?_append, Option.mem_def.1 mem]
    rfl
  · intro c mem
    have nonempty : (s.dropWhile drop).rdropWhile drop ≠ [] := by
      intro empty
      rw [empty] at mem
      cases mem
    have found : c = ((s.dropWhile drop).rdropWhile drop).getLast nonempty := by
      rw [List.getLast?_eq_some_getLast nonempty] at mem
      exact (Option.some.inj mem).symm
    rw [found]
    simpa using List.rdropWhile_last_not drop _ nonempty

/-! ## Padding -/

section Padding

variable {pad : List Char}

/-- Characters to be dropped before a text do not matter. -/
theorem trimEnds_append_left (dropped : ∀ c ∈ pad, drop c = true) (s : List Char) :
    trimEnds drop (pad ++ s) = trimEnds drop s := by
  rw [trimEnds, trimEnds, List.dropWhile_append_of_pos dropped]

/-- Characters to be dropped behind a text do not matter. -/
theorem trimEnds_append_right (dropped : ∀ c ∈ pad, drop c = true) (s : List Char) :
    trimEnds drop (s ++ pad) = trimEnds drop s := by
  have none_left : pad.dropWhile drop = [] := List.dropWhile_eq_nil_iff.2 dropped
  have dropped_reverse : ∀ c ∈ pad.reverse, drop c = true :=
    fun c mem => dropped c (List.mem_reverse.1 mem)
  rw [trimEnds, trimEnds, List.dropWhile_append]
  split
  case isTrue empty => rw [none_left, List.isEmpty_iff.1 empty]
  case isFalse => rw [List.reverse_append, List.dropWhile_append_of_pos dropped_reverse]

/-- Nothing is left where everything is to be dropped. -/
theorem trimEnds_eq_nil_iff : trimEnds drop s = [] ↔ ∀ c ∈ s, drop c = true := by
  rw [trimEnds_eq_rdropWhile, List.rdropWhile_eq_nil_iff]
  constructor
  · intro rest c mem
    rw [← List.takeWhile_append_dropWhile (p := drop) (l := s), List.mem_append] at mem
    exact mem.elim List.mem_takeWhile_imp (rest c)
  · intro h c mem
    exact h c ((List.dropWhile_suffix drop).subset mem)

end Padding

namespace Trimmed

theorem nil : Trimmed drop [] :=
  ⟨by simp, by simp⟩

theorem dropWhile_eq (h : Trimmed drop s) : s.dropWhile drop = s := by
  cases s with
  | nil => rfl
  | cons c s =>
    have keeps : drop c = false := h.head c rfl
    rw [List.dropWhile_cons_of_neg (by simp [keeps])]

theorem rdropWhile_eq (h : Trimmed drop s) : s.rdropWhile drop = s := by
  rw [List.rdropWhile_eq_self_iff]
  intro nonempty
  have keeps := h.last _ (List.getLast?_eq_some_getLast nonempty)
  simp [keeps]

/-- A trimmed text is left as it is. -/
theorem trimEnds_eq (h : Trimmed drop s) : trimEnds drop s = s := by
  rw [trimEnds_eq_rdropWhile, h.dropWhile_eq, h.rdropWhile_eq]

/-- A character to be dropped is taken away from behind a trimmed text. -/
theorem trimEnds_concat (h : Trimmed drop s) (drops : drop c = true) :
    trimEnds drop (s ++ [c]) = s := by
  rw [trimEnds_eq_rdropWhile]
  cases s with
  | nil => simp [drops]
  | cons d s =>
    -- the text begins with a character that stays
    have keeps : drop d = false := h.head d rfl
    rw [List.cons_append, List.dropWhile_cons_of_neg (by simp [keeps]), ← List.cons_append,
      List.rdropWhile_concat_pos drop _ c drops, h.rdropWhile_eq]

end Trimmed
end FancyTokens
