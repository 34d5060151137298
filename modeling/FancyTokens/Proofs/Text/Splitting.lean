import FancyTokens.FileName.Component
import Mathlib.Data.List.TakeDrop

/-!
# Texts split at characters

A text is split at the first character outside a class (`span_append`) or at every occurrence of a
separator (`splitOn_append`).
-/

namespace FancyTokens

variable {p : Char → Bool} {s t : List Char} {c d separator : Char}

/-- A character of a class is none outside it. -/
theorem ne_of_class (inside : p c = true) (outside : p d = false) : c ≠ d := by
  rintro rfl
  rw [inside] at outside
  cases outside

/-- A text splits behind the characters of a class, where one of another class follows. -/
theorem span_append (inside : ∀ c ∈ s, p c = true) (outside : ∀ c ∈ t.head?, p c = false) :
    (s ++ t).span p = (s, t) := by
  have taken : t.takeWhile p = [] := by
    cases t with
    | nil => rfl
    | cons c t =>
      have stops : p c = false := outside c rfl
      simp [stops]
  have left : t.dropWhile p = t := by
    cases t with
    | nil => rfl
    | cons c t =>
      have stops : p c = false := outside c rfl
      simp [stops]
  rw [List.span_eq_takeWhile_dropWhile, List.takeWhile_append_of_pos inside,
    List.dropWhile_append_of_pos inside, taken, left, List.append_nil]

/-- A text splits in one way only behind the characters of a class. -/
theorem append_inj_of_class {s' t' : List Char} (eq : s ++ t = s' ++ t')
    (inside : ∀ c ∈ s, p c = true) (outside : ∀ c ∈ t.head?, p c = false)
    (inside' : ∀ c ∈ s', p c = true) (outside' : ∀ c ∈ t'.head?, p c = false) :
    s = s' ∧ t = t' := by
  rw [← Prod.mk.injEq, ← span_append inside outside, ← span_append inside' outside', eq]

theorem splitOn_ne_nil (separator : Char) (s : List Char) : splitOn separator s ≠ [] := by
  cases s with
  | nil => exact List.cons_ne_nil _ _
  | cons c s =>
    rw [splitOn]
    split
    · exact List.cons_ne_nil _ _
    · split <;> exact List.cons_ne_nil _ _

/-- A text without separators is one piece. -/
theorem splitOn_eq_singleton (h : separator ∉ s) : splitOn separator s = [s] := by
  induction s with
  | nil => rfl
  | cons c s ih =>
    rw [List.mem_cons, not_or] at h
    rw [splitOn, if_neg (Ne.symm h.1), ih h.2]

/-- A separator parts the pieces before it from those behind it. -/
theorem splitOn_append (separator : Char) (s t : List Char) :
    splitOn separator (s ++ separator :: t) = splitOn separator s ++ splitOn separator t := by
  induction s with
  | nil => simp [splitOn]
  | cons c s ih =>
    rw [List.cons_append, splitOn, splitOn, ih]
    obtain ⟨piece, pieces, eq⟩ := List.exists_cons_of_ne_nil (splitOn_ne_nil separator s)
    rw [eq]
    split <;> rfl

/-- What stands before the first separator is the first piece. -/
theorem splitOn_append_cons (h : separator ∉ s) (t : List Char) :
    splitOn separator (s ++ separator :: t) = s :: splitOn separator t := by
  rw [splitOn_append, splitOn_eq_singleton h]
  rfl

/-- The last piece of a text stands alone or behind a separator. -/
theorem exists_last_piece (separator : Char) (s : List Char) :
    ∃ piece, separator ∉ piece ∧ (s = piece ∨ ∃ front, s = front ++ separator :: piece) := by
  induction s with
  | nil => exact ⟨[], List.not_mem_nil, .inl rfl⟩
  | cons c s ih =>
    obtain ⟨piece, none, rfl | ⟨front, rfl⟩⟩ := ih
    · by_cases here : separator = c
      · exact ⟨s, none, .inr ⟨[], here ▸ rfl⟩⟩
      · exact ⟨c :: s, List.not_mem_cons_of_ne_of_not_mem here none, .inl rfl⟩
    · exact ⟨piece, none, .inr ⟨c :: front, rfl⟩⟩

end FancyTokens
