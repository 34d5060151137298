/-!
# Byte offsets in a text

A text is the list of its characters, and every offset into it counts the bytes of its UTF-8 form.
`cut?_eq_some_iff` says all there is to say about cutting a text at an offset.
-/
namespace FancyTokens

/-- Number of bytes that a text takes. -/
def byteLength : List Char → Nat
  | [] => 0
  | c :: s => c.utf8Size + byteLength s

/-- A text cut after `n` bytes. There is no such cut inside a character or beyond the end. -/
def cut? : List Char → Nat → Option (List Char × List Char)
  | s, 0 => some ([], s)
  | [], _ + 1 => none
  | c :: s, n + 1 =>
    if c.utf8Size ≤ n + 1 then (cut? s (n + 1 - c.utf8Size)).map fun (a, b) => (c :: a, b)
    else none

/-- The part of a text between two byte offsets. -/
def slice? (s : List Char) (start stop : Nat) : Option (List Char) :=
  if start ≤ stop then
    (cut? s start).bind fun (_, rest) => (cut? rest (stop - start)).map Prod.fst
  else none

/-! ## Laws -/

@[simp] theorem byteLength_nil : byteLength [] = 0 := rfl

@[simp] theorem byteLength_cons (c : Char) (s : List Char) :
    byteLength (c :: s) = c.utf8Size + byteLength s := rfl

@[simp] theorem byteLength_append (s t : List Char) :
    byteLength (s ++ t) = byteLength s + byteLength t := by
  induction s with
  | nil => simp
  | cons c s ih => simp [ih, Nat.add_assoc]

theorem byteLength_eq_zero_iff {s : List Char} : byteLength s = 0 ↔ s = [] := by
  cases s with
  | nil => simp
  | cons c s => simpa using fun h => absurd h (Nat.ne_of_gt c.utf8Size_pos)

/-- A cut at `n` splits the text into two parts of which the first takes `n` bytes. -/
theorem cut?_eq_some_iff {s a b : List Char} {n : Nat} :
    cut? s n = some (a, b) ↔ s = a ++ b ∧ byteLength a = n := by
  induction s generalizing a n with
  | nil =>
    cases n with
    | zero => cases a <;> simp [cut?, eq_comm]
    | succ n => cases a <;> simp [cut?]
  | cons c s ih =>
    have pos := c.utf8Size_pos
    cases n with
    | zero =>
      cases a with
      | nil => simp [cut?]
      | cons d a => simpa [cut?] using fun _ _ h => absurd h (Nat.ne_of_gt d.utf8Size_pos)
    | succ n =>
      rw [cut?]
      split
      case isTrue fits =>
        cases a with
        | nil => simp
        | cons d a =>
          simp only [Option.map_eq_some_iff, Prod.mk.injEq, List.cons.injEq, Prod.exists,
            List.cons_append, byteLength_cons]
          constructor
          · rintro ⟨a', b', found, ⟨rfl, rfl⟩, rfl⟩
            obtain ⟨rfl, size⟩ := ih.1 found
            exact ⟨⟨rfl, rfl⟩, by omega⟩
          · rintro ⟨⟨rfl, rfl⟩, size⟩
            exact ⟨a, b, ih.2 ⟨rfl, by omega⟩, ⟨rfl, rfl⟩, rfl⟩
      case isFalse large =>
        cases a with
        | nil => simp
        | cons d a =>
          simp only [reduceCtorEq, List.cons_append, List.cons.injEq, byteLength_cons, false_iff,
            not_and]
          rintro ⟨rfl, -⟩
          omega

/-- A text has one beginning of a size only. -/
theorem append_inj_of_byteLength {a b a' b' : List Char} (eq : a ++ b = a' ++ b')
    (size : byteLength a = byteLength a') : a = a' ∧ b = b' := by
  have cut : cut? (a ++ b) (byteLength a) = some (a, b) := cut?_eq_some_iff.2 ⟨rfl, rfl⟩
  rw [cut?_eq_some_iff.2 ⟨eq, size.symm⟩] at cut
  cases cut
  exact ⟨rfl, rfl⟩

/-- A slice is what stands between a first part of `start` bytes and the rest. -/
theorem slice?_eq_some_iff {s part : List Char} {start stop : Nat} :
    slice? s start stop = some part ↔
      ∃ a b, s = a ++ part ++ b ∧ byteLength a = start ∧ start + byteLength part = stop := by
  rw [slice?]
  split
  case isTrue le =>
    simp only [Option.bind_eq_some_iff, Option.map_eq_some_iff, Prod.exists, cut?_eq_some_iff]
    constructor
    · rintro ⟨a, rest, ⟨rfl, size⟩, p, b, ⟨rfl, size'⟩, rfl⟩
      exact ⟨a, b, by simp, size, by omega⟩
    · rintro ⟨a, b, rfl, size, size'⟩
      exact ⟨a, part ++ b, ⟨by simp, size⟩, part, b, ⟨rfl, by omega⟩, rfl⟩
  case isFalse gt =>
    simp only [reduceCtorEq, false_iff]
    rintro ⟨a, b, -, -, size⟩
    omega

/-- A cut after at least one byte leaves a shorter text. -/
theorem length_lt_of_cut? {s a b : List Char} {n : Nat} (found : cut? s n = some (a, b))
    (pos : 0 < n) : b.length < s.length := by
  obtain ⟨rfl, size⟩ := cut?_eq_some_iff.1 found
  cases a with
  | nil => rw [byteLength_nil] at size; omega
  | cons c a => rw [List.length_append, List.length_cons]; omega

end FancyTokens
