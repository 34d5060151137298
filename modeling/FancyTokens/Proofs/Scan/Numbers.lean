import FancyTokens.Proofs.Grammar.TokenTexts
import FancyTokens.Proofs.Regex.Groups
import FancyTokens.Proofs.Scan.Emission

/-!
# The tokens of numbers

The rules for numbers take three pieces one behind the other: the number, white space and an
operator, of which the last two may be missing. Each piece is what one group of the pattern has
recorded (`exists_pieces_of_numberPattern`), and groups that adjoin one another leave no gaps, so
the tokens are those of the pieces that are not empty (`Adjoin.groupTokens?_eq`).
-/

namespace FancyTokens

/-! ## Pieces one behind the other -/

/-- The tokens of some pieces of text that stand one behind the other; empty ones have none. -/
def pieceTokens (offset : Nat) : List (Category × List Char) → List Token
  | [] => []
  | (category, w) :: pieces =>
    if w = [] then pieceTokens offset pieces
    else .ofText category offset w :: pieceTokens (offset + byteLength w) pieces

/-- The groups mark pieces of text that stand one behind the other from a byte on; an empty one need
not be marked. -/
inductive Adjoin :
    (start : Nat) → List (Category × List Char) → List (Category × Option Span) → Prop
  | nil {start} : Adjoin start [] []
  | marked {start category w pieces groups} : Adjoin (start + byteLength w) pieces groups →
      Adjoin start ((category, w) :: pieces)
        ((category, some ⟨start, start + byteLength w⟩) :: groups)
  | absent {start category pieces groups} : Adjoin start pieces groups →
      Adjoin start ((category, []) :: pieces) ((category, none) :: groups)

variable {offset start : Nat} {category : Category} {pieces : List (Category × List Char)}
  {groups : List (Category × Option Span)}

theorem category_of_mem_pieceTokens {t : Token} (mem : t ∈ pieceTokens offset pieces) :
    t.category ∈ pieces.map Prod.fst := by
  induction pieces generalizing offset with
  | nil => cases mem
  | cons piece pieces ih =>
    rw [List.map_cons, List.mem_cons]
    rw [pieceTokens] at mem
    split at mem
    · exact Or.inr (ih mem)
    · rcases List.mem_cons.1 mem with rfl | mem
      · exact Or.inl rfl
      · exact Or.inr (ih mem)

/-- A piece that is not empty has its token behind those of the pieces before it. -/
theorem ofText_mem_pieceTokens {w : List Char} (nonempty : w ≠ [])
    (earlier later : List (Category × List Char)) :
    .ofText category (offset + byteLength (earlier.flatMap Prod.snd)) w ∈
      pieceTokens offset (earlier ++ (category, w) :: later) := by
  induction earlier generalizing offset with
  | nil =>
    rw [List.nil_append, pieceTokens, if_neg nonempty]
    exact List.mem_cons_self
  | cons piece earlier ih =>
    obtain ⟨category', v⟩ := piece
    rw [List.flatMap_cons, byteLength_append, ← Nat.add_assoc, List.cons_append, pieceTokens]
    split
    case isTrue empty =>
      rw [empty, byteLength_nil, Nat.add_zero]
      exact ih
    case isFalse => exact List.mem_cons_of_mem _ ih

/-- Groups that adjoin one another give the tokens of their pieces and nothing between them. -/
theorem Adjoin.groupTokens?_eq (h : Adjoin start pieces groups) (offset : Nat)
    {whole done : List Char} (rest : List Char) (size : start = byteLength done)
    (eq : whole = done ++ pieces.flatMap Prod.snd) :
    groupTokens? offset (whole ++ rest) whole start groups =
      some (pieceTokens (offset + start) pieces) := by
  induction h generalizing done with
  | nil =>
    rw [List.flatMap_nil, List.append_nil] at eq
    rw [groupTokens?, gap?, eq, size, if_neg (Nat.lt_irrefl _)]
    rfl
  | @marked start category w pieces groups _ ih =>
    rw [List.flatMap_cons, ← List.append_assoc] at eq
    have later := ih (by rw [size, byteLength_append]) eq
    rw [groupTokens?, pieceTokens]
    by_cases empty : w = []
    · -- an empty group does not count, and moves nothing
      rw [empty, byteLength_nil, Nat.add_zero] at later ⊢
      rw [if_neg fun usable => usable.1 rfl, if_pos rfl, later]
    · have pos : byteLength w ≠ 0 := mt byteLength_eq_zero_iff.1 empty
      have text : slice? (whole ++ rest) start (start + byteLength w) = some w :=
        slice?_eq_some_iff.2 ⟨done, pieces.flatMap Prod.snd ++ rest, by rw [eq]; simp,
          size.symm, rfl⟩
      have gap : gap? offset whole start start = some [] := if_neg (Nat.lt_irrefl start)
      rw [if_pos ⟨by dsimp only; omega, Nat.le_refl start⟩, if_neg empty]
      rw [gap, text, later, Nat.add_assoc]
      rfl
  | absent _ ih =>
    rw [groupTokens?, pieceTokens, if_pos rfl]
    exact ih size eq

/-! ## The groups of a number -/

variable {digits : Regex} {s : List Char} {found : Pattern.Found}

/-- A number is found with its three pieces, of which the groups record where they stand. -/
theorem exists_pieces_of_numberPattern (free : digits.groupFree = true)
    (h : (numberPattern digits).search? s = some found) (category : Category) :
    ∃ number blanks operator rest, s = number ++ blanks ++ operator ++ rest ∧
      digits.Takes none number (blanks ++ operator ++ rest) ∧ (∀ c ∈ blanks, isBlank c = true) ∧
      (operator = [] ∨ ∃ c ∈ ['/', '?'], operator = [c]) ∧
      found.whole = ⟨0, byteLength (number ++ blanks ++ operator)⟩ ∧
      Adjoin 0 [(category, number), (.whitespace, blanks), (.operator, operator)]
        ((numberParts category).zip found.groups) := by
  have start : (numberPattern digits).regex.anchored = true := rfl
  have nothing : (Regex.Position.start s).previous.isNone = true := rfl
  rw [Pattern.search?, if_pos start, Pattern.matchAt?, numberPattern, anchoredPattern,
    Regex.suffixed, Regex.explore, Regex.explore, if_pos nothing, Regex.explore] at h
  obtain ⟨number, p₁, spans₁, takes, h⟩ := Regex.explore_group_finds free h
  rw [Regex.explore] at h
  obtain ⟨blanks, p₂, spans₂, white, h⟩ := Regex.explore_group_finds rfl h
  rw [Regex.maybe, Regex.explore] at h
  have rest₁ : s = number ++ p₁.rest := spans₁.rest
  have all_blank : ∀ c ∈ blanks, isBlank c = true := by
    intro c mem
    rw [← CharClass.covers_blanks]
    exact white.covers_of_star_one c mem
  rcases Regex.eq_some_or_of_orElse h with h | h
  · obtain ⟨operator, p₃, spans₃, one, h⟩ := Regex.explore_group_finds rfl h
    obtain ⟨c, mem, rfl⟩ := Regex.Takes.of_oneOf one
    cases h
    refine ⟨number, blanks, [c], p₃.rest, ?_, ?_, all_blank, Or.inr ⟨c, mem, rfl⟩, ?_, ?_⟩
    · rw [rest₁, spans₂.rest, spans₃.rest]
      simp
    · rw [spans₂.rest, spans₃.rest, ← List.append_assoc] at takes
      exact takes
    · rw [spans₃.offset, spans₂.offset, spans₁.offset]
      simp [Regex.Position.start, Nat.add_assoc]
    · rw [spans₂.offset, spans₁.offset]
      exact .marked (.marked (.marked .nil))
  · cases h
    refine ⟨number, blanks, [], p₂.rest, ?_, ?_, all_blank, Or.inl rfl, ?_, ?_⟩
    · rw [rest₁, spans₂.rest]
      simp
    · rw [spans₂.rest] at takes
      rwa [List.append_nil]
    · rw [spans₂.offset, spans₁.offset]
      simp [Regex.Position.start]
    · rw [spans₁.offset]
      exact .marked (.marked (.absent .nil))

/-- The tokens of a number are those of its pieces. -/
theorem exists_pieceTokens {tokens : List Token} (free : digits.groupFree = true)
    (h : (numberPattern digits).search? s = some found)
    (given : emission? offset s (.byGroups (numberParts category)) found = some tokens) :
    ∃ number blanks operator rest, s = number ++ blanks ++ operator ++ rest ∧
      digits.Takes none number (blanks ++ operator ++ rest) ∧ (∀ c ∈ blanks, isBlank c = true) ∧
      (operator = [] ∨ ∃ c ∈ ['/', '?'], operator = [c]) ∧
      found.whole = ⟨0, byteLength (number ++ blanks ++ operator)⟩ ∧
      tokens = pieceTokens offset
        [(category, number), (.whitespace, blanks), (.operator, operator)] := by
  obtain ⟨number, blanks, operator, rest, rfl, takes, white, one, whole, adjoin⟩ :=
    exists_pieces_of_numberPattern free h category
  refine ⟨number, blanks, operator, rest, rfl, takes, white, one, whole, ?_⟩
  have cut : slice? (number ++ blanks ++ operator ++ rest) found.whole.start found.whole.stop =
      some (number ++ blanks ++ operator) := by
    rw [whole]
    exact slice?_eq_some_iff.2 ⟨[], rest, rfl, rfl, Nat.zero_add _⟩
  rw [emission?, cut] at given
  have joined : number ++ blanks ++ operator = [] ++
      [(category, number), (.whitespace, blanks), (.operator, operator)].flatMap Prod.snd := by
    simp
  exact Option.some.inj (given.symm.trans (adjoin.groupTokens?_eq offset rest rfl joined))

end FancyTokens
