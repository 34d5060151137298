import FancyTokens.Regex.Search
import FancyTokens.Text.Bytes

/-!
# What an expression matches

`Regex.Takes` says, without a word about the order of preference, which texts an expression can
match between a character before and a text behind. The search explores by continuations, so what
it finds is stated for every continuation at once: whatever the search hands over lies at the end
of a way of the expression (`explore_finds`).

Main statements:

* `explore_finds`: each position that the search hands on stands behind a text that the expression
  takes, and each group that it has recorded on the way is a piece of that text;
* `Pattern.fits_of_search?`: what is found at the start of a text is a beginning of it that the
  expression takes.
-/

namespace FancyTokens

/-- The bytes of a text between which some piece of it stands. -/
def Span.Marks (span : Span) (w : List Char) : Prop :=
  ∃ a b c, w = a ++ b ++ c ∧ span.start = byteLength a ∧ span.stop = byteLength a + byteLength b

namespace Regex

/-! ## Texts of an expression -/

/-- The last character of a text, or the one that stands before it when the text is empty. -/
def lastOr (before : Option Char) (w : List Char) : Option Char :=
  w.getLast?.or before

@[simp] theorem lastOr_nil (before : Option Char) : lastOr before [] = before := rfl

@[simp] theorem lastOr_append (before : Option Char) (u v : List Char) :
    lastOr before (u ++ v) = lastOr (lastOr before u) v := by
  simp only [lastOr, List.getLast?_append, Option.or_assoc]

/-- An expression can match the text `w` when the character `before` stands before it and the text
`behind` follows. -/
inductive Takes : Regex → (before : Option Char) → (w behind : List Char) → Prop
  | empty {before behind} : Takes .empty before [] behind
  | one {set c before behind} : set.covers c = true → Takes (.one set) before [c] behind
  | textStart {behind} : Takes .textStart none [] behind
  | textEnd {before} : Takes .textEnd before [] []
  | wordBoundary {negated before behind} :
    (before.any isWordCharacter != behind.head?.any isWordCharacter) ≠ negated →
      Takes (.wordBoundary negated) before [] behind
  | seq {r s before u v behind} : Takes r before u (v ++ behind) →
      Takes s (lastOr before u) v behind → Takes (.seq r s) before (u ++ v) behind
  | altLeft {r s before w behind} : Takes r before w behind → Takes (.alt r s) before w behind
  | altRight {r s before w behind} : Takes s before w behind → Takes (.alt r s) before w behind
  | starNil {greedy r before behind} : Takes (.star greedy r) before [] behind
  | starCons {greedy r before u v behind} : Takes r before u (v ++ behind) →
      Takes (.star greedy r) (lastOr before u) v behind →
      Takes (.star greedy r) before (u ++ v) behind
  | plus {greedy r before u v behind} : Takes r before u (v ++ behind) →
      Takes (.star greedy r) (lastOr before u) v behind →
      Takes (.plus greedy r) before (u ++ v) behind
  | group {index r before w behind} : Takes r before w behind →
      Takes (.group index r) before w behind

/-- What one or more occurrences take, any number of occurrences take. -/
theorem Takes.star_of_plus {greedy : Bool} {r : Regex} {before : Option Char} {w behind : List Char}
    (h : Takes (.plus greedy r) before w behind) : Takes (.star greedy r) before w behind := by
  cases h with
  | plus first more => exact .starCons first more

/-- One more occurrence before one or more. -/
theorem Takes.plus_cons {greedy : Bool} {r : Regex} {before : Option Char} {u v behind : List Char}
    (first : Takes r before u (v ++ behind))
    (more : Takes (.plus greedy r) (lastOr before u) v behind) :
    Takes (.plus greedy r) before (u ++ v) behind :=
  .plus first more.star_of_plus

/-! ## Positions behind a text -/

/-- The position `p'` stands behind the text `w` that begins at `p`. -/
structure Position.Spans (p : Position) (w : List Char) (p' : Position) : Prop where
  rest : p.rest = w ++ p'.rest
  offset : p'.offset = p.offset + byteLength w
  previous : p'.previous = lastOr p.previous w

namespace Position

variable {p p' p'' : Position} {w u v : List Char}

theorem Spans.refl (p : Position) : p.Spans [] p :=
  ⟨rfl, rfl, rfl⟩

theorem Spans.trans (h : p.Spans u p') (h' : p'.Spans v p'') : p.Spans (u ++ v) p'' where
  rest := by rw [h.rest, h'.rest, List.append_assoc]
  offset := by rw [h'.offset, h.offset, byteLength_append, Nat.add_assoc]
  previous := by rw [h'.previous, h.previous, lastOr_append]

theorem Spans.of_next? {c : Char} (h : p.next? = some (c, p')) : p.Spans [c] p' := by
  unfold next? at h
  split at h
  · cases h
  · rename_i rest
    cases h
    exact ⟨rest, rfl, rfl⟩

/-- Passing a joint does not move. -/
theorem Spans.of_pass? {looping : Bool} {joint : Part} (h : p.pass? looping joint = some p') :
    p.Spans [] p' := by
  unfold pass? at h
  split at h
  · cases h
    exact .refl p
  · split at h
    · cases h
    · cases h
      exact ⟨rfl, rfl, rfl⟩

end Position

/-! ## Ways of an expression -/

/-- On the way along `w` from `p` nothing has been recorded but pieces of `w`. -/
def Records (p : Position) (w : List Char) (captures captures' : Captures) : Prop :=
  ∀ span, some span ∈ captures' → some span ∈ captures ∨
    ∃ mark : Span, mark.Marks w ∧ span = ⟨p.offset + mark.start, p.offset + mark.stop⟩

/-- A way of an expression from one position to another: it leads along a text that the expression
takes, and whatever it records is a piece of that text. -/
def Way (r : Regex) (p : Position) (captures : Captures) (p' : Position) (captures' : Captures) :
    Prop :=
  ∃ w, p.Spans w p' ∧ Takes r p.previous w p'.rest ∧ Records p w captures captures'

/-- Whatever an explorer hands on, it hands on at the end of a way. -/
def Finds {β : Type} (e : Explorer β)
    (way : Position → Captures → Position → Captures → Prop) : Prop :=
  ∀ {p captures k b}, e p captures k = some b →
    ∃ p' captures', way p captures p' captures' ∧ k p' captures' = some b

variable {p p' p'' : Position} {u v w : List Char} {captures captures' captures'' : Captures}

theorem Records.refl : Records p w captures captures :=
  fun _ mem => .inl mem

theorem Records.append (spans : p.Spans u p') (h : Records p u captures captures')
    (h' : Records p' v captures' captures'') : Records p (u ++ v) captures captures'' := by
  intro span mem
  rcases h' span mem with mem | ⟨mark, ⟨a, b, c, rfl, start, stop⟩, rfl⟩
  · rcases h span mem with mem | ⟨mark, ⟨a, b, c, rfl, start, stop⟩, rfl⟩
    · exact .inl mem
    · exact .inr ⟨mark, ⟨a, b, c ++ v, by simp, start, stop⟩, rfl⟩
  · -- a piece of the second text lies behind all bytes of the first one
    refine .inr ⟨⟨byteLength u + mark.start, byteLength u + mark.stop⟩,
      ⟨u ++ a, b, c, by simp, by simp [start], by simp [stop]; omega⟩, ?_⟩
    rw [spans.offset]
    simp only [Span.mk.injEq]
    omega

/-- A group records the whole text between its ends. -/
theorem Records.set {index : Nat} (spans : p.Spans w p') (h : Records p w captures captures') :
    Records p w captures (captures'.set index (some ⟨p.offset, p'.offset⟩)) := by
  intro span mem
  rcases List.mem_or_eq_of_mem_set mem with mem | eq
  · exact h span mem
  · cases eq
    refine .inr ⟨⟨0, byteLength w⟩, ⟨[], w, [], by simp, rfl, by simp⟩, ?_⟩
    rw [spans.offset, Nat.add_zero]

/-- A way goes on past a joint at its end. -/
theorem Way.past {r : Regex} (h : Way r p captures p' captures') (joint : p'.Spans [] p'') :
    Way r p captures p'' captures' := by
  obtain ⟨w, spans, takes, records⟩ := h
  have rest : p''.rest = p'.rest := by simpa using joint.rest.symm
  exact ⟨w, by simpa using spans.trans joint, rest ▸ takes, records⟩

/-- A way may begin with a joint. -/
theorem Way.after {r : Regex} (joint : p.Spans [] p') (h : Way r p' captures p'' captures') :
    Way r p captures p'' captures' := by
  obtain ⟨w, spans, takes, records⟩ := h
  have previous : p'.previous = p.previous := joint.previous
  exact ⟨w, by simpa using joint.trans spans, previous ▸ takes,
    by simpa using Records.append joint .refl records⟩

/-- Two ways in a row make one of any expression that takes what the two take in a row. -/
theorem Way.append {r s t : Regex} (h : Way r p captures p' captures')
    (h' : Way s p' captures' p'' captures'')
    (takes : ∀ {before u v behind}, Takes r before u (v ++ behind) →
      Takes s (lastOr before u) v behind → Takes t before (u ++ v) behind) :
    Way t p captures p'' captures'' := by
  obtain ⟨u, spans, first, records⟩ := h
  obtain ⟨v, spans', second, records'⟩ := h'
  rw [spans'.rest] at first
  rw [spans.previous] at second
  exact ⟨u ++ v, spans.trans spans', takes first second, records.append spans records'⟩

theorem Way.mono {r s : Regex} (h : Way r p captures p' captures')
    (takes : ∀ {before w behind}, Takes r before w behind → Takes s before w behind) :
    Way s p captures p' captures' := by
  obtain ⟨w, spans, first, records⟩ := h
  exact ⟨w, spans, takes first, records⟩

/-- A way along no text at all. -/
theorem Way.stay {r : Regex} (takes : Takes r p.previous [] p.rest) :
    Way r p captures p captures :=
  ⟨[], .refl p, takes, .refl⟩

/-! ## The search -/

section Search

variable {β : Type} {looping greedy : Bool} {joint : Part} {r : Regex}

/-- What comes out of a choice comes out of one of its sides. -/
theorem eq_some_or_of_orElse {first second : Option β} {b : β}
    (h : (first <|> second) = some b) : first = some b ∨ second = some b := by
  cases first with
  | none => exact .inr h
  | some _ => exact .inl h

theorem goOnOrStop_eq_some {goOn stop : Option β} {b : β}
    (h : goOnOrStop greedy goOn stop = some b) : goOn = some b ∨ stop = some b := by
  unfold goOnOrStop at h
  split at h
  · exact eq_some_or_of_orElse h
  · exact (eq_some_or_of_orElse h).symm

/-- What is accepted behind a joint is accepted at a position that differs by no text. -/
theorem of_behind_eq_some {k : Continuation β} {b : β}
    (h : behind looping joint k p captures = some b) :
    ∃ p', p.Spans [] p' ∧ k p' captures = some b := by
  obtain ⟨p', passed, accepted⟩ := Option.bind_eq_some_iff.1 h
  exact ⟨p', .of_pass? passed, accepted⟩

theorem exploreStar_finds {body : Explorer β} (finds : Finds body r.Way) (ahead : List Char) :
    Finds (exploreStar looping joint greedy body ahead) (Way (.star greedy r)) := by
  -- the text ahead only bounds the number of occurrences
  induction ahead with
  | nil =>
    intro p captures k b h
    obtain ⟨p', spans, accepted⟩ := of_behind_eq_some h
    exact ⟨p', captures, (Way.stay .starNil).past spans, accepted⟩
  | cons c ahead ih =>
    intro p captures k b h
    rw [exploreStar] at h
    obtain ⟨p₁, passed, h⟩ := Option.bind_eq_some_iff.1 h
    have spans := Position.Spans.of_pass? passed
    rcases goOnOrStop_eq_some h with h | h
    · obtain ⟨p₂, captures₂, first, h⟩ := finds h
      obtain ⟨p₃, captures₃, more, accepted⟩ := ih h
      exact ⟨p₃, captures₃, .after spans (first.append more .starCons), accepted⟩
    · exact ⟨p₁, captures, (Way.stay .starNil).past spans, h⟩

theorem explorePlus_finds {body : Explorer β} (finds : Finds body r.Way) (ahead : List Char) :
    Finds (explorePlus looping joint greedy body ahead) (Way (.plus greedy r)) := by
  -- a single occurrence, with none behind it
  have once {p captures p' captures'} (way : Way r p captures p' captures') :
      Way (.plus greedy r) p captures p' captures' := by
    obtain ⟨w, spans, takes, records⟩ := way
    exact ⟨w, spans, by simpa using Takes.plus (v := []) takes .starNil, records⟩
  induction ahead with
  | nil =>
    intro p captures k b h
    obtain ⟨p₁, passed, h⟩ := Option.bind_eq_some_iff.1 h
    obtain ⟨p₂, captures₂, way, accepted⟩ := finds h
    exact ⟨p₂, captures₂, .after (.of_pass? passed) (once way), accepted⟩
  | cons c ahead ih =>
    intro p captures k b h
    rw [explorePlus] at h
    obtain ⟨p₁, passed, h⟩ := Option.bind_eq_some_iff.1 h
    have spans := Position.Spans.of_pass? passed
    obtain ⟨p₂, captures₂, way, h⟩ := finds h
    rcases goOnOrStop_eq_some h with h | h
    · obtain ⟨p₃, captures₃, more, accepted⟩ := ih h
      exact ⟨p₃, captures₃, .after spans (way.append more .plus_cons), accepted⟩
    · exact ⟨p₂, captures₂, .after spans (once way), h⟩

/-- Each position that the search for an expression hands on lies at the end of a way. -/
theorem explore_finds (r : Regex) (part : Part) (looping : Bool) :
    Finds (β := β) (r.explore part looping) r.Way := by
  induction r generalizing part looping with
  | empty =>
    intro p captures k b h
    exact ⟨p, captures, .stay .empty, h⟩
  | one set =>
    intro p captures k b h
    rw [explore] at h
    split at h
    case h_1 c p' next =>
      split at h
      case isTrue covered =>
        have spans := Position.Spans.of_next? next
        exact ⟨p', captures, ⟨[c], spans, .one covered, .refl⟩, h⟩
      case isFalse => cases h
    case h_2 => cases h
  | textStart =>
    intro p captures k b h
    rw [explore] at h
    split at h
    case isTrue first =>
      refine ⟨p, captures, .stay ?_, h⟩
      rw [Option.isNone_iff_eq_none.1 first]
      exact .textStart
    case isFalse => cases h
  | textEnd =>
    intro p captures k b h
    rw [explore] at h
    split at h
    case isTrue last =>
      refine ⟨p, captures, .stay ?_, h⟩
      rw [List.isEmpty_iff.1 last]
      exact .textEnd
    case isFalse => cases h
  | wordBoundary negated =>
    intro p captures k b h
    rw [explore] at h
    split at h
    case isTrue boundary =>
      exact ⟨p, captures, .stay (.wordBoundary (bne_iff_ne.1 boundary)), h⟩
    case isFalse => cases h
  | seq r s ihr ihs =>
    intro p captures k b h
    obtain ⟨p₁, captures₁, first, h⟩ := ihr _ _ h
    obtain ⟨p₂, captures₂, second, accepted⟩ := ihs _ _ h
    exact ⟨p₂, captures₂, first.append second .seq, accepted⟩
  | alt r s ihr ihs =>
    intro p captures k b h
    rw [explore] at h
    -- either side may be preferred, and both end in the same joint
    rcases eq_some_or_of_orElse h with h | h
    · obtain ⟨p₁, captures₁, way, h⟩ := ihr _ _ h
      obtain ⟨p₂, spans, accepted⟩ := of_behind_eq_some h
      exact ⟨p₂, captures₁, (way.mono .altLeft).past spans, accepted⟩
    · obtain ⟨p₁, captures₁, way, h⟩ := ihs _ _ h
      obtain ⟨p₂, spans, accepted⟩ := of_behind_eq_some h
      exact ⟨p₂, captures₁, (way.mono .altRight).past spans, accepted⟩
  | star greedy r ih =>
    intro p captures k b h
    rw [explore] at h
    split at h
    -- a body that may match nothing is tried at least once, or not at all
    case isTrue =>
      rcases goOnOrStop_eq_some h with h | h
      · obtain ⟨p₁, captures₁, way, h⟩ := explorePlus_finds (ih _ _) _ h
        obtain ⟨p₂, spans, accepted⟩ := of_behind_eq_some h
        exact ⟨p₂, captures₁, (way.mono .star_of_plus).past spans, accepted⟩
      · obtain ⟨p₁, spans, accepted⟩ := of_behind_eq_some h
        exact ⟨p₁, captures, (Way.stay .starNil).past spans, accepted⟩
    case isFalse => exact exploreStar_finds (ih _ _) _ h
  | plus greedy r ih =>
    intro p captures k b h
    rw [explore] at h
    exact explorePlus_finds (ih _ _) _ h
  | group index r ih =>
    intro p captures k b h
    obtain ⟨p₁, captures₁, ⟨w, spans, takes, records⟩, accepted⟩ := ih _ _ h
    -- the group records what lies between its ends, whatever its body has recorded
    exact ⟨p₁, _, ⟨w, spans, .group takes, records.set spans⟩, accepted⟩

end Search

end Regex

/-! ## Matches of a pattern -/

namespace Pattern

/-- A match covers exactly the text `w` from the start, and all its groups lie in that text. -/
structure Found.Fits (found : Found) (w : List Char) : Prop where
  whole : found.whole = ⟨0, byteLength w⟩
  marks : ∀ span, some span ∈ found.groups → span.Marks w

/-- The pattern finds nothing but beginnings of a text. -/
def Anchored (pattern : Pattern) : Prop :=
  ∀ s found, pattern.search? s = some found → found.whole.start = 0

theorem start_of_matchAt? {pattern : Pattern} {p : Regex.Position} {found : Found}
    (h : pattern.matchAt? p = some found) : found.whole.start = p.offset := by
  obtain ⟨p', captures, -, accepted⟩ := Regex.explore_finds _ _ _ h
  cases accepted
  rfl

theorem le_start_of_searchFrom? {pattern : Pattern} {offset : Nat} {previous : Option Char}
    {s : List Char} {found : Found} (h : pattern.searchFrom? offset previous s = some found) :
    offset ≤ found.whole.start := by
  induction s generalizing offset previous with
  | nil => exact Nat.le_of_eq (start_of_matchAt? h).symm
  | cons c s ih =>
    rcases Regex.eq_some_or_of_orElse h with h | h
    · exact Nat.le_of_eq (start_of_matchAt? h).symm
    · exact Nat.le_of_add_right_le (ih h)

/-- What is found at the start of a text is found by the first try. -/
theorem matchAt?_start_of_search? {pattern : Pattern} {s : List Char} {found : Found}
    (start : found.whole.start = 0) (h : pattern.search? s = some found) :
    pattern.matchAt? (.start s) = some found := by
  rw [search?] at h
  split at h
  · exact h
  · cases s with
    | nil => exact h
    | cons c s =>
      rcases Regex.eq_some_or_of_orElse h with h | h
      · exact h
      · -- a later try would not begin at the start
        have later := le_start_of_searchFrom? h
        have pos := c.utf8Size_pos
        omega

/-- A pattern whose expression asks for the start of the text first is anchored. -/
theorem anchored_of_regex {pattern : Pattern} (h : pattern.regex.anchored = true) :
    pattern.Anchored := by
  intro s found search
  rw [search?, if_pos h] at search
  exact start_of_matchAt? search

/-- What a pattern finds at the start of a text is a beginning `w`, which its expression takes with
nothing before it. -/
theorem fits_of_search? {pattern : Pattern} {s : List Char} {found : Found}
    (start : found.whole.start = 0) (h : pattern.search? s = some found) :
    ∃ w rest, s = w ++ rest ∧ found.Fits w ∧ pattern.regex.Takes none w rest := by
  obtain ⟨p, captures, ⟨w, spans, takes, records⟩, accepted⟩ :=
    Regex.explore_finds _ _ _ (matchAt?_start_of_search? start h)
  cases accepted
  refine ⟨w, p.rest, spans.rest, ⟨?_, ?_⟩, takes⟩
  · rw [spans.offset, Regex.Position.start, Nat.zero_add]
  · intro span mem
    rcases records span mem with mem | ⟨mark, marks, rfl⟩
    · -- no group holds anything before the search
      cases List.eq_of_mem_replicate mem
    · rwa [Regex.Position.start, Nat.zero_add, Nat.zero_add]

end Pattern
end FancyTokens
