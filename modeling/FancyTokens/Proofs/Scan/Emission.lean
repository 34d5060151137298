import FancyTokens.Proofs.Regex.Language
import FancyTokens.Proofs.Tiling
import FancyTokens.Scan.Emission

/-!
# The tokens of a match tile it

Whatever the groups of a match hold (nothing, nothing but an empty piece, pieces within or before
one another), the tokens given out for them and for the gaps between them make up the match
(`exists_emission?`). The loop over the groups keeps one invariant: what has been given out makes up
the first `covered` bytes of the match.
-/

namespace FancyTokens

/-- The categories that an action gives to tokens. -/
def Action.categories : Action → List Category
  | .whole category => [category]
  | .byGroups categories => categories

variable {offset : Nat} {whole rest : List Char}

/-- Of two ways to cut a text in two, the shorter beginning is part of the longer one. -/
theorem exists_append_of_byteLength_le {a b c d : List Char} (eq : a ++ b = c ++ d)
    (le : byteLength a ≤ byteLength c) : ∃ e, c = a ++ e ∧ b = e ++ d := by
  rcases List.append_eq_append_iff.1 eq with ⟨e, rfl, rfl⟩ | ⟨e, rfl, rfl⟩
  · exact ⟨e, rfl, rfl⟩
  · -- the longer beginning has no bytes more, hence no characters more
    rw [byteLength_append] at le
    obtain rfl : e = [] := byteLength_eq_zero_iff.1 (by omega)
    exact ⟨[], by simp, by simp⟩

/-- What a text ends in from some byte on. -/
theorem slice?_to_end_eq_some_iff {s : List Char} {start : Nat} :
    slice? s start (byteLength s) = some rest ↔ ∃ a, s = a ++ rest ∧ byteLength a = start := by
  rw [slice?_eq_some_iff]
  constructor
  · rintro ⟨a, b, rfl, size, stop⟩
    simp only [byteLength_append] at stop
    obtain rfl : b = [] := byteLength_eq_zero_iff.1 (by omega)
    exact ⟨a, List.append_nil _, size⟩
  · rintro ⟨a, rfl, rfl⟩
    exact ⟨a, [], (List.append_nil _).symm, rfl, (byteLength_append a rest).symm⟩

/-- The end of a text from a byte of its second part on is cut out of that part. -/
theorem slice?_to_end (a b : List Char) (n : Nat) :
    slice? (a ++ b) (byteLength a + n) (byteLength (a ++ b)) = (cut? b n).map Prod.snd := by
  ext rest
  rw [slice?_to_end_eq_some_iff, Option.map_eq_some_iff]
  constructor
  · rintro ⟨u, parts, start⟩
    obtain ⟨w, rfl, rfl⟩ := exists_append_of_byteLength_le parts (by omega)
    rw [byteLength_append] at start
    exact ⟨(w, rest), cut?_eq_some_iff.2 ⟨rfl, by omega⟩, rfl⟩
  · rintro ⟨⟨w, _⟩, cut, rfl⟩
    obtain ⟨rfl, rfl⟩ := cut?_eq_some_iff.1 cut
    exact ⟨a ++ w, (List.append_assoc ..).symm, byteLength_append a w⟩

/-- The gap between two pieces of a match is tiled by at most one token. -/
theorem exists_gap? (offset : Nat) {a b c : List Char} (eq : whole = a ++ b ++ c) :
    ∃ tokens, gap? offset whole (byteLength a) (byteLength a + byteLength b) = some tokens ∧
      Tiling (offset + byteLength a) b tokens := by
  unfold gap?
  by_cases empty : b = []
  · subst empty
    exact ⟨[], by simp, .nil⟩
  · have pos : 0 < byteLength b := Nat.pos_of_ne_zero (mt byteLength_eq_zero_iff.1 empty)
    have found : slice? whole (byteLength a) (byteLength a + byteLength b) = some b :=
      slice?_eq_some_iff.2 ⟨a, c, eq, rfl, rfl⟩
    rw [if_pos (by omega), found]
    exact ⟨_, rfl, .single empty⟩

/-- The tokens given out behind the first bytes of a match tile the rest of the match. -/
theorem exists_groupTokens? (offset : Nat) (rest : List Char) {done left : List Char}
    {groups : List (Category × Option Span)}
    (eq : whole = done ++ left)
    (marks : ∀ g ∈ groups, ∀ span, g.2 = some span → span.Marks whole) :
    ∃ tokens, groupTokens? offset (whole ++ rest) whole (byteLength done) groups = some tokens ∧
      Tiling (offset + byteLength done) left tokens := by
  -- each group that counts moves the gap before it and its own text behind `done`
  induction groups generalizing done left with
  | nil =>
    -- what no group has taken is one last gap
    have last : byteLength whole = byteLength done + byteLength left := by
      rw [eq, byteLength_append]
    rw [groupTokens?, last]
    exact exists_gap? offset (c := []) (by simpa using eq)
  | cons g groups ih =>
    have later : ∀ g ∈ groups, ∀ span, g.2 = some span → span.Marks whole :=
      fun g mem => marks g (List.mem_cons_of_mem _ mem)
    obtain ⟨category, _ | span⟩ := g
    · exact ih eq later
    · rw [groupTokens?]
      split
      case isFalse => exact ih eq later
      case isTrue usable =>
        obtain ⟨a, b, c, whole_eq, start, stop⟩ := marks _ List.mem_cons_self span rfl
        have nonempty : b ≠ [] := by
          rintro rfl
          exact usable.1 (by rw [start, stop, byteLength_nil, Nat.add_zero])
        -- the group begins behind all that has been given out
        obtain ⟨between, rfl, rfl⟩ : ∃ e, a = done ++ e ∧ left = e ++ (b ++ c) :=
          exists_append_of_byteLength_le (by rw [← eq, whole_eq, List.append_assoc])
            (start ▸ usable.2)
        obtain ⟨gap, gap_eq, gap_tiling⟩ :=
          exists_gap? offset (eq.trans (List.append_assoc done between (b ++ c)).symm)
        have text : slice? (whole ++ rest) span.start span.stop = some b :=
          slice?_eq_some_iff.2 ⟨done ++ between, c ++ rest, by rw [whole_eq]; simp,
            start.symm, by rw [start, stop]⟩
        obtain ⟨tokens, tokens_eq, tiling⟩ := ih whole_eq later
        rw [← byteLength_append, ← start] at gap_eq
        rw [byteLength_append, ← stop] at tokens_eq
        refine ⟨gap ++ .ofText category (offset + span.start) b :: tokens, ?_, ?_⟩
        · rw [gap_eq, text, tokens_eq]
          rfl
        · refine gap_tiling.append ?_
          have here : offset + span.start = offset + byteLength done + byteLength between := by
            rw [start, byteLength_append, Nat.add_assoc]
          rw [here]
          refine .cons nonempty ?_
          rwa [byteLength_append, byteLength_append, ← Nat.add_assoc, ← Nat.add_assoc] at tiling

/-- Each token of some groups is one of a group, with its category, or plain text. -/
theorem category_of_mem_groupTokens? {s : List Char} {covered : Nat}
    {groups : List (Category × Option Span)} {tokens : List Token}
    (given : groupTokens? offset s whole covered groups = some tokens) :
    ∀ t ∈ tokens, t.category = .text ∨ t.category ∈ groups.map Prod.fst := by
  have plain {start stop : Nat} {tokens : List Token}
      (gap : gap? offset whole start stop = some tokens) : ∀ t ∈ tokens, t.category = .text := by
    intro t mem
    unfold gap? at gap
    split at gap
    · obtain ⟨text, -, rfl⟩ := Option.map_eq_some_iff.1 gap
      rw [List.mem_singleton.1 mem]
      rfl
    · cases gap
      cases mem
  induction groups generalizing covered tokens with
  | nil => exact fun t mem => .inl (plain given t mem)
  | cons g groups ih =>
    have later {covered : Nat} {tokens : List Token}
        (given : groupTokens? offset s whole covered groups = some tokens) :
        ∀ t ∈ tokens, t.category = .text ∨ t.category ∈ (g :: groups).map Prod.fst :=
      fun t mem => (ih given t mem).imp_right (List.mem_cons_of_mem _)
    obtain ⟨category, _ | span⟩ := g
    · exact later given
    · rw [groupTokens?] at given
      split at given
      case isFalse => exact later given
      case isTrue =>
        obtain ⟨gap, gap_eq, given⟩ := Option.bind_eq_some_iff.1 given
        obtain ⟨text, -, given⟩ := Option.bind_eq_some_iff.1 given
        obtain ⟨more, more_eq, given⟩ := Option.bind_eq_some_iff.1 given
        cases given
        intro t mem
        rcases List.mem_append.1 mem with mem | mem
        · exact .inl (plain gap_eq t mem)
        · rcases List.mem_cons.1 mem with rfl | mem
          · exact .inr List.mem_cons_self
          · exact later more_eq t mem

/-- Each token of a match has a category of the action, or is plain text between groups. -/
theorem category_of_mem_emission? {s : List Char} {action : Action} {found : Pattern.Found}
    {tokens : List Token} (emitted : emission? offset s action found = some tokens) :
    ∀ t ∈ tokens, t.category = .text ∨ t.category ∈ action.categories := by
  obtain ⟨whole, -, emitted⟩ := Option.bind_eq_some_iff.1 emitted
  cases action with
  | whole category =>
    cases emitted
    intro t mem
    rw [List.mem_singleton.1 mem]
    exact .inr List.mem_cons_self
  | byGroups categories =>
    intro t mem
    refine (category_of_mem_groupTokens? emitted t mem).imp_right fun listed => ?_
    -- a category of the list goes with a group of its own
    obtain ⟨g, memGroups, category⟩ := List.mem_map.1 listed
    exact category ▸ (List.of_mem_zip memGroups).1

/-- The text that a match fits is the one that its tokens are cut out of. -/
theorem slice?_of_fits {w : List Char} {found : Pattern.Found} (fits : found.Fits w) :
    slice? (w ++ rest) found.whole.start found.whole.stop = some w := by
  rw [fits.whole]
  exact slice?_eq_some_iff.2 ⟨[], rest, rfl, rfl, by rw [Nat.zero_add]⟩

theorem emission?_whole {w : List Char} {found : Pattern.Found} (category : Category)
    (fits : found.Fits w) :
    emission? offset (w ++ rest) (.whole category) found = some [.ofText category offset w] := by
  rw [emission?, slice?_of_fits fits]
  rfl

theorem emission?_whole_of_prefix {s w : List Char} {found : Pattern.Found} (category : Category)
    (beginning : w <+: s) (fits : found.Fits w) :
    emission? offset s (.whole category) found = some [.ofText category offset w] := by
  obtain ⟨rest, rfl⟩ := beginning
  exact emission?_whole category fits

/-- A match that fits a text gives tokens that tile this text. -/
theorem exists_emission? (offset : Nat) (rest : List Char) {w : List Char}
    {found : Pattern.Found} (action : Action) (fits : found.Fits w) (nonempty : w ≠ []) :
    ∃ tokens, emission? offset (w ++ rest) action found = some tokens ∧
      Tiling offset w tokens := by
  cases action with
  | whole category => exact ⟨_, emission?_whole category fits, .single nonempty⟩
  | byGroups categories =>
    have marks : ∀ g ∈ categories.zip found.groups, ∀ span, g.2 = some span → span.Marks w := by
      rintro ⟨category, group⟩ mem span rfl
      exact fits.marks span (List.of_mem_zip mem).2
    obtain ⟨tokens, tokens_eq, tiling⟩ :=
      exists_groupTokens? offset rest (List.nil_append w).symm marks
    refine ⟨tokens, ?_, by simpa using tiling⟩
    rw [emission?, slice?_of_fits fits]
    exact tokens_eq

end FancyTokens
