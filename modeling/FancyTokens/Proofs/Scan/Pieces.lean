import FancyTokens.Proofs.Scan.Emission
import Mathlib.Data.List.Chain
import Mathlib.Data.List.Forall2
import Mathlib.Data.List.Zip
import Mathlib.Data.List.Nodup

/-!
# The pieces of a match

The loop over the groups of a match remembers only how much of the match it has given out. What it
does with groups that are nested, that overlap or that stand in another order than their numbers is
said here without that memory: a group is left out if and only if it begins before the end of one
that has been taken before it, and what no group takes lies in gaps of which no two touch
(`Divides`). The pieces are those of `pieces`, which goes over the groups as the loop does;
`groups_divide_match` puts together what has been shown of them.
-/

namespace FancyTokens

/-! ## Pieces -/

/-- A piece of a match, between two bytes of it. -/
inductive Piece
  /-- What the group of a number holds, with the category that is listed for it. -/
  | group (number : Nat) (category : Category) (span : Span)
  /-- What no group takes. -/
  | gap (span : Span)
deriving DecidableEq, Repr

namespace Piece

def span : Piece → Span
  | group _ _ span => span
  | gap span => span

/-- The category of a piece; gaps are plain text. -/
def category : Piece → Category
  | group _ category _ => category
  | gap _ => .text

/-- The number of the group that a piece holds. -/
def number? : Piece → Option Nat
  | group number _ _ => some number
  | gap _ => none

/-- The token is the piece of a match that begins at the offset. -/
def IsToken (offset : Nat) (w : List Char) (piece : Piece) (t : Token) : Prop :=
  ∃ text, slice? w piece.span.start piece.span.stop = some text ∧
    t = .ofText piece.category (offset + piece.span.start) text

/-- The first piece stands before the second one, and the number of its group is lower. -/
def Before (p q : Piece) : Prop :=
  p.span.stop ≤ q.span.start ∧ ∀ i ∈ p.number?, ∀ j ∈ q.number?, i < j

end Piece

/-- The group of a number has a category in the list, and it holds something. -/
structure Usable (categories : List Category) (groups : Regex.Captures) (number : Nat)
    (category : Category) (span : Span) : Prop where
  listed : categories[number]? = some category
  holds : groups[number]? = some (some span)
  nonempty : span.start ≠ span.stop

/-- The groups of a match of some bytes divide it into the pieces. -/
structure Divides (categories : List Category) (groups : Regex.Captures) (size : Nat)
    (pieces : List Piece) : Prop where
  usable : ∀ number category span, .group number category span ∈ pieces →
    Usable categories groups number category span
  nonempty : ∀ p ∈ pieces, p.span.start < p.span.stop
  before : pieces.Pairwise Piece.Before
  apart : pieces.IsChain fun p q => p.number? ≠ none ∨ q.number? ≠ none
  /-- A gap goes from the start of the match or the end of a group that has been taken to the start
  of such a group or the end of the match. -/
  bounds : ∀ span, .gap span ∈ pieces →
    (span.start = 0 ∨ ∃ p ∈ pieces, p.number? ≠ none ∧ p.span.stop = span.start) ∧
      (span.stop = size ∨ ∃ p ∈ pieces, p.number? ≠ none ∧ p.span.start = span.stop)
  left_out : ∀ number category span, Usable categories groups number category span →
    (.group number category span ∉ pieces ↔ ∃ number' category' span',
      .group number' category' span' ∈ pieces ∧ number' < number ∧ span.start < span'.stop)

/-- The gap between two bytes of a match, unless they leave nothing between them. -/
def gapPieces (start stop : Nat) : List Piece :=
  if start < stop then [.gap ⟨start, stop⟩] else []

/-- The pieces of a match of some bytes, of which the first `covered` have been given out, for some
groups with their categories and numbers. -/
def pieces (size : Nat) : (covered : Nat) → List ((Category × Option Span) × Nat) → List Piece
  | covered, [] => gapPieces covered size
  | covered, ((category, some span), number) :: groups =>
    if span.start ≠ span.stop ∧ covered ≤ span.start then
      gapPieces covered span.start ++ .group number category span :: pieces size span.stop groups
    else pieces size covered groups
  | covered, ((_, none), _) :: groups => pieces size covered groups

variable {offset size covered number : Nat} {w rest : List Char} {category : Category} {span : Span}
  {categories : List Category} {captures : Regex.Captures} {p : Piece} {tokens : List Token}

/-! ## The tokens of the pieces -/

theorem mem_gapPieces {start stop : Nat} :
    p ∈ gapPieces start stop ↔ start < stop ∧ p = .gap ⟨start, stop⟩ := by
  unfold gapPieces
  by_cases lt : start < stop
  · rw [if_pos lt, List.mem_singleton, and_iff_right lt]
  · rw [if_neg lt]
    exact iff_of_false List.not_mem_nil fun h => lt h.1

theorem before_gapPieces (start stop : Nat) : (gapPieces start stop).Pairwise Piece.Before := by
  unfold gapPieces
  split
  · exact List.pairwise_singleton _ _
  · exact .nil

theorem isToken_of_gap? {start stop : Nat} (given : gap? offset w start stop = some tokens) :
    List.Forall₂ (Piece.IsToken offset w) (gapPieces start stop) tokens := by
  unfold gap? at given
  unfold gapPieces
  by_cases lt : start < stop
  · rw [if_pos lt] at given ⊢
    obtain ⟨text, slice, rfl⟩ := Option.map_eq_some_iff.1 given
    exact .cons ⟨text, slice, rfl⟩ .nil
  · rw [if_neg lt] at given ⊢
    cases given
    exact .nil

/-- What a mark of a match cuts out of the text, it cuts out of the match. -/
theorem Span.Marks.slice?_append (marks : span.Marks w) (rest : List Char) :
    slice? (w ++ rest) span.start span.stop = slice? w span.start span.stop := by
  obtain ⟨a, b, c, rfl, start, stop⟩ := marks
  have inside : slice? (a ++ b ++ c) span.start span.stop = some b :=
    slice?_eq_some_iff.2 ⟨a, c, rfl, start.symm, by rw [start, stop]⟩
  rw [inside]
  exact slice?_eq_some_iff.2 ⟨a, c ++ rest, by simp, start.symm, by rw [start, stop]⟩

theorem Span.Marks.start_le_stop (marks : span.Marks w) : span.start ≤ span.stop := by
  obtain ⟨a, b, c, -, start, stop⟩ := marks
  omega

/-- The loop over the groups gives a token for each piece. -/
theorem isToken_of_groupTokens? {groups : List (Category × Option Span)}
    (marks : ∀ g ∈ groups, ∀ span, g.2 = some span → span.Marks w)
    (given : groupTokens? offset (w ++ rest) w covered groups = some tokens) (number : Nat) :
    List.Forall₂ (Piece.IsToken offset w)
      (pieces (byteLength w) covered (groups.zipIdx number)) tokens := by
  induction groups generalizing covered tokens number with
  | nil => exact isToken_of_gap? given
  | cons g groups ih =>
    have later : ∀ g ∈ groups, ∀ span, g.2 = some span → span.Marks w :=
      fun g mem => marks g (List.mem_cons_of_mem _ mem)
    obtain ⟨category, _ | span⟩ := g
    · exact ih later given (number + 1)
    · rw [groupTokens?] at given
      rw [List.zipIdx_cons, pieces]
      by_cases usable : span.start ≠ span.stop ∧ covered ≤ span.start
      · rw [if_pos usable] at given ⊢
        obtain ⟨gap, gap_eq, given⟩ := Option.bind_eq_some_iff.1 given
        obtain ⟨text, slice, given⟩ := Option.bind_eq_some_iff.1 given
        obtain ⟨more, more_eq, given⟩ := Option.bind_eq_some_iff.1 given
        cases given
        rw [(marks _ List.mem_cons_self span rfl).slice?_append] at slice
        exact List.rel_append (isToken_of_gap? gap_eq)
          (.cons ⟨text, slice, rfl⟩ (ih later more_eq (number + 1)))
      · rw [if_neg usable] at given ⊢
        exact ih later given (number + 1)

/-! ## What the pieces are -/

section Arrangement

variable {groups : List ((Category × Option Span) × Nat)}

/-- The group among some pieces, or one of those behind it. -/
theorem group_mem_append_cons {start stop number' : Nat} {category' : Category} {span' : Span}
    {more : List Piece} :
    .group number category span ∈ gapPieces start stop ++ .group number' category' span' :: more ↔
      (number = number' ∧ category = category' ∧ span = span') ∨
        .group number category span ∈ more := by
  rw [List.mem_append, List.mem_cons, mem_gapPieces, Piece.group.injEq]
  exact or_iff_right fun gap => by cases gap.2

theorem usable_of_mem_pieces (mem : .group number category span ∈ pieces size covered groups) :
    ((category, some span), number) ∈ groups ∧ span.start ≠ span.stop := by
  fun_induction pieces size covered groups with
  | case1 covered => cases (mem_gapPieces.1 mem).2
  | case2 covered category' span' number' groups usable ih =>
    rcases group_mem_append_cons.1 mem with ⟨rfl, rfl, rfl⟩ | mem
    · exact ⟨List.mem_cons_self, usable.1⟩
    · exact (ih mem).imp_left (List.mem_cons_of_mem _)
  | case3 covered category' span' number' groups unusable ih =>
    exact (ih mem).imp_left (List.mem_cons_of_mem _)
  | case4 covered category' number' groups ih => exact (ih mem).imp_left (List.mem_cons_of_mem _)

/-- The numbers of the pieces are those of the groups. -/
theorem exists_of_mem_number? (mem : p ∈ pieces size covered groups) (is : number ∈ p.number?) :
    ∃ g ∈ groups, g.2 = number := by
  cases p with
  | gap => cases is
  | group number' category span =>
    cases is
    exact ⟨_, (usable_of_mem_pieces mem).1, rfl⟩

/-- A group stands on one side of each gap at least, if the gap has anything there. -/
theorem apart_pieces (size covered : Nat) (groups : List ((Category × Option Span) × Nat)) :
    (pieces size covered groups).IsChain fun p q => p.number? ≠ none ∨ q.number? ≠ none := by
  fun_induction pieces size covered groups with
  | case1 covered =>
    unfold gapPieces
    split
    · exact .singleton _
    · exact .nil
  | case2 covered category span number groups usable ih =>
    have tail : (Piece.group number category span :: pieces size span.stop groups).IsChain
        fun p q => p.number? ≠ none ∨ q.number? ≠ none :=
      List.isChain_cons.2 ⟨fun _ _ => .inl nofun, ih⟩
    unfold gapPieces
    split
    · exact .cons_cons (.inr nofun) tail
    · exact tail
  | case3 covered category span number groups unusable ih => exact ih
  | case4 covered category number groups ih => exact ih

/-- Where a gap begins and ends. -/
theorem bounds_of_gap_mem_pieces (mem : .gap span ∈ pieces size covered groups) :
    (span.start = covered ∨ ∃ p ∈ pieces size covered groups, p.number? ≠ none ∧
      p.span.stop = span.start) ∧
      (span.stop = size ∨ ∃ p ∈ pieces size covered groups, p.number? ≠ none ∧
        p.span.start = span.stop) := by
  fun_induction pieces size covered groups with
  | case1 covered =>
    cases (mem_gapPieces.1 mem).2
    exact ⟨.inl rfl, .inl rfl⟩
  | case2 covered category span' number groups usable ih =>
    have taken : Piece.group number category span' ∈ gapPieces covered span'.start ++
        .group number category span' :: pieces size span'.stop groups :=
      List.mem_append_right _ List.mem_cons_self
    rcases List.mem_append.1 mem with gap | mem
    · cases (mem_gapPieces.1 gap).2
      exact ⟨.inl rfl, .inr ⟨_, taken, nofun, rfl⟩⟩
    · have behind := (List.mem_cons.1 mem).resolve_left nofun
      have later {p : Piece} (mem : p ∈ pieces size span'.stop groups) :
          p ∈ gapPieces covered span'.start ++
            .group number category span' :: pieces size span'.stop groups :=
        List.mem_append_right _ (List.mem_cons_of_mem _ mem)
      obtain ⟨start, stop⟩ := ih behind
      refine ⟨.inr ?_, stop.imp_right fun ⟨q, memQ, stop⟩ => ⟨q, later memQ, stop⟩⟩
      rcases start with start | ⟨p, memP, start⟩
      · exact ⟨_, taken, nofun, start.symm⟩
      · exact ⟨p, later memP, start⟩
  | case3 covered category span' number groups unusable ih => exact ih mem
  | case4 covered category number groups ih => exact ih mem

/-- Groups that hold nothing leave one gap. -/
theorem pieces_of_unusable
    (unusable : ∀ g ∈ groups, ∀ span, g.1.2 = some span → span.start = span.stop) :
    pieces size covered groups = gapPieces covered size := by
  fun_induction pieces size covered groups with
  | case1 covered => rfl
  | case2 covered category span number groups usable ih =>
    exact absurd (unusable _ List.mem_cons_self span rfl) usable.1
  | case3 covered category span number groups _ ih =>
    exact ih (List.forall_mem_cons.1 unusable).2
  | case4 covered category number groups ih => exact ih (List.forall_mem_cons.1 unusable).2

variable (ordered : ∀ g ∈ groups, ∀ span, g.1.2 = some span → span.start ≤ span.stop)
include ordered

/-- No piece is empty, and each begins behind what has been given out. -/
theorem span_of_mem_pieces (mem : p ∈ pieces size covered groups) :
    covered ≤ p.span.start ∧ p.span.start < p.span.stop := by
  fun_induction pieces size covered groups with
  | case1 covered =>
    obtain ⟨lt, rfl⟩ := mem_gapPieces.1 mem
    exact ⟨Nat.le_refl _, lt⟩
  | case2 covered category span number groups usable ih =>
    obtain ⟨first, later⟩ := List.forall_mem_cons.1 ordered
    have le : span.start ≤ span.stop := first span rfl
    rcases List.mem_append.1 mem with gap | mem
    · obtain ⟨lt, rfl⟩ := mem_gapPieces.1 gap
      exact ⟨Nat.le_refl _, lt⟩
    · rcases List.mem_cons.1 mem with rfl | mem
      · exact ⟨usable.2, Nat.lt_of_le_of_ne le usable.1⟩
      · obtain ⟨behind, lt⟩ := ih later mem
        exact ⟨by omega, lt⟩
  | case3 covered category span number groups unusable ih =>
    exact ih (List.forall_mem_cons.1 ordered).2 mem
  | case4 covered category number groups ih => exact ih (List.forall_mem_cons.1 ordered).2 mem

/-- The pieces stand in the order in which they are in the match, and so do the groups by number. -/
theorem before_pieces (increasing : groups.Pairwise (·.2 < ·.2)) :
    (pieces size covered groups).Pairwise Piece.Before := by
  fun_induction pieces size covered groups with
  | case1 covered => exact before_gapPieces covered size
  | case2 covered category span number groups usable ih =>
    obtain ⟨first, later⟩ := List.forall_mem_cons.1 ordered
    obtain ⟨lowest, increasing⟩ := List.pairwise_cons.1 increasing
    have le : span.start ≤ span.stop := first span rfl
    rw [List.pairwise_append, List.pairwise_cons]
    refine ⟨before_gapPieces covered span.start, ⟨?_, ih later increasing⟩, ?_⟩
    · intro q mem
      refine ⟨(span_of_mem_pieces later mem).1, ?_⟩
      rintro i is j is'
      obtain ⟨g, memGroups, rfl⟩ := exists_of_mem_number? mem is'
      cases is
      exact lowest g memGroups
    · intro p gap q mem
      obtain ⟨-, rfl⟩ := mem_gapPieces.1 gap
      refine ⟨?_, nofun⟩
      rcases List.mem_cons.1 mem with rfl | mem
      · exact Nat.le_refl _
      · exact Nat.le_trans le (span_of_mem_pieces later mem).1
  | case3 covered category span number groups unusable ih =>
    exact ih (List.forall_mem_cons.1 ordered).2 (List.pairwise_cons.1 increasing).2
  | case4 covered category number groups ih =>
    exact ih (List.forall_mem_cons.1 ordered).2 (List.pairwise_cons.1 increasing).2

/-- A group that holds something is left out if and only if it begins before the end of what has
been given out, or before the end of a group that is taken before it. -/
theorem group_notMem_pieces_iff (increasing : groups.Pairwise (·.2 < ·.2))
    (mem : ((category, some span), number) ∈ groups) (nonempty : span.start ≠ span.stop) :
    .group number category span ∉ pieces size covered groups ↔
      span.start < covered ∨ ∃ number' category' span',
        .group number' category' span' ∈ pieces size covered groups ∧ number' < number ∧
          span.start < span'.stop := by
  -- the first group of the list is taken or not; a later one meets what that has left
  fun_induction pieces size covered groups with
  | case1 covered => cases mem
  | case2 covered category₀ span₀ number₀ groups usable ih =>
    obtain ⟨first, later⟩ := List.forall_mem_cons.1 ordered
    obtain ⟨lowest, increasing⟩ := List.pairwise_cons.1 increasing
    have le : span₀.start ≤ span₀.stop := first span₀ rfl
    simp only [group_mem_append_cons]
    rcases List.mem_cons.1 mem with eq | mem
    · cases eq
      refine iff_of_false (fun out => out (.inl ⟨rfl, rfl, rfl⟩)) ?_
      rintro (less | ⟨number', category', span', ⟨rfl, -, -⟩ | taken, lower, -⟩)
      · omega
      · omega
      · have higher := lowest _ (usable_of_mem_pieces taken).1
        dsimp only at higher
        omega
    · have lower : number₀ < number := lowest _ mem
      have other : ¬ (number = number₀ ∧ category = category₀ ∧ span = span₀) :=
        fun eq => by omega
      rw [or_iff_right other, ih later increasing mem]
      constructor
      · rintro (less | ⟨number', category', span', taken, fewer, less⟩)
        · exact .inr ⟨number₀, category₀, span₀, .inl ⟨rfl, rfl, rfl⟩, lower, less⟩
        · exact .inr ⟨number', category', span', .inr taken, fewer, less⟩
      · rintro (less | ⟨number', category', span', ⟨-, -, rfl⟩ | taken, fewer, less⟩)
        · exact .inl (by omega)
        · exact .inl less
        · exact .inr ⟨number', category', span', taken, fewer, less⟩
  | case3 covered category₀ span₀ number₀ groups unusable ih =>
    obtain ⟨-, later⟩ := List.forall_mem_cons.1 ordered
    obtain ⟨lowest, increasing⟩ := List.pairwise_cons.1 increasing
    rcases List.mem_cons.1 mem with eq | mem
    · cases eq
      refine iff_of_true (fun taken => ?_) (.inl ?_)
      · exact Nat.lt_irrefl _ (lowest _ (usable_of_mem_pieces taken).1)
      · by_contra behind
        exact unusable ⟨nonempty, Nat.le_of_not_lt behind⟩
    · exact ih later increasing mem
  | case4 covered category₀ number₀ groups ih =>
    obtain ⟨-, later⟩ := List.forall_mem_cons.1 ordered
    obtain ⟨-, increasing⟩ := List.pairwise_cons.1 increasing
    rcases List.mem_cons.1 mem with eq | mem
    · cases eq
    · exact ih later increasing mem

end Arrangement

/-! ## The groups of a match -/

theorem mem_zipIdx_zip {group : Option Span} :
    ((category, group), number) ∈ (categories.zip captures).zipIdx ↔
      categories[number]? = some category ∧ captures[number]? = some group := by
  rw [List.mem_zipIdx_iff_getElem?, List.getElem?_zip_eq_some]

theorem pairwise_zipIdx {α : Type} (l : List α) : l.zipIdx.Pairwise (·.2 < ·.2) := by
  rw [← List.pairwise_map (f := Prod.snd), List.zipIdx_map_snd]
  exact List.pairwise_lt_range'

/-- The pieces of a match are those into which its groups divide it. -/
theorem divides_pieces (categories : List Category) {found : Pattern.Found} (fits : found.Fits w) :
    Divides categories found.groups (byteLength w)
      (pieces (byteLength w) 0 (categories.zip found.groups).zipIdx) := by
  have ordered : ∀ g ∈ (categories.zip found.groups).zipIdx, ∀ span, g.1.2 = some span →
      span.start ≤ span.stop := by
    rintro ⟨⟨category, group⟩, number⟩ mem span rfl
    have holds := (mem_zipIdx_zip.1 mem).2
    exact (fits.marks span (List.mem_of_getElem? holds)).start_le_stop
  have increasing := pairwise_zipIdx (categories.zip found.groups)
  constructor
  case usable =>
    intro number category span mem
    obtain ⟨mem, nonempty⟩ := usable_of_mem_pieces mem
    obtain ⟨listed, holds⟩ := mem_zipIdx_zip.1 mem
    exact ⟨listed, holds, nonempty⟩
  case nonempty => exact fun p mem => (span_of_mem_pieces ordered mem).2
  case before => exact before_pieces ordered increasing
  case apart => exact apart_pieces _ _ _
  case bounds => exact fun span mem => bounds_of_gap_mem_pieces mem
  case left_out =>
    intro number category span usable
    have mem := mem_zipIdx_zip.2 ⟨usable.listed, usable.holds⟩
    rw [group_notMem_pieces_iff ordered increasing mem usable.nonempty]
    exact or_iff_right (Nat.not_lt_zero _)

/-- Groups in order, of which none begins before the end of another, are all taken, once each. -/
theorem Divides.count_eq_one {ps : List Piece} (h : Divides categories captures size ps)
    (apart : ∀ number category span number' category' span',
      Usable categories captures number category span →
      Usable categories captures number' category' span' → number < number' →
      span.stop ≤ span'.start)
    (usable : Usable categories captures number category span) :
    ps.count (.group number category span) = 1 := by
  have distinct : ps.Nodup := by
    refine h.before.imp_of_mem fun {p q} mem _ before eq => ?_
    have long := h.nonempty p mem
    have behind := before.1
    rw [← eq] at behind
    omega
  have taken : .group number category span ∈ ps := by
    by_contra out
    obtain ⟨number', category', span', taken, lower, less⟩ :=
      (h.left_out number category span usable).1 out
    have behind := apart _ _ _ _ _ _ (h.usable _ _ _ taken) usable lower
    omega
  exact List.count_eq_one_of_mem distinct taken

/-- Without groups that hold anything the match is one token. -/
theorem eq_of_isToken_gapPieces (nonempty : w ≠ [])
    (h : List.Forall₂ (Piece.IsToken offset w) (gapPieces 0 (byteLength w)) tokens) :
    tokens = [.ofText .text offset w] := by
  have pos : 0 < byteLength w := Nat.pos_of_ne_zero (mt byteLength_eq_zero_iff.1 nonempty)
  have all : slice? w 0 (byteLength w) = some w :=
    slice?_eq_some_iff.2 ⟨[], [], (List.append_nil w).symm, rfl, Nat.zero_add _⟩
  rw [gapPieces, if_pos pos] at h
  cases h with
  | cons first none =>
    obtain ⟨text, slice, rfl⟩ := first
    cases none
    obtain rfl := Option.some.inj (all.symm.trans slice)
    rfl

theorem emission?_byGroups {found : Pattern.Found} (fits : found.Fits w) :
    emission? offset (w ++ rest) (.byGroups categories) found =
      groupTokens? offset (w ++ rest) w 0 (categories.zip found.groups) := by
  rw [emission?, slice?_of_fits fits]
  rfl

/-- Groups that have no category do not matter. -/
theorem emission?_congr_groups {found : Pattern.Found} {s : List Char} {groups : Regex.Captures}
    (same : groups.take categories.length = found.groups.take categories.length) :
    emission? offset s (.byGroups categories) { found with groups } =
      emission? offset s (.byGroups categories) found := by
  have listed (groups : Regex.Captures) :
      categories.zip groups = categories.zip (groups.take categories.length) := by
    have cut (groups : Regex.Captures) : categories.zip groups =
        (categories.take (min categories.length groups.length)).zip
          (groups.take (min categories.length groups.length)) := List.zip_eq_zip_take_min
    rw [cut groups, cut (groups.take categories.length), List.length_take, List.take_take]
    simp
  simp only [emission?]
  rw [listed groups, same, ← listed]

/-- The groups of a match, wherever in it they are, divide it into pieces of which each gives its
token. Groups in order, of which none begins before the end of another, give one token each, and a
match without groups that hold anything gives one of plain text. Groups behind those of the listed
categories make no difference. -/
theorem groups_divide_match {found : Pattern.Found} (fits : found.Fits w)
    (categories : List Category) (offset : Nat) (rest : List Char) :
    (∃ tokens pieces,
      emission? offset (w ++ rest) (.byGroups categories) found = some tokens ∧
      Tiling offset w tokens ∧ List.Forall₂ (Piece.IsToken offset w) pieces tokens ∧
      Divides categories found.groups (byteLength w) pieces ∧
      ((∀ number category span number' category' span',
          Usable categories found.groups number category span →
          Usable categories found.groups number' category' span' → number < number' →
          span.stop ≤ span'.start) →
        ∀ number category span, Usable categories found.groups number category span →
          pieces.count (.group number category span) = 1) ∧
      ((∀ number category span, ¬ Usable categories found.groups number category span) →
        w ≠ [] → tokens = [.ofText .text offset w])) ∧
      ∀ groups, groups.take categories.length = found.groups.take categories.length →
        emission? offset (w ++ rest) (.byGroups categories) { found with groups } =
          emission? offset (w ++ rest) (.byGroups categories) found := by
  have marks : ∀ g ∈ categories.zip found.groups, ∀ span, g.2 = some span → span.Marks w := by
    rintro ⟨category, group⟩ mem span rfl
    exact fits.marks span (List.of_mem_zip mem).2
  obtain ⟨tokens, given, tiling⟩ := exists_groupTokens? offset rest (List.nil_append w).symm marks
  have shown := isToken_of_groupTokens? marks given 0
  have divides := divides_pieces categories fits
  refine ⟨⟨tokens, _, (emission?_byGroups fits).trans given, tiling, shown, divides, ?_, ?_⟩, ?_⟩
  · intro apart number category span usable
    exact divides.count_eq_one apart usable
  · intro unusable nonempty
    rw [pieces_of_unusable] at shown
    · exact eq_of_isToken_gapPieces nonempty shown
    · rintro ⟨⟨category, group⟩, number⟩ mem span rfl
      obtain ⟨listed, holds⟩ := mem_zipIdx_zip.1 mem
      by_contra nonempty
      exact unusable number category span ⟨listed, holds, nonempty⟩
  · exact fun groups same => emission?_congr_groups same

/-- The second of three listed groups begins before the end of the first, the third one is part of
it, and the fourth has no category. -/
theorem groups_divide_match_overlapping :
    Pattern.Found.Fits ⟨⟨0, 6⟩, [some ⟨2, 4⟩, some ⟨0, 3⟩, some ⟨3, 4⟩, some ⟨5, 6⟩]⟩
        "abcdef".toList ∧
      ∃ pieces, List.Forall₂ (Piece.IsToken 0 "abcdef".toList) pieces
          [.ofText .text 0 "ab".toList, .ofText .keyword 2 "cd".toList,
            .ofText .text 4 "ef".toList] ∧
        Divides [.keyword, .name, .operator]
          [some ⟨2, 4⟩, some ⟨0, 3⟩, some ⟨3, 4⟩, some ⟨5, 6⟩] 6 pieces := by
  have fits : Pattern.Found.Fits
      ⟨⟨0, 6⟩, [some ⟨2, 4⟩, some ⟨0, 3⟩, some ⟨3, 4⟩, some ⟨5, 6⟩]⟩ "abcdef".toList := by
    refine ⟨rfl, ?_⟩
    intro span mem
    simp only [List.mem_cons, Option.some.injEq, List.not_mem_nil, or_false] at mem
    obtain rfl | rfl | rfl | rfl := mem
    · exact ⟨['a', 'b'], ['c', 'd'], ['e', 'f'], rfl, rfl, rfl⟩
    · exact ⟨[], ['a', 'b', 'c'], ['d', 'e', 'f'], rfl, rfl, rfl⟩
    · exact ⟨['a', 'b', 'c'], ['d'], ['e', 'f'], rfl, rfl, rfl⟩
    · exact ⟨['a', 'b', 'c', 'd', 'e'], ['f'], [], rfl, rfl, rfl⟩
  obtain ⟨⟨tokens, pieces, given, -, shown, divides, -⟩, -⟩ :=
    groups_divide_match fits [.keyword, .name, .operator] 0 []
  have three : emission? 0 "abcdef".toList (.byGroups [.keyword, .name, .operator])
      ⟨⟨0, 6⟩, [some ⟨2, 4⟩, some ⟨0, 3⟩, some ⟨3, 4⟩, some ⟨5, 6⟩]⟩ =
      some [.ofText .text 0 "ab".toList, .ofText .keyword 2 "cd".toList,
        .ofText .text 4 "ef".toList] := by
    decide
  obtain rfl := Option.some.inj (given.symm.trans three)
  exact ⟨fits, pieces, shown, divides⟩

end FancyTokens
