import FancyTokens.Proofs.Regex.Language
import FancyTokens.Regex.Reader

/-!
# Anchored patterns

The anchor is put in front of a pattern as text. Inside the anchor's group a pattern is read just as
it is read alone, because the reader never looks below the groups that the pattern itself has opened
(`readFrom?_within`), unless the pattern closes the anchor's group itself. So a pattern that is well
formed by itself stands behind the anchor with its own expression (`Pattern.readAnchored?_of_read?`),
and one that can be read behind the anchor is well formed by itself unless it ends the anchor
(`Pattern.isSome_read?_iff`).
-/

namespace FancyTokens
namespace Regex
namespace Reader

/-- The state with further open groups around all others. -/
def State.within (st : State) (frames : List Frame) : State :=
  { st with outer := st.outer ++ frames }

variable {st st' : State} {c : Char} (frames : List Frame)

/-! ## One character inside further groups -/

theorem closeGroup?_within (inner : st.outer ≠ []) :
    (st.within frames).closeGroup? = st.closeGroup?.map (·.within frames) := by
  obtain ⟨frame, outer, eq⟩ := List.exists_cons_of_ne_nil inner
  simp [State.closeGroup?, State.within, eq]

theorem retake?_within (next : Regex → Pending) :
    (st.within frames).retake? next = (st.retake? next).map (·.within frames) := by
  unfold State.retake?
  simp only [State.within]
  split <;> rfl

theorem settle_within : (st.within frames).settle = st.settle.within frames := by
  unfold State.settle
  simp only [State.within]
  split <;> rfl

theorem readPart?_within (h : c = ')' → st.outer ≠ []) :
    readPart? (st.within frames) c = (readPart? st c).map (·.within frames) := by
  unfold readPart?
  split
  case h_2 => exact closeGroup?_within frames (h rfl)
  case h_9 | h_10 | h_11 | h_12 => exact retake?_within frames _
  all_goals rfl

theorem readClassBody?_within (k : OpenClass) :
    readClassBody? (st.within frames) k c = (readClassBody? st k c).map (·.within frames) := by
  unfold readClassBody?
  split
  case h_4 => split <;> rfl
  case h_5 => split <;> rfl
  all_goals rfl

theorem closeRange?_within (k : OpenClass) (low high : Char) :
    closeRange? (st.within frames) k low high =
      (closeRange? st k low high).map (·.within frames) := by
  unfold closeRange?
  split <;> rfl

/-- A character does to the reader inside further groups what it does without them, unless it is a
parenthesis behind a pattern that could end there. -/
theorem read?_within (h : c = ')' → finish? st = none) :
    read? (st.within frames) c = (read? st c).map (·.within frames) := by
  have pending : (st.within frames).pending = st.pending := rfl
  have inner : c = ')' → st.settle.pending = .part → st.settle.outer ≠ [] := by
    intro closes part outer
    have unfinished := h closes
    rw [finish?, if_pos ⟨part, outer⟩] at unfinished
    cases unfinished
  unfold read?
  rw [pending]
  cases hp : st.pending <;> simp only
  case part =>
    have same : st.settle = st := by simp [State.settle, hp]
    rw [same] at inner
    exact readPart?_within frames fun closes => inner closes hp
  case repetition body count =>
    have part : st.settle.pending = .part := by simp [State.settle, hp, State.push]
    rw [settle_within, readPart?_within frames fun closes => inner closes part]
    split <;> rfl
  case countLow body digits =>
    split
    · rfl
    · rfl
    · rw [Option.map_map]
      rfl
  case countHigh body low digits =>
    split
    · rfl
    · split <;> rfl
    · rw [Option.map_map]
      rfl
  case escape =>
    rw [Option.map_map]
    rfl
  case groupStart =>
    have nonempty : st.openCapture.outer ≠ [] := List.cons_ne_nil _ _
    have opened := readPart?_within (c := c) frames fun _ => nonempty
    split
    · rfl
    · exact opened
  case groupKind => split <;> rfl
  case classStart =>
    rw [readClassBody?_within]
    split
    · rfl
    · split
      · rfl
      · split <;> rfl
  case classHead k =>
    rw [readClassBody?_within]
    split
    · rfl
    · split <;> rfl
  case classBody k => exact readClassBody?_within frames k
  case classEscape k =>
    split
    · rfl
    · rw [Option.map_map]
      rfl
  case classDash k =>
    rw [readClassBody?_within]
    split
    · rfl
    · split <;> rfl
  case classRange k low =>
    split
    · rfl
    · rfl
    · rfl
    · rfl
    · exact closeRange?_within frames _ _ _
  case classRangeEscape k low =>
    rw [Option.map_bind]
    exact congrArg _ (funext fun high => closeRange?_within frames k low high)

/-- A parenthesis closes the innermost group where a part may start or a repetition may end. -/
theorem read?_parenthesis (part : st.settle.pending = .part) :
    read? st ')' = st.settle.closeGroup? := by
  unfold read?
  cases hp : st.pending with
  | part =>
    have same : st.settle = st := by simp [State.settle, hp]
    rw [same]
    rfl
  | repetition body count => rfl
  | _ => simp [State.settle, hp] at part

/-- A pattern that goes on with a parenthesis could not end before it. -/
theorem finish?_eq_none_of_read? (h : read? st ')' = some st') : finish? st = none := by
  refine if_neg fun ⟨part, outer⟩ => ?_
  rw [read?_parenthesis part, State.closeGroup?, outer] at h
  cases h

/-! ## Whole patterns -/

/-- A text does to the reader inside further groups what it does without them, unless a beginning of
it is a pattern and a parenthesis follows. -/
theorem readFrom?_within {s : List Char}
    (h : ∀ a b, s = a ++ ')' :: b → (readFrom? st a).bind finish? = none) :
    readFrom? (st.within frames) s = (readFrom? st s).map (·.within frames) := by
  induction s generalizing st with
  | nil => rfl
  | cons c s ih =>
    have first : c = ')' → finish? st = none := by
      rintro rfl
      exact h [] s rfl
    rw [readFrom?, readFrom?, read?_within frames first, Option.bind_map, Option.map_bind]
    cases read : read? st c with
    | none => rfl
    | some st₁ =>
      refine ih fun a b eq => ?_
      have later := h (c :: a) b (by rw [eq, List.cons_append])
      rwa [readFrom?, read] at later

/-- In a text that the reader takes, no beginning could be the pattern before a parenthesis. -/
theorem bind_finish?_eq_none {s a b : List Char} (h : readFrom? st s = some st')
    (eq : s = a ++ ')' :: b) : (readFrom? st a).bind finish? = none := by
  rw [eq, readFrom_append] at h
  obtain ⟨st₁, read, h⟩ := Option.bind_eq_some_iff.1 h
  obtain ⟨st₂, closes, -⟩ := Option.bind_eq_some_iff.1 h
  rw [read, Option.bind_some, finish?_eq_none_of_read? closes]

/-- The state behind the anchor: one group is open around the pattern, and the start of the text
has been read before it. -/
theorem readFrom?_anchor : readFrom? .initial "\\A(?:".toList =
    some (State.initial.within [(Frame.opened none).push .textStart]) := by
  decide

/-- The end of the anchor's group closes a pattern that could end there. -/
theorem read?_close (frame : Frame) (part : st.settle.pending = .part)
    (closed : st.settle.outer = []) : read? (st.within [frame]) ')' =
      some ⟨.part, frame.push st.settle.frame.finished, [], st.settle.groups⟩ := by
  have settled : (st.within [frame]).settle.pending = .part := by
    rw [settle_within]
    exact part
  rw [read?_parenthesis settled, settle_within]
  simp [State.closeGroup?, State.within, closed]

theorem followedBy_empty (r : Regex) : r.followedBy .empty = r := by
  cases r <;> rfl

/-- What an expression in the anchor's group makes of the whole pattern. -/
theorem finish?_anchored (r : Regex) (groups : Nat) :
    finish? ⟨.part, ((Frame.opened none).push .textStart).push r, [], groups⟩ =
      some ⟨followedBy .textStart r, groups⟩ := by
  have whole : ofReversed [r, .textStart] = followedBy .textStart r := by
    rw [ofReversed, List.foldl_cons, List.foldl_cons, List.foldl_nil, followedBy_empty]
  simp [finish?, State.settle, Frame.finished, Frame.body, Frame.opened, Frame.push, whole]

end Reader

/-- An expression behind the start of the text is anchored. -/
theorem anchored_textStart_followedBy (r : Regex) : (followedBy .textStart r).anchored = true := by
  cases r <;> rfl

end Regex

namespace Pattern

open Regex Regex.Reader

/-- The pattern closes the group of an anchor itself: one of its beginnings is a pattern, and a
parenthesis follows. -/
def EndsAnchor (s : List Char) : Prop :=
  ∃ a b, s = a ++ ')' :: b ∧ (Pattern.read? a).isSome = true

/-- A pattern that is well formed by itself is read behind its anchor as it is read alone. -/
theorem readAnchored?_of_read? {s : List Char} {pattern : Pattern}
    (h : Pattern.read? s = some pattern) :
    Pattern.readAnchored? s = some ⟨Regex.followedBy .textStart pattern.regex, pattern.groups⟩ := by
  obtain ⟨st, read, finished⟩ := Option.bind_eq_some_iff.1 h
  unfold Regex.Reader.finish? at finished
  dsimp only at finished
  split at finished
  case isFalse => cases finished
  case isTrue ends =>
    cases finished
    -- the anchor, the pattern and the closing parenthesis are read one after another
    have closes := read?_close ((Frame.opened none).push .textStart) ends.1 ends.2
    have last : ")".toList = [')'] := by decide
    rw [Pattern.readAnchored?, Pattern.read?, readFrom_append, readFrom_append,
      readFrom?_anchor, Option.bind_some,
      readFrom?_within _ fun _ _ => bind_finish?_eq_none read, read, Option.map_some,
      Option.bind_some, last, readFrom?, closes, Option.bind_some, readFrom?, Option.bind_some]
    exact finish?_anchored _ _

/-- Of the patterns that can be read behind an anchor, those are well formed by themselves that do
not close its group. -/
theorem isSome_read?_iff {s : List Char} (h : (readAnchored? s).isSome = true) :
    (read? s).isSome = true ↔ ¬ EndsAnchor s := by
  constructor
  · rintro alone ⟨a, b, eq, ends⟩
    obtain ⟨own, read⟩ := Option.isSome_iff_exists.1 alone
    obtain ⟨st, read, -⟩ := Option.bind_eq_some_iff.1 read
    rw [read?, bind_finish?_eq_none read eq] at ends
    cases ends
  · intro stays
    have unfinished : ∀ a b, s = a ++ ')' :: b → read? a = none := by
      intro a b eq
      rw [← Option.not_isSome_iff_eq_none]
      exact fun ends => stays ⟨a, b, eq, ends⟩
    have last : ")".toList = [')'] := by decide
    obtain ⟨pattern, read⟩ := Option.isSome_iff_exists.1 h
    rw [readAnchored?, read?, readFrom_append, readFrom_append, readFrom?_anchor,
      Option.bind_some, readFrom?_within _ unfinished, last] at read
    obtain ⟨st, read, finished⟩ := Option.bind_eq_some_iff.1 read
    obtain ⟨st₁, inside, closes⟩ := Option.bind_eq_some_iff.1 read
    obtain ⟨st₂, alone, rfl⟩ := Option.map_eq_some_iff.1 inside
    obtain ⟨st₃, closes, ⟨⟩⟩ := Option.bind_eq_some_iff.1 closes
    rw [read?, alone, Option.bind_some]
    cases ended : finish? st₂ with
    | some own => rfl
    | none =>
      -- the last parenthesis would leave the anchor's group open
      rw [read?_within _ fun _ => ended] at closes
      obtain ⟨st₄, -, rfl⟩ := Option.map_eq_some_iff.1 closes
      rw [finish?, settle_within, if_neg (by simp [State.within])] at finished
      cases finished

end Pattern
end FancyTokens
