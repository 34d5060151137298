import FancyTokens.Proofs.Regex.Anchoring
import Mathlib.Data.List.Basic

/-!
# Searching behind an anchor

Behind the anchor an expression stands deeper in the whole one, so the search names the joints of
its repetitions otherwise. The names do not matter: an expression is explored in the same ways
wherever it stands (`Regex.explore_under`). An anchored pattern therefore finds exactly what the
pattern alone matches at the start of a text (`Pattern.search?_anchored`).
-/

namespace FancyTokens
namespace Regex

variable {β : Type} {looping greedy : Bool} {joint above : Part}

/-- The position, its joints named from further up. -/
def Position.under (p : Position) (above : Part) : Position :=
  { p with passed := p.passed.map (· ++ above) }

/-- The explorers go the same ways, but for the names of joints. -/
def GoesAlike (above : Part) (e e' : Explorer β) : Prop :=
  ∀ p captures (k k' : Continuation β),
    (∀ p captures, k' (p.under above) captures = k p captures) →
      e' (p.under above) captures k' = e p captures k

theorem Position.pass?_under (p : Position) (looping : Bool) (joint : Part) :
    (p.under above).pass? looping (joint ++ above) =
      (p.pass? looping joint).map (·.under above) := by
  have same : joint ++ above ∈ p.passed.map (· ++ above) ↔ joint ∈ p.passed :=
    List.mem_map_of_injective (List.append_left_injective above)
  unfold pass?
  by_cases loops : looping = true
  · by_cases passed : joint ∈ p.passed
    · simp [loops, under, passed]
    · simp [loops, under, passed]
  · simp [loops]

theorem behind_under (looping : Bool) (joint : Part) {k k' : Continuation β}
    (h : ∀ p captures, k' (p.under above) captures = k p captures) (p : Position)
    (captures : Captures) :
    behind looping (joint ++ above) k' (p.under above) captures =
      behind looping joint k p captures := by
  rw [behind, behind, Position.pass?_under, Option.bind_map]
  exact congrArg _ (funext fun p => h p captures)

theorem exploreStar_under {body body' : Explorer β} (alike : GoesAlike above body body')
    (ahead : List Char) : GoesAlike above (exploreStar looping joint greedy body ahead)
      (exploreStar looping (joint ++ above) greedy body' ahead) := by
  induction ahead with
  | nil =>
    intro p captures k k' h
    exact behind_under looping joint h p captures
  | cons c ahead ih =>
    intro p captures k k' h
    rw [exploreStar, exploreStar, Position.pass?_under, Option.bind_map]
    refine congrArg _ (funext fun p => ?_)
    rw [Function.comp_apply, h, alike p captures _ _ fun p captures => ih p captures k k' h]

theorem explorePlus_under {body body' : Explorer β} (alike : GoesAlike above body body')
    (ahead : List Char) : GoesAlike above (explorePlus looping joint greedy body ahead)
      (explorePlus looping (joint ++ above) greedy body' ahead) := by
  induction ahead with
  | nil =>
    intro p captures k k' h
    rw [explorePlus, explorePlus, Position.pass?_under, Option.bind_map]
    exact congrArg _ (funext fun p => alike p captures k k' h)
  | cons c ahead ih =>
    intro p captures k k' h
    rw [explorePlus, explorePlus, Position.pass?_under, Option.bind_map]
    refine congrArg _ (funext fun p => ?_)
    refine alike p captures _ _ fun p captures => ?_
    rw [h, ih p captures k k' h]

theorem explore_under (r : Regex) (part : Part) (looping : Bool) (above : Part) :
    GoesAlike (β := β) above (r.explore part looping) (r.explore (part ++ above) looping) := by
  induction r generalizing part looping with
  | empty =>
    intro p captures k k' h
    exact h p captures
  | one set =>
    intro p captures k k' h
    obtain ⟨offset, previous, rest, passed⟩ := p
    cases rest with
    | nil => rfl
    | cons c s =>
      -- behind a character no joint has been passed
      have next := h ⟨offset + c.utf8Size, some c, s, []⟩ captures
      change (if set.covers c = true then _ else none) = if set.covers c = true then _ else none
      exact congrArg (fun o => if set.covers c = true then o else none) next
  | textStart =>
    intro p captures k k' h
    rw [explore, explore, h]
    rfl
  | textEnd =>
    intro p captures k k' h
    rw [explore, explore, h]
    rfl
  | wordBoundary negated =>
    intro p captures k k' h
    rw [explore, explore, h]
    rfl
  | seq r s ihr ihs =>
    intro p captures k k' h
    exact ihr (false :: part) looping p captures _ _ fun p captures =>
      ihs (true :: part) looping p captures k k' h
  | alt r s ihr ihs =>
    intro p captures k k' h
    have left := ihr (false :: part) looping p captures _ _
      (behind_under looping part h)
    have right := ihs (true :: part) looping p captures _ _
      (behind_under looping part h)
    rw [explore, explore, ← left, ← right]
    rfl
  | star greedy r ih =>
    intro p captures k k' h
    rw [explore, explore]
    split
    case isTrue =>
      have stop := behind_under true (true :: part) h
      refine congrArg₂ (goOnOrStop greedy) ?_ (stop p captures)
      exact explorePlus_under (ih (false :: part) true) p.rest p captures _ _ stop
    case isFalse => exact exploreStar_under (ih (false :: part) looping) p.rest p captures k k' h
  | plus greedy r ih =>
    intro p captures k k' h
    rw [explore, explore]
    exact explorePlus_under (ih (false :: part) _) p.rest p captures k k' h
  | group index r ih =>
    intro p captures k k' h
    exact ih (false :: part) looping p captures _ _ fun p' captures => h p' _

/-- Behind an anchor the search goes the same ways as alone. -/
theorem explore_textStart_followedBy (r : Regex) {p : Position} (first : p.previous = none)
    (fresh : p.passed = []) (captures : Captures) {k : Continuation β}
    (h : ∀ p captures, k (p.under [true]) captures = k p captures) :
    (followedBy .textStart r).explore [] false p captures k = r.explore [] false p captures k := by
  have under : p.under [true] = p := by
    rw [Position.under, fresh, List.map_nil, ← fresh]
  have alike := explore_under r [] false [true] p captures k k h
  rw [under] at alike
  have behind : (seq .textStart r).explore [] false p captures k =
      r.explore [true] false p captures k := by
    rw [explore, explore, first]
    rfl
  cases r with
  | empty =>
    change (if p.previous.isNone = true then k p captures else none) = k p captures
    rw [first]
    rfl
  | _ => exact behind.trans alike

end Regex

/-- An anchored pattern finds what the pattern alone matches at the start of a text. -/
theorem Pattern.search?_anchored (own : Pattern) (s : List Char) :
    (⟨Regex.followedBy .textStart own.regex, own.groups⟩ : Pattern).search? s =
      own.matchAt? (.start s) := by
  rw [search?, if_pos (Regex.anchored_textStart_followedBy own.regex)]
  exact Regex.explore_textStart_followedBy own.regex rfl rfl _ fun _ _ => rfl

/-- Behind an anchor that it does not end, a pattern finds what it matches alone at the start of a
text. -/
theorem Pattern.exists_read?_of_readAnchored? {p : List Char} {pattern : Pattern}
    (h : readAnchored? p = some pattern) (stays : ¬ EndsAnchor p) :
    ∃ own, read? p = some own ∧ ∀ s, pattern.search? s = own.matchAt? (.start s) := by
  have readable : (readAnchored? p).isSome = true := by rw [h]; rfl
  obtain ⟨own, read⟩ := Option.isSome_iff_exists.1 ((isSome_read?_iff readable).2 stays)
  rw [readAnchored?_of_read? read] at h
  cases h
  exact ⟨own, read, search?_anchored own⟩

end FancyTokens
