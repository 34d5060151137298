import FancyTokens.Proofs.Regex.Language

/-!
# What groups record

An expression without groups hands on whatever has been recorded before it (`explore_keeps`). A
group around such an expression therefore records exactly the text between its ends and nothing else
(`explore_group_finds`).
-/

namespace FancyTokens
namespace Regex

/-- No group stands in the expression. -/
def groupFree : Regex → Bool
  | .seq r s | .alt r s => r.groupFree && s.groupFree
  | .star _ r | .plus _ r => r.groupFree
  | .group .. => false
  | _ => true

/-- The explorer hands on the captures that it is given: it cannot tell continuations apart that do
the same with these. -/
def Keeps {β : Type} (e : Explorer β) : Prop :=
  ∀ p captures k k', (∀ p', k p' captures = k' p' captures) → e p captures k = e p captures k'

section Search

variable {β : Type} {looping greedy : Bool} {joint part : Part} {r : Regex}

theorem exploreStar_keeps {body : Explorer β} (keeps : Keeps body) (ahead : List Char) :
    Keeps (exploreStar looping joint greedy body ahead) := by
  induction ahead with
  | nil =>
    intro p captures k k' same
    rw [exploreStar, exploreStar]
    simp only [same]
  | cons c ahead ih =>
    intro p captures k k' same
    have body_eq : ∀ p, (body p captures fun p' captures' =>
        exploreStar looping joint greedy body ahead p' captures' k) =
        body p captures fun p' captures' =>
          exploreStar looping joint greedy body ahead p' captures' k' :=
      fun p => keeps _ _ _ _ fun p' => ih _ _ _ _ same
    rw [exploreStar, exploreStar]
    simp only [same, body_eq]

theorem explorePlus_keeps {body : Explorer β} (keeps : Keeps body) (ahead : List Char) :
    Keeps (explorePlus looping joint greedy body ahead) := by
  induction ahead with
  | nil =>
    intro p captures k k' same
    have body_eq : ∀ p, body p captures k = body p captures k' := fun p => keeps _ _ _ _ same
    rw [explorePlus, explorePlus]
    simp only [body_eq]
  | cons c ahead ih =>
    intro p captures k k' same
    have body_eq : ∀ p, (body p captures fun p' captures' => goOnOrStop greedy
        (explorePlus looping joint greedy body ahead p' captures' k) (k p' captures')) =
        body p captures fun p' captures' => goOnOrStop greedy
          (explorePlus looping joint greedy body ahead p' captures' k') (k' p' captures') := by
      intro p
      apply keeps
      intro p'
      rw [ih _ _ _ _ same, same]
    rw [explorePlus, explorePlus]
    simp only [body_eq]

/-- The search for an expression without groups records nothing. -/
theorem explore_keeps (free : r.groupFree = true) (part : Part) (looping : Bool) :
    Keeps (β := β) (r.explore part looping) := by
  induction r generalizing part looping with
  | empty => exact fun _ _ _ _ same => same _
  | one set =>
    intro p captures k k' same
    rw [explore, explore]
    simp only [same]
  | textStart | textEnd | wordBoundary =>
    intro p captures k k' same
    rw [explore, explore, same]
  | seq r s ihr ihs =>
    rw [groupFree, Bool.and_eq_true] at free
    intro p captures k k' same
    rw [explore, explore]
    exact ihr free.1 _ _ _ _ _ _ fun p' => ihs free.2 _ _ _ _ _ _ same
  | alt r s ihr ihs =>
    rw [groupFree, Bool.and_eq_true] at free
    intro p captures k k' same
    have joint : ∀ p', behind looping part k p' captures = behind looping part k' p' captures := by
      intro p'
      rw [behind, behind]
      simp only [same]
    rw [explore, explore, ihr free.1 _ _ _ _ _ _ joint, ihs free.2 _ _ _ _ _ _ joint]
  | star greedy r ih =>
    intro p captures k k' same
    have joint : ∀ p', behind true (true :: part) k p' captures =
        behind true (true :: part) k' p' captures := by
      intro p'
      rw [behind, behind]
      simp only [same]
    rw [explore, explore, exploreStar_keeps (ih free _ _) _ _ _ _ _ same,
      explorePlus_keeps (ih free _ _) _ _ _ _ _ joint, joint]
  | plus greedy r ih =>
    intro p captures k k' same
    rw [explore, explore]
    exact explorePlus_keeps (ih free _ _) _ _ _ _ _ same
  | group => cases free

/-- A group around an expression without groups records the text between its ends. -/
theorem explore_group_finds (free : r.groupFree = true) {index : Nat} {p : Position}
    {captures : Captures} {k : Continuation β} {b : β}
    (h : (Regex.group index r).explore part looping p captures k = some b) :
    ∃ w p', p.Spans w p' ∧ Takes r p.previous w p'.rest ∧
      k p' (captures.set index (some ⟨p.offset, p.offset + byteLength w⟩)) = some b := by
  rw [explore] at h
  -- as far as the search can tell, the continuation is given what was recorded before
  rw [explore_keeps free _ _ _ _ _
    (fun p' _ => k p' (captures.set index (some ⟨p.offset, p'.offset⟩))) fun _ => rfl] at h
  obtain ⟨p', _, ⟨w, spans, takes, -⟩, accepted⟩ := explore_finds r _ _ h
  exact ⟨w, p', spans, takes, spans.offset ▸ accepted⟩

end Search
end Regex
end FancyTokens
