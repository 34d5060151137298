import FancyTokens.Proofs.Regex.Language

/-!
# The search overlooks nothing

The counterpart of `explore_finds`: if an expression takes a text that begins at a position, and the
continuation accepts every position behind this text, then the search comes to something, though it
may be another way that it prefers (`explore_accepts`). The statement is for expressions no loop of
which has a body that may match nothing. For these no joint ever stands in the way, and each
occurrence of a body uses up some of the text ahead.
-/

namespace FancyTokens
namespace Regex

/-- No repeated part of the expression may match the empty text. -/
def loopsAdvance : Regex → Bool
  | .seq r s | .alt r s => r.loopsAdvance && s.loopsAdvance
  | .star _ r | .plus _ r => !r.nullable && r.loopsAdvance
  | .group _ r => r.loopsAdvance
  | _ => true

/-- An expression that may not match the empty text does not. -/
theorem Takes.ne_nil {r : Regex} {before : Option Char} {w behind : List Char}
    (h : Takes r before w behind) (advances : r.nullable = false) : w ≠ [] := by
  induction h with
  | empty => cases advances
  | one => exact List.cons_ne_nil _ _
  | textStart => cases advances
  | textEnd => cases advances
  | wordBoundary => cases advances
  | seq _ _ ih ih' =>
    rw [nullable, Bool.and_eq_false_iff] at advances
    intro eq
    rw [List.append_eq_nil_iff] at eq
    exact advances.elim (fun first => ih first eq.1) fun second => ih' second eq.2
  | altLeft _ ih =>
    rw [nullable, Bool.or_eq_false_iff] at advances
    exact ih advances.1
  | altRight _ ih =>
    rw [nullable, Bool.or_eq_false_iff] at advances
    exact ih advances.2
  | starNil => cases advances
  | starCons => cases advances
  | plus _ _ ih _ =>
    intro eq
    exact ih advances (List.append_eq_nil_iff.1 eq).1
  | group _ ih => exact ih advances

/-- If the expression takes a text from a position on, and whatever lies behind this text is
accepted, then the explorer comes to something. -/
def Accepts {β : Type} (e : Explorer β) (r : Regex) : Prop :=
  ∀ {p captures k w behind}, p.rest = w ++ behind → Takes r p.previous w behind →
    (∀ p' captures', p.Spans w p' → (k p' captures').isSome = true) →
    (e p captures k).isSome = true

section Search

variable {β : Type} {greedy : Bool} {joint : Part} {r : Regex} {p p' : Position}
  {captures : Captures} {k : Continuation β} {w behind : List Char}

theorem Position.Spans.rest_eq (spans : p.Spans w p') (h : p.rest = w ++ behind) :
    p'.rest = behind :=
  List.append_cancel_left (spans.rest.symm.trans h)

theorem Position.Spans.length_lt (spans : p.Spans w p') (nonempty : w ≠ []) :
    p'.rest.length < p.rest.length := by
  have pos : 0 < w.length := List.length_pos_iff.2 nonempty
  rw [spans.rest, List.length_append]
  omega

theorem isSome_goOnOrStop_of_goOn (greedy : Bool) {goOn stop : Option β} (h : goOn.isSome = true) :
    (goOnOrStop greedy goOn stop).isSome = true := by
  unfold goOnOrStop
  obtain ⟨b, rfl⟩ := Option.isSome_iff_exists.1 h
  cases greedy with
  | true => rfl
  | false => cases stop <;> rfl

theorem isSome_goOnOrStop_of_stop (greedy : Bool) {goOn stop : Option β} (h : stop.isSome = true) :
    (goOnOrStop greedy goOn stop).isSome = true := by
  unfold goOnOrStop
  obtain ⟨b, rfl⟩ := Option.isSome_iff_exists.1 h
  cases greedy with
  | true => cases goOn <;> rfl
  | false => rfl

theorem exploreStar_accepts {body : Explorer β} (accepts : Accepts body r)
    (advances : r.nullable = false) (ahead : List Char) (enough : p.rest.length ≤ ahead.length)
    (rest : p.rest = w ++ behind) (takes : Takes (.star greedy r) p.previous w behind)
    (accepted : ∀ p' captures', p.Spans w p' → (k p' captures').isSome = true) :
    (exploreStar false joint greedy body ahead p captures k).isSome = true := by
  -- each occurrence shortens the text ahead, which bounds the number of occurrences
  induction ahead generalizing p captures w with
  | nil =>
    have empty : p.rest = [] := List.eq_nil_of_length_eq_zero (Nat.le_zero.1 enough)
    rw [empty, eq_comm, List.append_eq_nil_iff] at rest
    rw [rest.1] at accepted
    exact accepted p captures (.refl p)
  | cons c ahead ih =>
    change (goOnOrStop greedy (body p captures fun p' captures' =>
      exploreStar false joint greedy body ahead p' captures' k) (k p captures)).isSome = true
    cases takes with
    | starNil => exact isSome_goOnOrStop_of_stop greedy (accepted p captures (.refl p))
    | @starCons _ _ _ u v _ first more =>
      rw [List.append_assoc] at rest
      apply isSome_goOnOrStop_of_goOn
      apply accepts rest first
      intro p₁ captures₁ spans
      have rest₁ : p₁.rest = v ++ behind := spans.rest_eq rest
      have shorter : p₁.rest.length ≤ ahead.length :=
        Nat.le_of_lt_succ (Nat.lt_of_lt_of_le (spans.length_lt (first.ne_nil advances)) enough)
      apply ih shorter rest₁
      · rw [spans.previous]
        exact more
      · intro p₂ captures₂ spans'
        exact accepted p₂ captures₂ (spans.trans spans')

theorem explorePlus_accepts {body : Explorer β} (accepts : Accepts body r)
    (advances : r.nullable = false) (ahead : List Char) (enough : p.rest.length ≤ ahead.length)
    (rest : p.rest = w ++ behind) (takes : Takes (.plus greedy r) p.previous w behind)
    (accepted : ∀ p' captures', p.Spans w p' → (k p' captures').isSome = true) :
    (explorePlus false joint greedy body ahead p captures k).isSome = true := by
  induction ahead generalizing p captures w with
  | nil =>
    -- one occurrence at least has some text
    have empty : p.rest = [] := List.eq_nil_of_length_eq_zero (Nat.le_zero.1 enough)
    rw [empty, eq_comm, List.append_eq_nil_iff] at rest
    exact absurd rest.1 (takes.ne_nil advances)
  | cons c ahead ih =>
    change (body p captures fun p' captures' => goOnOrStop greedy
      (explorePlus false joint greedy body ahead p' captures' k) (k p' captures')).isSome = true
    cases takes with
    | @plus _ _ _ u v _ first more =>
      rw [List.append_assoc] at rest
      apply accepts rest first
      intro p₁ captures₁ spans
      have rest₁ : p₁.rest = v ++ behind := spans.rest_eq rest
      have shorter : p₁.rest.length ≤ ahead.length :=
        Nat.le_of_lt_succ (Nat.lt_of_lt_of_le (spans.length_lt (first.ne_nil advances)) enough)
      rw [← spans.previous] at more
      cases more with
      | starNil =>
        apply isSome_goOnOrStop_of_stop
        exact accepted p₁ captures₁ (by rwa [List.append_nil])
      | starCons second more =>
        apply isSome_goOnOrStop_of_goOn
        apply ih shorter rest₁ (.plus second more)
        intro p₂ captures₂ spans'
        exact accepted p₂ captures₂ (spans.trans spans')

/-- The search for an expression comes to something if the expression takes an accepted text. -/
theorem explore_accepts (advances : r.loopsAdvance = true) (part : Part) :
    Accepts (β := β) (r.explore part false) r := by
  induction r generalizing part with
  | empty =>
    intro p captures k w behind rest takes accepted
    cases takes
    exact accepted p captures (.refl p)
  | one set =>
    intro p captures k w behind rest takes accepted
    cases takes with
    | one covered =>
      rename_i c
      have next : p.next? = some (c, ⟨p.offset + c.utf8Size, some c, behind, []⟩) := by
        rw [Position.next?, rest]
        rfl
      rw [explore, next]
      dsimp only
      rw [if_pos covered]
      exact accepted _ captures (.of_next? next)
  | textStart =>
    intro p captures k w behind rest takes accepted
    generalize first : p.previous = previous at takes
    cases takes
    rw [explore, first]
    exact accepted p captures (.refl p)
  | textEnd =>
    intro p captures k w behind rest takes accepted
    cases takes
    rw [explore, rest]
    exact accepted p captures (.refl p)
  | wordBoundary negated =>
    intro p captures k w behind rest takes accepted
    cases takes with
    | wordBoundary boundary =>
      rw [explore, Position.atWordBoundary, rest, List.nil_append, if_pos (bne_iff_ne.2 boundary)]
      exact accepted p captures (.refl p)
  | seq r s ihr ihs =>
    rw [loopsAdvance, Bool.and_eq_true] at advances
    intro p captures k w behind rest takes accepted
    cases takes with
    | @seq _ _ _ u v _ first second =>
      rw [List.append_assoc] at rest
      apply ihr advances.1 _ rest first
      intro p₁ captures₁ spans
      apply ihs advances.2 _ (spans.rest_eq rest)
      · rw [spans.previous]
        exact second
      · intro p₂ captures₂ spans'
        exact accepted p₂ captures₂ (spans.trans spans')
  | alt r s ihr ihs =>
    rw [loopsAdvance, Bool.and_eq_true] at advances
    intro p captures k w behind rest takes accepted
    rw [explore]
    -- outside of loops that may go in circles the joint behind the alternatives is no obstacle
    cases takes with
    | altLeft takes =>
      exact isSome_goOnOrStop_of_goOn true (ihr advances.1 _ rest takes accepted)
    | altRight takes =>
      exact isSome_goOnOrStop_of_stop true (ihs advances.2 _ rest takes accepted)
  | star greedy r ih =>
    rw [loopsAdvance, Bool.and_eq_true, Bool.not_eq_true'] at advances
    intro p captures k w behind rest takes accepted
    rw [explore, if_neg (by simp [advances.1])]
    exact exploreStar_accepts (ih advances.2 _) advances.1 _ (Nat.le_refl _) rest takes accepted
  | plus greedy r ih =>
    rw [loopsAdvance, Bool.and_eq_true, Bool.not_eq_true'] at advances
    intro p captures k w behind rest takes accepted
    rw [explore, advances.1]
    exact explorePlus_accepts (ih advances.2 _) advances.1 _ (Nat.le_refl _) rest takes accepted
  | group index r ih =>
    intro p captures k w behind rest takes accepted
    cases takes with
    | group takes =>
      apply ih advances _ rest takes
      intro p' captures' spans
      exact accepted p' _ spans

end Search
end Regex

/-- An anchored pattern finds something in a text that begins as its expression takes it. -/
theorem Pattern.isSome_search?_of_takes {pattern : Pattern} {w rest : List Char}
    (anchored : pattern.regex.anchored = true) (advances : pattern.regex.loopsAdvance = true)
    (h : pattern.regex.Takes none w rest) : (pattern.search? (w ++ rest)).isSome = true := by
  rw [search?, if_pos anchored]
  exact Regex.explore_accepts advances _ rfl h fun _ _ _ => rfl

end FancyTokens
