import FancyTokens.Proofs.Regex.Language

/-!
# What the forms of an expression take

Inversions of `Regex.Takes` for the forms of which patterns are made: one character out of some or
none of some, the start of the text, and any number of occurrences, which cut their text into parts
(`Regex.Takes.exists_flatten_of_star`).
-/

namespace FancyTokens

/-- The class of some characters, or of all others. -/
def CharClass.ofChars (negated : Bool) (cs : List Char) : CharClass :=
  ⟨negated, cs.map fun c => .range c c⟩

theorem ClassItem.covers_range_self (c d : Char) :
    (ClassItem.range d d).covers c = decide (c = d) := by
  rw [covers, ← Bool.decide_and, decide_eq_decide]
  exact ⟨fun h => Char.le_antisymm h.2 h.1, fun h => h ▸ ⟨Char.le_refl c, Char.le_refl c⟩⟩

theorem CharClass.covers_ofChars {negated : Bool} {cs : List Char} {c : Char} :
    (CharClass.ofChars negated cs).covers c = true ↔ (decide (c ∈ cs) != negated) = true := by
  have member : (cs.map fun c => ClassItem.range c c).any (·.covers c) = decide (c ∈ cs) := by
    induction cs with
    | nil => rfl
    | cons d cs ih =>
      simp only [List.map_cons, List.any_cons, ih, ClassItem.covers_range_self, List.mem_cons,
        Bool.decide_or]
  rw [covers, ofChars, member]

theorem CharClass.covers_ofChars_false (cs : List Char) (c : Char) :
    (CharClass.ofChars false cs).covers c = decide (c ∈ cs) := by
  rw [Bool.eq_iff_iff, covers_ofChars, Bool.bne_false]

namespace Regex

variable {r : Regex} {c : Char} {cs : List Char} {greedy : Bool} {before : Option Char}
  {w behind : List Char}

theorem Takes.of_one {set : CharClass} (h : Takes (.one set) before w behind) :
    ∃ c, w = [c] ∧ set.covers c = true := by
  cases h with
  | one covered => exact ⟨_, rfl, covered⟩

theorem Takes.of_oneOf (h : Takes (.one (.ofChars false cs)) before w behind) :
    ∃ c ∈ cs, w = [c] := by
  obtain ⟨c, rfl, covered⟩ := of_one h
  exact ⟨c, by simpa using CharClass.covers_ofChars.1 covered, rfl⟩

theorem Takes.of_noneOf (h : Takes (.one (.ofChars true cs)) before w behind) :
    ∃ c, c ∉ cs ∧ w = [c] := by
  obtain ⟨c, rfl, covered⟩ := of_one h
  exact ⟨c, by simpa using CharClass.covers_ofChars.1 covered, rfl⟩

theorem Takes.of_char (h : Takes (.char c) before w behind) : w = [c] := by
  have one : Takes (.one (.ofChars false [c])) before w behind := h
  obtain ⟨d, mem, rfl⟩ := one.of_oneOf
  rw [List.mem_singleton.1 mem]

/-- A sequence takes two texts in a row. -/
theorem Takes.exists_of_seq {s : Regex} (h : Takes (.seq r s) before w behind) :
    ∃ u v, w = u ++ v ∧ Takes r before u (v ++ behind) ∧ ∃ before, Takes s before v behind := by
  cases h with
  | seq first second => exact ⟨_, _, rfl, first, _, second⟩

theorem Takes.exists_of_char_seq (h : Takes (.seq (.char c) r) before w behind) :
    ∃ v, w = c :: v ∧ ∃ before, Takes r before v behind := by
  obtain ⟨u, v, rfl, first, more⟩ := h.exists_of_seq
  exact ⟨v, by rw [of_char first]; rfl, more⟩

/-- Behind the start of the text the rest of an expression takes all of it. -/
theorem Takes.of_textStart_seq (h : Takes (.seq .textStart r) before w behind) :
    Takes r none w behind := by
  cases h with
  | seq first second =>
    cases first
    exact second

/-- What any number of occurrences take is cut into texts that one occurrence takes. -/
theorem Takes.exists_flatten_of_star (h : Takes (.star greedy r) before w behind) :
    ∃ parts : List (List Char), w = parts.flatten ∧
      ∀ u ∈ parts, ∃ before behind, Takes r before u behind := by
  -- by induction on the occurrences; only the forms of a repetition remain
  generalize star : Regex.star greedy r = s at h
  induction h with
  | starNil => exact ⟨[], rfl, by simp⟩
  | starCons first _ _ ih =>
    cases star
    obtain ⟨parts, rfl, all⟩ := ih rfl
    refine ⟨_ :: parts, rfl, fun u mem => ?_⟩
    rcases List.mem_cons.1 mem with rfl | mem
    · exact ⟨_, _, first⟩
    · exact all u mem
  | _ => cases star

/-- Any number of characters of a class are all in the class. -/
theorem Takes.covers_of_star_one {set : CharClass}
    (h : Takes (.star greedy (.one set)) before w behind) : ∀ c ∈ w, set.covers c = true := by
  obtain ⟨parts, rfl, all⟩ := h.exists_flatten_of_star
  intro c mem
  obtain ⟨u, memParts, memU⟩ := List.mem_flatten.1 mem
  obtain ⟨_, _, takes⟩ := all u memParts
  obtain ⟨d, rfl, covered⟩ := of_one takes
  rwa [List.mem_singleton.1 memU]

/-- Characters of a class in a row are occurrences of the class. -/
theorem takes_star_one {set : CharClass} (covered : ∀ c ∈ w, set.covers c = true) :
    Takes (.star greedy (.one set)) before w behind := by
  induction w generalizing before with
  | nil => exact .starNil
  | cons c w ih =>
    obtain ⟨first, others⟩ := List.forall_mem_cons.1 covered
    exact .starCons (u := [c]) (.one first) (ih others)

end Regex
end FancyTokens
