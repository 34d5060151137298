import FancyTokens.Proofs.Text.Classes
import FancyTokens.Text.Lowercase

/-!
# Words in any case

Two characters outside ASCII have an ASCII character in their lower case: the sign for a kelvin is a
`k` then, and a capital i with a dot starts with an `i`. A word without these two letters is
therefore the lower case of just those texts that differ from it in the case of ASCII letters
(`lowercase_eq_iff`).
-/

namespace FancyTokens

variable {c d : Char} {s w : List Char}

/-- An ASCII character that is the lower case of no character outside ASCII. -/
def isPlainLower (d : Char) : Bool :=
  d.toNat < 128 && d != '\x00' && d != 'i' && d != 'k'

theorem isPlainLower_iff :
    isPlainLower d = true ↔ d.toNat < 128 ∧ d ≠ '\x00' ∧ d ≠ 'i' ∧ d ≠ 'k' := by
  simp only [isPlainLower, Bool.and_eq_true, decide_eq_true_eq, bne_iff_ne, and_assoc]

/-- The lower case of a character is the character itself, or a run of the table leads to it. -/
theorem lowercaseIn_eq_or (runs : List LowercaseRun) (c : Char) : lowercaseIn runs c = c ∨
    ∃ run ∈ runs, run.first ≤ c.toNat ∧ c.toNat ≤ run.last ∧
      lowercaseIn runs c = Char.ofNat (c.toNat + run.shift).toNat := by
  induction runs with
  | nil => exact .inl rfl
  | cons run runs ih =>
    rw [lowercaseIn]
    split
    case isTrue => exact .inl rfl
    case isFalse reached =>
      split
      case isTrue within =>
        exact .inr ⟨run, List.mem_cons_self, Nat.le_of_not_lt reached, within.1, rfl⟩
      case isFalse =>
        refine ih.imp_right ?_
        rintro ⟨run', mem, leads⟩
        exact ⟨run', List.mem_cons_of_mem _ mem, leads⟩

/-- A run that starts outside ASCII stays there, except for the sign for a kelvin. -/
theorem shift_of_mem_lowercaseRuns : ∀ run ∈ lowercaseRuns, run.last < 128 ∨
    128 ≤ run.first + run.shift ∨
      run.first = run.last ∧ run.first + run.shift = 'k'.toNat := by
  decide +kernel

theorem lowercaseIn_of_ascii (ascii : c.toNat < 128) :
    lowercaseIn lowercaseRuns c = c.toLower :=
  of_ascii (p := fun c => lowercaseIn lowercaseRuns c = c.toLower) (by decide +kernel) ascii

/-- No character outside ASCII has a plain one as its lower case. -/
theorem lowercaseIn_ne_of_plain (plain : isPlainLower d = true) (outside : 128 ≤ c.toNat) :
    lowercaseIn lowercaseRuns c ≠ d := by
  obtain ⟨ascii, notNull, -, notK⟩ := isPlainLower_iff.1 plain
  obtain same | ⟨run, mem, low, high, eq⟩ := lowercaseIn_eq_or lowercaseRuns c
  · rw [same]
    rintro rfl
    omega
  · rw [eq]
    intro leads
    have code : (c.toNat + run.shift).toNat = d.toNat := by
      by_cases valid : (c.toNat + run.shift).toNat.isValidChar
      · rw [← leads, Char.ofNat, dif_pos valid]
        rfl
      · -- there is no such character
        rw [Char.ofNat, dif_neg valid] at leads
        exact absurd leads.symm notNull
    have other : d.toNat ≠ 'k'.toNat := fun same => notK (Char.toNat_inj.1 same)
    obtain within | beyond | kelvin := shift_of_mem_lowercaseRuns run mem
    · omega
    · omega
    · omega

/-- A character outside ASCII has no ASCII lower case. -/
theorem toLower_of_outside (outside : 128 ≤ c.toNat) : c.toLower = c := by
  have last : 'Z'.val.toNat = 90 := rfl
  have code : c.toNat = c.val.toNat := rfl
  refine dif_neg fun ⟨_, le⟩ => ?_
  rw [UInt32.le_iff_toNat_le] at le
  omega

/-- A plain character is the lower case of a character just if it is its ASCII lower case. -/
theorem lowercaseIn_eq_iff (plain : isPlainLower d = true) :
    lowercaseIn lowercaseRuns c = d ↔ c.toLower = d := by
  by_cases ascii : c.toNat < 128
  · rw [lowercaseIn_of_ascii ascii]
  · have outside : 128 ≤ c.toNat := Nat.le_of_not_lt ascii
    refine iff_of_false (lowercaseIn_ne_of_plain plain outside) ?_
    rw [toLower_of_outside outside]
    rintro rfl
    exact ascii (isPlainLower_iff.1 plain).1

theorem lowercaseAt_ne_nil (before : List Char) (c : Char) (after : List Char) :
    lowercaseAt before c after ≠ [] := by
  unfold lowercaseAt
  split
  · split <;> exact List.cons_ne_nil _ _
  · split <;> exact List.cons_ne_nil _ _

/-- A text in lower case that starts with a plain character comes from one that starts with this
character up to the case of ASCII letters. -/
theorem lowercaseAt_append_eq_iff (plain : isPlainLower d = true) (before after t : List Char) :
    lowercaseAt before c after ++ t = d :: w ↔ c.toLower = d ∧ t = w := by
  obtain ⟨ascii, -, notI, -⟩ := isPlainLower_iff.1 plain
  -- the two characters outside ASCII with rules of their own give no plain one
  have apart : ∀ special : Char, 128 ≤ special.toNat → special ≠ d := by
    rintro special outside rfl
    omega
  unfold lowercaseAt
  split
  case isTrue sigma =>
    have fixed : c.toLower = c := toLower_of_outside (by rw [sigma]; decide)
    rw [fixed, sigma]
    split
    · simp [apart capitalSigma (by decide), apart '\u03c2' (by decide)]
    · simp [apart capitalSigma (by decide), apart '\u03c3' (by decide)]
  case isFalse =>
    split
    case isTrue dotted =>
      have fixed : c.toLower = c := toLower_of_outside (by rw [dotted]; decide)
      rw [fixed, dotted]
      simp [apart '\u0130' (by decide), Ne.symm notI]
    case isFalse =>
      rw [List.singleton_append, List.cons.injEq, lowercaseIn_eq_iff plain]

/-- A word of plain characters is the lower case of the texts that are equal to it up to the case of
ASCII letters. -/
theorem lowercase_eq_iff (plain : ∀ d ∈ w, isPlainLower d = true) :
    lowercase s = w ↔ asciiLowercase s = w := by
  have run : ∀ before, lowercaseAfter before s = w ↔ asciiLowercase s = w := by
    induction s generalizing w with
    | nil => exact fun _ => Iff.rfl
    | cons c s ih =>
      intro before
      cases w with
      | nil =>
        refine iff_of_false ?_ (List.cons_ne_nil _ _)
        rw [lowercaseAfter, List.append_eq_nil_iff]
        exact fun empty => lowercaseAt_ne_nil before c s empty.1
      | cons d w =>
        obtain ⟨first, others⟩ := List.forall_mem_cons.1 plain
        rw [lowercaseAfter, lowercaseAt_append_eq_iff first, ih others]
        exact List.cons_eq_cons.symm
  exact run []

end FancyTokens
