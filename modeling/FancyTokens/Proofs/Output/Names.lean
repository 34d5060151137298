import FancyTokens.Output.Format
import FancyTokens.Proofs.Text.LetterCase

/-!
# Names of output formats

A text names a format if it differs from the name of the format in the case of ASCII letters at most
(`OutputFormat.ofName?_eq_some_iff`). As no letter outside ASCII has one of the letters of these
names for its lower case, it does not matter which of the two conversions to lower case is taken
(`OutputFormat.find?_lowercase`).
-/

namespace FancyTokens

variable {text : List Char} {format : OutputFormat}

namespace OutputFormat

theorem asciiLowercase_name (format : OutputFormat) :
    asciiLowercase format.name.toList = format.name.toList := by
  cases format <;> decide +kernel

/-- A name is looked for in lower case, as the names of the formats are. -/
theorem ofName?_eq (text : List Char) :
    ofName? text = all.find? (·.name.toList == asciiLowercase text) := by
  simp only [ofName?, equalIgnoringCase, asciiLowercase_name]

/-- A text names a format just if it is the name of it in any case of ASCII letters. -/
theorem ofName?_eq_some_iff : ofName? text = some format ↔
    asciiLowercase text = format.name.toList := by
  rw [ofName?_eq]
  constructor
  · intro found
    have same := List.find?_some found
    exact (eq_of_beq same).symm
  · intro names
    rw [names]
    cases format <;> decide +kernel

theorem read_eq (text : List Char) : read text = (ofName? text).elim (.error ⟨text⟩) .ok := by
  rw [read]
  cases ofName? text <;> rfl

theorem read_eq_ok_iff : read text = .ok format ↔ ofName? text = some format := by
  rw [read_eq]
  cases ofName? text with
  | none => exact ⟨nofun, nofun⟩
  | some format' => rw [Option.elim_some, Except.ok.injEq, Option.some.injEq]

/-- The lower case of all scripts makes no other texts into names than that of ASCII. -/
theorem find?_lowercase (text : List Char) :
    all.find? (·.name.toList == lowercase text) = ofName? text := by
  have plain : ∀ format : OutputFormat, format.name.toList.all isPlainLower = true := by
    intro format
    cases format <;> decide +kernel
  have same : ∀ format : OutputFormat,
      (format.name.toList == lowercase text) = (format.name.toList == asciiLowercase text) := by
    intro format
    rw [Bool.eq_iff_iff, beq_iff_eq, beq_iff_eq, eq_comm, eq_comm (b := asciiLowercase text)]
    exact lowercase_eq_iff (List.all_eq_true.1 (plain format))
  simp only [ofName?_eq, same]

end OutputFormat

end FancyTokens
