import FancyTokens.Proofs.CommandLine.Outcome
import FancyTokens.Proofs.Output.Names
import FancyTokens.Proofs.Settings.Options

/-!
# Two ways to name a format

The output format is named by an argument of its own or by a setting. The setting goes a longer way:
its text is trimmed, typed, stored in the tree of settings and converted once more. Still both ways
take the same texts for the same formats and refuse the same texts (`format_routes_agree`), as the
name of a format is never typed as anything but a text (`Settings.valueOfText_of_names`).
-/

namespace FancyTokens

open Settings

variable {text : List Char} {format : OutputFormat}

namespace Settings

/-- The settings know the same names for formats. -/
theorem formatOfName_eq (text : List Char) : formatOfName text =
    (OutputFormat.ofName? text).elim (.error (.unknownVariant "OutputFormat" text)) .ok := by
  rw [formatOfName, OutputFormat.find?_lowercase]
  cases OutputFormat.ofName? text <;> rfl

/-- The name of a format is typed as a text, as it is no word for a truth value and no number. -/
theorem valueOfText_of_names (names : asciiLowercase text = format.name.toList) :
    valueOfText text = .string text := by
  have letters : ∀ format : OutputFormat, format.name.toList.all Char.isAlpha = true := by
    intro format
    cases format <;> decide +kernel
  have other : ∀ format : OutputFormat, ∀ b, ∀ word ∈ wordsFor b,
      format.name.toList ≠ word.toList := by
    intro format
    cases format <;> decide +kernel
  have typed := isTyped_valueOfText text
  generalize valueOfText text = v at typed ⊢
  cases typed with
  | @word b word =>
    obtain ⟨w, mem, eq⟩ := word
    exact absurd (names.symm.trans eq) (other format b w mem)
  | @number i denotes =>
    have none : ¬ DenotesSigned text i :=
      not_denotes_of_letters (names ▸ List.all_eq_true.1 (letters format))
    exact absurd denotes none
  | other => rfl

/-- Why a text is refused as a format: it is typed as something else, or no format has this name. -/
def IsFormatError (text : List Char) (e : Error) : Prop :=
  e = .noVariant "OutputFormat" ∨ e = .unknownVariant "OutputFormat" text

/-- The text of a setting names a format and is converted to it, or it names none and is refused. -/
theorem toFormat_valueOfText (text : List Char) :
    (∃ format, OutputFormat.ofName? text = some format ∧
      toFormat (.scalar none (valueOfText text)) = .ok format) ∨
    (OutputFormat.ofName? text = none ∧
      ∃ e, IsFormatError text e ∧ toFormat (.scalar none (valueOfText text)) = .error e) := by
  cases found : OutputFormat.ofName? text with
  | some format =>
    refine .inl ⟨format, rfl, ?_⟩
    rw [valueOfText_of_names (OutputFormat.ofName?_eq_some_iff.1 found)]
    show formatOfName text = .ok format
    rw [formatOfName_eq, found]
    rfl
  | none =>
    refine .inr ⟨rfl, ?_⟩
    have typed := isTyped_valueOfText text
    generalize valueOfText text = v at typed ⊢
    cases typed with
    | word => exact ⟨_, .inl rfl, rfl⟩
    | number => exact ⟨_, .inl rfl, rfl⟩
    | other =>
      refine ⟨_, .inr rfl, ?_⟩
      show formatOfName text = _
      rw [formatOfName_eq, found]
      rfl

end Settings

namespace Loader

/-! ## The setting -/

/-- The path to the output format. -/
def formatPath : KeyPath :=
  ⟨"output".toList, [.key "format".toList]⟩

theorem field?_formatPath : formatPath.field? = some formatField := by decide +kernel

theorem build_defaults : build {} = .ok {} := by decide +kernel

/-- A loader that is told a format only builds the default configuration with this format. -/
theorem build_override_format (v : Scalar) : (override {} formatPath v).build =
    ((toFormat (.scalar none v)).map fun format =>
      (⟨{}, format⟩ : Configuration)).mapError .settings := by
  have options : Preprocessing.Key.all.foldlM (fun p o => setOption p o (optionKey o)
      (.scalar none (if formatField = optionField o then v else optionDefault o))) {} =
        .ok {} := by
    simp only [if_neg (optionField_ne_formatField _).symm]
    decide +kernel
  rw [build_override_field field?_formatPath, options, if_pos rfl]
  cases toFormat (.scalar none v) <;> rfl

/-- Both ways lead to the same format, or both of them to a complaint. -/
theorem read_and_build_format (text : List Char) :
    (∃ format, OutputFormat.read text = .ok format ∧
      (override {} formatPath (valueOfText text)).build = .ok ⟨{}, format⟩) ∨
    (OutputFormat.read text = .error ⟨text⟩ ∧ ∃ e, IsFormatError text e ∧
      (override {} formatPath (valueOfText text)).build = .error (.settings e)) := by
  rw [build_override_format, OutputFormat.read_eq]
  obtain ⟨format, found, eq⟩ | ⟨unknown, e, refused, eq⟩ := toFormat_valueOfText text
  · rw [found, eq]
    exact .inl ⟨format, rfl, rfl⟩
  · rw [unknown, eq]
    exact .inr ⟨rfl, e, refused, rfl⟩

/-- A setting for the format is taken, whatever its text. -/
theorem isTaken_format (text : List Char) :
    IsTaken ("output.format=".toList ++ text) formatPath (valueOfText (trimBlanks text)) :=
  @IsTaken.intro "output.format".toList text formatPath (by decide) (by decide +kernel)

end Loader

namespace CommandLine

/-! ## Plans -/

/-- A plan for a format that is named by an argument of its own. -/
theorem plan_format (text : List Char) : ({ format := some text } : Arguments).plan {} =
    ((OutputFormat.read text).mapError .format).map fun format => ⟨some {}, format⟩ := by
  have built : (Loader.withSettings {} []).bind Loader.build = .ok {} := Loader.build_defaults
  rw [Arguments.plan_eq, built]
  rfl

/-- A plan for a single setting. -/
theorem plan_setting {loader : Loader} {setting : List Char}
    (taken : Loader.withSetting {} setting = .ok loader) :
    ({ settings := [setting] } : Arguments).plan {} =
      (loader.build.mapError .load).map fun configuration =>
        ⟨some configuration.preprocessing, configuration.format⟩ := by
  have all : Loader.withSettings {} [setting] = .ok loader := by
    rw [Loader.withSettings_cons, taken]
    rfl
  rw [Arguments.plan_eq, all]
  show (loader.build.mapError Failure.load).bind _ = _
  cases loader.build <;> rfl

end CommandLine

namespace Loader

/-- A text without white space at its ends names the same format as an argument and as a setting.
These texts are the names of the formats in any case of ASCII letters, and any other text is refused
both ways, whatever the setting is typed as. So the same is done with the input. -/
theorem format_routes_agree (trimmed : Trimmed isBlank text) :
    ∃ loader, withSetting {} ("output.format=".toList ++ text) = .ok loader ∧
      (∀ format, OutputFormat.read text = .ok format ↔
        ∃ configuration, loader.build = .ok configuration ∧ configuration.format = format) ∧
      (∀ format, OutputFormat.read text = .ok format ↔
        asciiLowercase text = format.name.toList) ∧
      ((∀ format : OutputFormat, asciiLowercase text ≠ format.name.toList) →
        OutputFormat.read text = .error ⟨text⟩ ∧
          ∃ e, IsFormatError text e ∧ loader.build = .error (.settings e)) ∧
      ∀ plan, ({ format := some text } : CommandLine.Arguments).plan {} = .ok plan ↔
        ({ settings := ["output.format=".toList ++ text] } : CommandLine.Arguments).plan {} =
          .ok plan := by
  have taken := withSetting_of_isTaken (isTaken_format text) {}
  have same : trimBlanks text = text := trimmed.trimEnds_eq
  rw [same] at taken
  have names : ∀ format, OutputFormat.read text = .ok format ↔
      asciiLowercase text = format.name.toList := fun format =>
    OutputFormat.read_eq_ok_iff.trans OutputFormat.ofName?_eq_some_iff
  refine ⟨_, taken, ?_⟩
  rw [CommandLine.plan_format, CommandLine.plan_setting taken]
  obtain ⟨format, read, built⟩ | ⟨read, e, refused, built⟩ := read_and_build_format text
  · have named : asciiLowercase text = format.name.toList := (names format).1 read
    rw [built]
    refine ⟨fun other => ?_, names, fun unnamed => absurd named (unnamed format), ?_⟩
    · rw [read]
      constructor
      · intro same
        exact ⟨⟨{}, format⟩, rfl, Except.ok.inj same⟩
      · rintro ⟨_, same, rfl⟩
        cases same
        rfl
    · rw [read]
      exact fun plan => Iff.rfl
  · rw [built]
    refine ⟨fun other => ?_, names, fun _ => ⟨read, e, refused, rfl⟩, ?_⟩
    · rw [read]
      exact ⟨nofun, nofun⟩
    · rw [read]
      exact fun plan => ⟨nofun, nofun⟩

/-- A name in mixed case behind the equals sign of a setting. -/
theorem format_routes_agree_mixed : Trimmed isBlank "yAmL".toList ∧
    OutputFormat.read "yAmL".toList = .ok .yaml ∧
    ∃ loader, withSetting {} "output.format=yAmL".toList = .ok loader ∧
      ∃ configuration, loader.build = .ok configuration ∧ configuration.format = .yaml := by
  have trimmed : Trimmed isBlank "yAmL".toList :=
    ⟨by rintro c ⟨⟩; decide +kernel, by rintro c ⟨⟩; decide +kernel⟩
  have read : OutputFormat.read "yAmL".toList = .ok .yaml := by decide +kernel
  obtain ⟨loader, taken, agree, -⟩ := format_routes_agree trimmed
  exact ⟨trimmed, read, loader, taken, (agree .yaml).1 read⟩

end Loader
end FancyTokens
