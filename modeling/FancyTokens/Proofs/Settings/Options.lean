import FancyTokens.Proofs.Settings.Conversion
import FancyTokens.Proofs.Settings.Texts

/-!
# A loader with one option

A loader that is told one option only builds the default configuration with what the value converts
to (`build_override`). So the texts that it takes are those that say what the option is to be, and
it complains about the type of any other text (`texts_convert`).
-/

namespace FancyTokens

open Settings

namespace Loader

/-! ## One option -/

/-- The path to an option. -/
def optionPath (option : Preprocessing.Key) : KeyPath :=
  ⟨"lexer".toList, [.key option.name.toList]⟩

/-- What an option is if nothing is said. -/
def optionDefault : Preprocessing.Key → Scalar
  | .stripNewlines => .boolean true
  | .stripAll => .boolean false
  | .ensureNewline => .boolean true
  | .tabSize => .integer 0

/-- What the output format is if nothing is said. -/
def formatDefault : Scalar :=
  .string "raw".toList

theorem valueAmong?_optionField_defaults (option : Preprocessing.Key) :
    valueAmong? (optionField option) defaults = some (.scalar none (optionDefault option)) := by
  rw [← field?_defaults, setAll_defaults]
  cases option <;> rfl

theorem valueAmong?_formatField_defaults :
    valueAmong? formatField defaults = some (.scalar none formatDefault) := by
  rw [← field?_defaults, setAll_defaults]
  rfl

theorem field?_optionPath (option : Preprocessing.Key) :
    (optionPath option).field? = some (optionField option) := by
  cases option <;> decide +kernel

theorem optionField_injective : Function.Injective optionField := by
  intro a b
  cases a <;> cases b <;> decide

theorem optionField_ne_formatField (option : Preprocessing.Key) :
    optionField option ≠ formatField := by
  cases option <;> decide

/-- A single setting for a field changes this field of the defaults only. -/
theorem exists_tree_override {path : KeyPath} {field : Field} (h : path.field? = some field)
    (v : Scalar) : ∃ root, (override {} path v).tree = .ok root ∧ root.HasMainTables ∧
      ∀ other, other.table ∈ mainTables → root.field? other =
        if field = other then some (.scalar none v) else valueAmong? other defaults := by
  have leads : ∀ s ∈ (override {} path v).overrides, s.1.field?.isSome = true ∨ s.1.IsForeign := by
    intro s mem
    obtain rfl : s = (path, v) := List.mem_singleton.1 mem
    exact .inl (by rw [h]; rfl)
  obtain ⟨root, built, tables, fields⟩ := exists_tree _ (List.forall_mem_nil _) leads
  refine ⟨root, built, tables, fun other main => ?_⟩
  rw [fields other main]
  change (([(path, v)].filterMap (settingField? other)).getLast?.or none).or _ = _
  by_cases here : field = other
  · have said : settingField? other (path, v) = some (.scalar none v) :=
      if_pos (h.trans (congrArg _ here))
    rw [List.filterMap_cons_some said, if_pos here]
    rfl
  · have silent : settingField? other (path, v) = none :=
      if_neg fun same => here (Option.some.inj (h.symm.trans same))
    rw [List.filterMap_cons_none silent, if_neg here]
    rfl

/-- A loader that is told one field only converts what it has been told, and the defaults of the
other fields. -/
theorem build_override_field {path : KeyPath} {field : Field} (h : path.field? = some field)
    (v : Scalar) : (override {} path v).build = (do
      let p ← Preprocessing.Key.all.foldlM (fun p o => setOption p o (optionKey o)
        (.scalar none (if field = optionField o then v else optionDefault o))) {}
      return (⟨p, ← toFormat (.scalar none (if field = formatField then v else formatDefault))⟩ :
        Configuration)).mapError .settings := by
  obtain ⟨root, built, tables, fields⟩ := exists_tree_override h v
  have options : ∀ o, root.field? (optionField o) =
      some (.scalar none (if field = optionField o then v else optionDefault o)) := by
    intro o
    rw [fields _ List.mem_cons_self, valueAmong?_optionField_defaults]
    split <;> rfl
  have format : root.field? formatField =
      some (.scalar none (if field = formatField then v else formatDefault)) := by
    rw [fields _ (List.mem_cons_of_mem _ List.mem_cons_self), valueAmong?_formatField_defaults]
    split <;> rfl
  rw [build, built]
  exact congrArg _ (Configuration.ofSettings_eq tables options format)

theorem toFormat_default : toFormat (.scalar none formatDefault) = .ok .raw := by decide +kernel

/-- A value for one option is converted, and the other options are as they are by default. -/
theorem foldlM_setOption (option : Preprocessing.Key) (v : Scalar) :
    Preprocessing.Key.all.foldlM (fun p o => setOption p o (optionKey o)
      (.scalar none (if optionField option = optionField o then v else optionDefault o))) {} =
        setOption {} option (optionKey option) (.scalar none v) := by
  simp only [optionField_injective.eq_iff]
  cases option with
  | stripNewlines | stripAll | ensureNewline =>
    simp only [Preprocessing.Key.all, List.foldlM_cons, List.foldlM_nil, setOption, reduceCtorEq,
      if_true, if_false]
    cases toBool _ (.scalar none v) <;> rfl
  | tabSize =>
    simp only [Preprocessing.Key.all, List.foldlM_cons, List.foldlM_nil, setOption, reduceCtorEq,
      if_true, if_false]
    cases toUnsigned _ (.scalar none v) <;> rfl

/-- A loader that is told one option only builds the default configuration with this option. -/
theorem build_override (option : Preprocessing.Key) (v : Scalar) :
    (override {} (optionPath option) v).build =
      ((setOption {} option (optionKey option) (.scalar none v)).map fun p =>
        (⟨p, .raw⟩ : Configuration)).mapError .settings := by
  rw [build_override_field (field?_optionPath option), foldlM_setOption,
    if_neg (optionField_ne_formatField option), toFormat_default]
  cases setOption {} option (optionKey option) (.scalar none v) <;> rfl

/-! ## Single settings -/

/-- A setting for an option is taken, whatever its text. -/
theorem isTaken_option (option : Preprocessing.Key) (text : List Char) :
    IsTaken (optionKey option ++ '=' :: text) (optionPath option)
      (valueOfText (trimBlanks text)) := by
  refine .intro ?_ ?_
  · cases option <;> decide
  · cases option <;> decide +kernel

/-- A text for an option is accepted just if it says what the option is to be. -/
theorem setOption_valueOfText_eq_ok_iff {option : Preprocessing.Key} {text : List Char}
    {p : Preprocessing} : setOption {} option (optionKey option) (.scalar none (valueOfText text)) =
      .ok p ↔ Sets text option p := by
  constructor
  · intro h
    cases option with
    | stripNewlines =>
      obtain ⟨b, converts, h⟩ := bind_eq_ok_iff.1 h
      cases h
      exact .stripNewlines (toBool_valueOfText_eq_ok_iff.1 converts)
    | stripAll =>
      obtain ⟨b, converts, h⟩ := bind_eq_ok_iff.1 h
      cases h
      exact .stripAll (toBool_valueOfText_eq_ok_iff.1 converts)
    | ensureNewline =>
      obtain ⟨b, converts, h⟩ := bind_eq_ok_iff.1 h
      cases h
      exact .ensureNewline (toBool_valueOfText_eq_ok_iff.1 converts)
    | tabSize =>
      obtain ⟨n, converts, h⟩ := bind_eq_ok_iff.1 h
      cases h
      exact .tabSize (toUnsigned_valueOfText_eq_ok_iff.1 converts)
  · intro h
    cases h with
    | stripNewlines said | stripAll said | ensureNewline said =>
      exact bind_eq_ok_iff.2 ⟨_, toBool_valueOfText_eq_ok_iff.2 said, rfl⟩
    | tabSize said => exact bind_eq_ok_iff.2 ⟨_, toUnsigned_valueOfText_eq_ok_iff.2 said, rfl⟩

/-- What is not accepted for an option is of a wrong type. -/
theorem setOption_scalar (option : Preprocessing.Key) (key : List Char) (v : Scalar) :
    (∃ p, setOption {} option key (.scalar none v) = .ok p) ∨
      ∃ unexpected expected, setOption {} option key (.scalar none v) =
        .error (.invalidType unexpected expected key none) := by
  cases option with
  | stripNewlines | stripAll | ensureNewline =>
    obtain ⟨b, eq⟩ | ⟨unexpected, expected, eq⟩ := toBool_scalar key none v
    · exact .inl ⟨_, bind_eq_ok_iff.2 ⟨b, eq, rfl⟩⟩
    · exact .inr ⟨unexpected, expected, by rw [setOption, eq]; rfl⟩
  | tabSize =>
    obtain ⟨n, eq⟩ | ⟨unexpected, expected, eq⟩ := toUnsigned_scalar key none v
    · exact .inl ⟨_, bind_eq_ok_iff.2 ⟨n, eq, rfl⟩⟩
    · exact .inr ⟨unexpected, expected, by rw [setOption, eq]; rfl⟩

/-- The only setting of a loader is taken whatever its text is, and the loader builds a
configuration just if the text says what the option is to be: the distance of tabs is a number of 64
bits without a sign, the other options ask whether a number of 64 bits with a sign is zero, and all
of them take the words for truth values. With any other text the loader complains about the type of
the value. -/
theorem texts_convert (option : Preprocessing.Key) (text : List Char) :
    ∃ loader, withSetting {} (optionKey option ++ '=' :: text) = .ok loader ∧
      (∀ configuration, loader.build = .ok configuration ↔
        ∃ p, Sets (trimBlanks text) option p ∧ configuration = ⟨p, .raw⟩) ∧
      ((∃ p, Sets (trimBlanks text) option p) ∨ ∃ unexpected expected, loader.build =
        .error (.settings (.invalidType unexpected expected (optionKey option) none))) := by
  refine ⟨_, withSetting_of_isTaken (isTaken_option option text) _, fun configuration => ?_, ?_⟩
  · rw [build_override]
    simp only [← setOption_valueOfText_eq_ok_iff]
    cases setOption {} option (optionKey option) _ with
    | error e => exact ⟨nofun, nofun⟩
    | ok p =>
      constructor
      · intro h
        cases h
        exact ⟨p, rfl, rfl⟩
      · rintro ⟨_, ⟨⟩, rfl⟩
        rfl
  · rw [build_override]
    obtain ⟨p, eq⟩ | ⟨unexpected, expected, eq⟩ :=
      setOption_scalar option (optionKey option) (valueOfText (trimBlanks text))
    · exact .inl ⟨p, setOption_valueOfText_eq_ok_iff.1 eq⟩
    · exact .inr ⟨unexpected, expected, by rw [eq]; rfl⟩

/-- The largest size, which is beyond the integers that settings are typed as. -/
example : (withSetting {} "lexer.tabsize= +18446744073709551615".toList).bind build =
    .ok ⟨{ tabSize := 18446744073709551615 }, .raw⟩ := by
  decide +kernel

end Loader
end FancyTokens
