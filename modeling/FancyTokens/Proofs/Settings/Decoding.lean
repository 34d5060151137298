import FancyTokens.Proofs.Settings.Tree

/-!
# Fields of a configuration

A configuration is made of the values of five fields: the options of preprocessing and the output
format. They are converted one after another (`Configuration.ofSettings_eq`), and each is read on
its own (`Configuration.ofSettings_eq_ok_iff`).
-/

namespace FancyTokens
namespace Settings

variable {value : Value} {es : List (Key × Value)}

/-! ## Preprocessing -/

/-- Where an option stands. -/
def optionField (option : Preprocessing.Key) : Field :=
  ⟨"lexer".toList, option.name.toList⟩

/-- Where the output format stands. -/
def formatField : Field :=
  ⟨"output".toList, "format".toList⟩

/-- The key of an option in an error message. -/
def optionKey (option : Preprocessing.Key) : List Char :=
  "lexer.".toList ++ option.name.toList

/-- The value is read as what an option is set to. -/
def IsReadAs (option : Preprocessing.Key) (value : Value) (p : Preprocessing) : Prop :=
  match option with
  | .stripNewlines => toBool (optionKey option) value = .ok p.stripNewlines
  | .stripAll => toBool (optionKey option) value = .ok p.stripAll
  | .ensureNewline => toBool (optionKey option) value = .ok p.ensureNewline
  | .tabSize => toUnsigned (optionKey option) value = .ok p.tabSize

instance (option : Preprocessing.Key) (value : Value) (p : Preprocessing) :
    Decidable (IsReadAs option value p) :=
  match option with
  | .stripNewlines | .stripAll | .ensureNewline | .tabSize => inferInstanceAs (Decidable (_ = _))

theorem setNamed_cons {option : Preprocessing.Key} {rest : List Preprocessing.Key}
    (found : es.lookup option.name.toList = some value) (options : Preprocessing) :
    setNamed es options (option :: rest) =
      setOption options option (optionKey option) value >>= fun options =>
        setNamed es options rest := by
  rw [setNamed, found]
  rfl

/-- If all options are there, they are set one after another. -/
theorem setNamed_eq_foldlM {values : Preprocessing.Key → Value}
    (found : ∀ option, es.lookup option.name.toList = some (values option))
    (options : Preprocessing) (rest : List Preprocessing.Key) :
    setNamed es options rest =
      rest.foldlM (fun p option => setOption p option (optionKey option) (values option))
        options := by
  induction rest generalizing options with
  | nil => rfl
  | cons option rest ih =>
    rw [setNamed_cons (found option), List.foldlM_cons]
    exact congrArg _ (funext ih)

/-- Options that are set one after another have what the values say. -/
theorem foldlM_setOption_eq_ok_iff {values : Preprocessing.Key → Value} {p : Preprocessing} :
    Preprocessing.Key.all.foldlM
        (fun p option => setOption p option (optionKey option) (values option)) {} = .ok p ↔
      ∀ option, IsReadAs option (values option) p := by
  simp only [Preprocessing.Key.all, List.foldlM_cons, List.foldlM_nil, bind_eq_ok_iff, setOption]
  constructor
  · rintro ⟨_, ⟨a, ha, h₁⟩, _, ⟨b, hb, h₂⟩, _, ⟨c, hc, h₃⟩, _, ⟨d, hd, h₄⟩, h₅⟩
    cases h₁
    cases h₂
    cases h₃
    cases h₄
    cases h₅
    intro option
    cases option with
    | stripNewlines => exact ha
    | stripAll => exact hb
    | ensureNewline => exact hc
    | tabSize => exact hd
  · intro h
    exact ⟨_, ⟨_, h .stripNewlines, rfl⟩, _, ⟨_, h .stripAll, rfl⟩, _, ⟨_, h .ensureNewline, rfl⟩,
      _, ⟨_, h .tabSize, rfl⟩, rfl⟩

end Settings

open Settings

/-- A configuration is made of what the values of the fields convert to, one after another. -/
theorem Configuration.ofSettings_eq {root : Value} {values : Preprocessing.Key → Value}
    {format : Value} (tables : root.HasMainTables)
    (options_found : ∀ option, root.field? (optionField option) = some (values option))
    (format_found : root.field? formatField = some format) :
    Configuration.ofSettings root = (do
      let p ← Preprocessing.Key.all.foldlM
        (fun p option => setOption p option (optionKey option) (values option)) {}
      return ⟨p, ← toFormat format⟩) := by
  obtain ⟨lexer, lexer_found, lexer_table⟩ := tables "lexer".toList (by decide)
  obtain ⟨output, output_found, output_table⟩ := tables "output".toList (by decide)
  obtain ⟨lexer_origin, es, rfl⟩ := Value.exists_of_isTable lexer_table
  obtain ⟨output_origin, es', rfl⟩ := Value.exists_of_isTable output_table
  have options : ∀ option, es.lookup option.name.toList = some (values option) := by
    intro option
    have found := options_found option
    rw [Value.field?, optionField, lexer_found] at found
    exact found
  have format : es'.lookup "format".toList = some format := by
    rw [Value.field?, formatField, output_found] at format_found
    exact format_found
  rw [Configuration.ofSettings, lexer_found, output_found]
  simp only [toPreprocessing, toOutput, setNamed_eq_foldlM options, format]

/-- A configuration is what the values of the fields say. -/
theorem Configuration.ofSettings_eq_ok_iff {root : Value} {values : Preprocessing.Key → Value}
    {format : Value} {configuration : Configuration} (tables : root.HasMainTables)
    (options_found : ∀ option, root.field? (optionField option) = some (values option))
    (format_found : root.field? formatField = some format) :
    Configuration.ofSettings root = .ok configuration ↔
      (∀ option, IsReadAs option (values option) configuration.preprocessing) ∧
        toFormat format = .ok configuration.format := by
  rw [ofSettings_eq tables options_found format_found]
  simp only [bind_eq_ok_iff, foldlM_setOption_eq_ok_iff]
  constructor
  · rintro ⟨p, hp, f, hf, h⟩
    cases h
    exact ⟨hp, hf⟩
  · rintro ⟨hp, hf⟩
    exact ⟨_, hp, _, hf, rfl⟩

end FancyTokens
