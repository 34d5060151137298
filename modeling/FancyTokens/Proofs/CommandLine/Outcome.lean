import FancyTokens.CommandLine.Run
import FancyTokens.Files.Folder
import FancyTokens.Proofs.Output.Json
import FancyTokens.Proofs.Output.Names
import FancyTokens.Proofs.Output.Raw
import FancyTokens.Proofs.Output.Yaml
import FancyTokens.Proofs.Settings.Layers

/-!
# What a run leaves behind

A run goes through four stages: the settings, the configuration, the name of a format and the input.
What can be wrong in a stage is said here for each of them by itself (`faults`). The first fault is
what the run complains about, and if there is none, its output is that of the whole input
(`output_eq`, `run_outcome`).
-/

namespace FancyTokens

namespace OutputFormat

/-- The texts of the tokens that a text holds. -/
def texts? : OutputFormat → List Char → Option (List (List Char))
  | raw, s => (Raw.read? s).map fun pieces => pieces.map Prod.snd
  | json, s => JsonOutput.texts? s
  | yaml, s => YamlOutput.texts? s

/-- The texts of tokens are read from their output. -/
theorem texts?_render (format : OutputFormat) (tokens : List Token) :
    format.texts? (format.render tokens) = some (tokens.map (·.text)) := by
  cases format with
  | raw =>
    show (Raw.read? (Raw.render tokens)).map _ = _
    rw [Raw.read?_render, Option.map_some, List.map_map]
    rfl
  | json => exact JsonOutput.texts?_render tokens
  | yaml => exact YamlOutput.texts?_render tokens

/-- The output for a source holds the source. -/
theorem flatten_texts?_render (format : OutputFormat) (source : List Char) :
    (format.texts? (format.render (tokenize source))).map List.flatten = some source := by
  rw [texts?_render, Option.map_some, ← List.flatMap_def]
  exact congrArg some (detokenize_tokenize source)

end OutputFormat

/-- Bytes are read as the text whose UTF-8 form they are. -/
theorem textOfBytes_eq_ok_iff {bytes : ByteArray} {text : List Char} :
    textOfBytes bytes = .ok text ↔ bytes = (String.ofList text).toUTF8 := by
  unfold textOfBytes String.fromUTF8?
  constructor
  · intro read
    by_cases valid : bytes.IsValidUTF8
    · rw [dif_pos valid] at read
      have same : (String.fromUTF8 bytes valid).toList = text := Except.ok.inj read
      rw [← same, String.ofList_toList]
      rfl
    · rw [dif_neg valid] at read
      cases read
  · rintro rfl
    rw [String.toUTF8_eq_toByteArray, dif_pos (String.ofList text).isValidUTF8]
    exact congrArg Except.ok String.toList_ofList

/-- What went wrong, if anything did. -/
def faultOf {ε α : Type} : Except ε α → Option ε
  | .error e => some e
  | .ok _ => none

theorem faultOf_eq_none_iff {ε α : Type} {x : Except ε α} :
    faultOf x = none ↔ ∃ a, x = .ok a := by
  cases x <;> simp [faultOf]

theorem faultOf_eq_some_iff {ε α : Type} {x : Except ε α} {e : ε} :
    faultOf x = some e ↔ x = .error e := by
  cases x <;> simp [faultOf]

namespace CommandLine

open Loader Settings

variable {here : Surroundings Id} {a : Arguments} {loader : Loader}

/-! ## Settings -/

/-- What is wrong with a setting. -/
def settingFault? (setting : List Char) : Option LoadError :=
  match splitSetting? setting with
  | none | some ([], _) => some (.invalidSetting setting)
  | some (key, _) => (faultOf (KeyPath.read key)).map fun e => .settings (.path e)

/-- A setting is refused by every loader or by none. -/
theorem faultOf_withSetting (loader : Loader) (setting : List Char) :
    faultOf (loader.withSetting setting) = settingFault? setting := by
  unfold settingFault? withSetting
  cases splitSetting? setting with
  | none => rfl
  | some sides =>
    obtain ⟨key, value⟩ := sides
    cases key with
    | nil => rfl
    | cons c key =>
      simp only
      cases KeyPath.read (c :: key) <;> rfl

/-- The first setting that cannot be taken decides. -/
theorem faultOf_withSettings (loader : Loader) (settings : List (List Char)) :
    faultOf (loader.withSettings settings) = settings.findSome? settingFault? := by
  induction settings generalizing loader with
  | nil => rfl
  | cons setting settings ih =>
    rw [withSettings, List.foldlM_cons, List.findSome?_cons, ← faultOf_withSetting loader]
    cases loader.withSetting setting with
    | error e => rfl
    | ok loader' => exact ih loader'

/-! ## Configuration -/

/-- The layer of the file that a path stands for. -/
def fileLayer (here : Surroundings Id) (path : List Char) : Layer :=
  match Id.run (settingsFile? here path) with
  | none => .file path .missing
  | some path => .file (shownPath (Id.run here.folder) path) <|
    match textOfReading (Id.run (here.read path)) with
    | .ok text => .text text
    | .error e => .unreadable e

/-- The layers that the arguments name: a file, if there is one, and the settings. -/
def layers (here : Surroundings Id) (a : Arguments) : List Layer :=
  a.config.toList.map (fileLayer here) ++ [.settings a.settings]

/-- The configuration of these layers. -/
def configured (here : Surroundings Id) (a : Arguments) : Except LoadError Configuration :=
  (ofLayers (layers here a)).bind build

/-- The loader that is given the settings. -/
def fileLoader (here : Surroundings Id) (a : Arguments) : Loader :=
  match a.config with
  | some path => Id.run (addSettingsFile here path)
  | none => {}

theorem add_fileLayer (here : Surroundings Id) (path : List Char) :
    add {} (fileLayer here path) = .ok (Id.run (addSettingsFile here path)) := by
  unfold addSettingsFile fileLayer
  cases found : Id.run (settingsFile? here path) with
  | none =>
    simp only [add, found, Id.run_bind]
    rfl
  | some path =>
    simp only [add, found, Id.run_bind]
    rfl

theorem configured_eq (here : Surroundings Id) (a : Arguments) :
    configured here a = ((fileLoader here a).withSettings a.settings).bind build := by
  have file : (a.config.toList.map (fileLayer here)).foldlM add {} = .ok (fileLoader here a) := by
    unfold fileLoader
    cases a.config with
    | none => rfl
    | some path =>
      show (add {} (fileLayer here path)).bind _ = _
      rw [add_fileLayer]
      rfl
  have whole : ofLayers (layers here a) = (fileLoader here a).withSettings a.settings := by
    rw [ofLayers, layers, List.foldlM_append, file]
    show (add (fileLoader here a) (.settings a.settings)).bind _ = _
    rw [add]
    cases (fileLoader here a).withSettings a.settings <;> rfl
  rw [configured, whole]

/-! ## Format and input -/

/-- The format of the arguments, or else of the configuration. -/
def chosenFormat (a : Arguments) (configuration : Configuration) :
    Except UnknownFormat OutputFormat :=
  match a.format with
  | some name => OutputFormat.read name
  | none => .ok configuration.format

/-- The bytes of the input: those of a file, or of the standard input. -/
def inputBytes (here : Surroundings Id) (a : Arguments) : Except SystemError ByteArray :=
  if a.path.getD ['-'] = ['-'] then Id.run here.standardInput
  else Id.run (here.read (a.path.getD ['-']))

/-- The input is the UTF-8 form of a text. -/
def IsInput (here : Surroundings Id) (a : Arguments) (text : List Char) : Prop :=
  inputBytes here a = .ok (String.ofList text).toUTF8

/-- What is made tokens of: the input itself or what preprocessing makes of it. -/
def prepared (a : Arguments) (configuration : Configuration) (text : List Char) : List Char :=
  if a.unprocessed then text else configuration.preprocessing.apply text

theorem source_eq (here : Surroundings Id) (a : Arguments) :
    Id.run (source here (a.path.getD ['-'])) = textOfReading (inputBytes here a) := by
  unfold source inputBytes
  by_cases dash : a.path.getD ['-'] = ['-']
  · simp [dash]
  · simp [dash]

theorem textOfReading_eq_ok_iff {reading : Except SystemError ByteArray} {text : List Char} :
    textOfReading reading = .ok text ↔ reading = .ok (String.ofList text).toUTF8 := by
  cases reading with
  | error e =>
    constructor <;> intro same <;> cases same
  | ok bytes =>
    rw [textOfReading, textOfBytes_eq_ok_iff, Except.ok.injEq]

/-! ## Faults -/

/-- What is wrong in each stage of a run, in the order of the stages. -/
def faults (here : Surroundings Id) (a : Arguments) : List (Option Failure) := [
  (a.settings.findSome? settingFault?).map .load,
  (faultOf (configured here a)).map .load,
  (a.format.bind fun name => faultOf (OutputFormat.read name)).map .format,
  (faultOf (textOfReading (inputBytes here a))).map .input]

/-- What is wrong in the first stage in which anything is. -/
def firstFault? (here : Surroundings Id) (a : Arguments) : Option Failure :=
  (faults here a).findSome? id

/-- A plan has the chosen format, once there is a configuration. -/
theorem Arguments.plan_eq (a : Arguments) (loader : Loader) : a.plan loader =
    (((loader.withSettings a.settings).bind build).mapError .load).bind fun configuration =>
      ((chosenFormat a configuration).mapError .format).map fun format =>
        ⟨if a.unprocessed then none else some configuration.preprocessing, format⟩ := by
  unfold Arguments.plan chosenFormat
  cases loader.withSettings a.settings with
  | error e => rfl
  | ok loader =>
    show (loader.build.mapError Failure.load).bind _ = (loader.build.mapError Failure.load).bind _
    cases loader.build with
    | error e => rfl
    | ok configuration =>
      cases a.format with
      | none => rfl
      | some name =>
        simp only
        cases OutputFormat.read name <;> rfl

/-- A plan comes from the configuration of the layers that the arguments name. -/
theorem plan_eq (here : Surroundings Id) (a : Arguments) : a.plan (fileLoader here a) =
    ((configured here a).mapError .load).bind fun configuration =>
      ((chosenFormat a configuration).mapError .format).map fun format =>
        ⟨if a.unprocessed then none else some configuration.preprocessing, format⟩ := by
  rw [configured_eq]
  exact a.plan_eq (fileLoader here a)

/-- What is wrong with the settings is wrong with the configuration. -/
theorem faultOf_configured {e : LoadError} (h : a.settings.findSome? settingFault? = some e) :
    configured here a = .error e := by
  rw [← faultOf_withSettings (fileLoader here a), faultOf_eq_some_iff] at h
  rw [configured_eq, h]
  rfl

/-- A plan fails with the first fault of the arguments. -/
theorem faultOf_plan (here : Surroundings Id) (a : Arguments) :
    faultOf (a.plan (fileLoader here a)) = ((faults here a).take 3).findSome? id := by
  rw [plan_eq, faults]
  -- a refused setting is the fault of two stages, and the first of them is asked first
  cases refused : a.settings.findSome? settingFault? with
  | some e =>
    rw [faultOf_configured refused]
    rfl
  | none =>
    cases configured here a with
    | error e => rfl
    | ok configuration =>
      unfold chosenFormat
      cases a.format with
      | none => rfl
      | some name =>
        simp only [Option.bind_some]
        cases OutputFormat.read name <;> rfl

theorem run_output (here : Surroundings Id) (a : Arguments) :
    Id.run (a.output here) = (a.plan (fileLoader here a)).bind fun plan =>
      ((textOfReading (inputBytes here a)).mapError .input).map plan.output := by
  rw [← source_eq]
  unfold Arguments.output fileLoader
  cases a.config with
  | none =>
    simp only [Id.run_bind, Id.run_pure]
    cases a.plan {} <;> rfl
  | some path =>
    simp only [Id.run_bind]
    cases a.plan (Id.run (addSettingsFile here path)) <;> rfl

/-- A run fails with its first fault. -/
theorem faultOf_output (here : Surroundings Id) (a : Arguments) :
    faultOf (Id.run (a.output here)) = firstFault? here a := by
  have plan := faultOf_plan here a
  have parts : faults here a = (faults here a).take 3 ++
      [(faultOf (textOfReading (inputBytes here a))).map .input] := rfl
  rw [run_output, firstFault?, parts, List.findSome?_append, ← plan]
  cases a.plan (fileLoader here a) with
  | error e => rfl
  | ok plan => cases textOfReading (inputBytes here a) <;> rfl

/-- Without a fault, the output is that of the whole input. -/
theorem output_eq {configuration : Configuration} {format : OutputFormat} {text : List Char}
    (built : configured here a = .ok configuration)
    (chosen : chosenFormat a configuration = .ok format) (input : IsInput here a text) :
    Id.run (a.output here) = .ok (format.render (tokenize (prepared a configuration text))) := by
  rw [run_output, plan_eq, built, textOfReading_eq_ok_iff.2 input]
  show (((chosenFormat a configuration).mapError Failure.format).map _).bind _ = _
  rw [chosen]
  show Except.ok (format.render (tokenize _)) = _
  unfold prepared
  cases a.unprocessed <;> rfl

/-! ## Configuration faults -/

/-- What is wrong with the configuration comes before the format and the input. -/
theorem firstFault?_of_configured {e : LoadError} (h : configured here a = .error e) :
    firstFault? here a = some (.load e) := by
  rw [firstFault?, faults, h]
  cases refused : a.settings.findSome? settingFault? with
  | none => rfl
  | some e' =>
    rw [faultOf_configured refused, Except.error.injEq] at h
    rw [h]
    rfl

/-- Settings leave the files of a loader alone. -/
theorem files_withSettings {loader' : Loader} {settings : List (List Char)}
    (accepted : loader.withSettings settings = .ok loader') : loader'.files = loader.files := by
  induction settings generalizing loader with
  | nil =>
    cases accepted
    rfl
  | cons setting settings ih =>
    rw [withSettings, List.foldlM_cons] at accepted
    obtain ⟨next, first, later⟩ := bind_eq_ok_iff.1 accepted
    have same : next.files = loader.files := by
      unfold withSetting at first
      split at first
      · cases first
      · cases first
      · split at first
        · cases first
        · cases first
          rfl
    rw [ih later, same]

/-- Without its file there is no configuration. -/
theorem configured_of_missing {path : List Char} (named : a.config = some path)
    (nowhere : Id.run (settingsFile? here path) = none)
    (accepted : ∀ s ∈ a.settings, settingFault? s = none) :
    configured here a = .error (.settings (.missing path)) := by
  have file : fileLayer here path = .file path .missing := by
    rw [fileLayer, nowhere]
  have only : fileLoader here a = Loader.withFile {} path .missing := by
    have added := add_fileLayer here path
    rw [file, add] at added
    rw [fileLoader, named]
    exact (Except.ok.inj added).symm
  have none : a.settings.findSome? settingFault? = none := List.findSome?_eq_none_iff.2 accepted
  rw [← faultOf_withSettings (fileLoader here a), faultOf_eq_none_iff] at none
  obtain ⟨loader, taken⟩ := none
  -- files are read before settings, so a missing one is found whatever the settings say
  have files : loader.files = [(path, .missing)] := by
    rw [files_withSettings taken, only]
    rfl
  rw [configured_eq, taken]
  show build loader = _
  rw [build, tree, files]
  rfl

/-- Where the format that wins is no format there is no configuration. -/
theorem exists_configured_error (plain : ArePlain (layers here a)) {value : Value}
    (won : winner? (layers here a) formatField = some value)
    (bad : ∀ format, toFormat value ≠ .ok format) : ∃ e, configured here a = .error e := by
  obtain ⟨loader, added, resolves⟩ := exists_resolves plain
  cases built : configured here a with
  | error e => exact ⟨e, rfl⟩
  | ok configuration =>
    rw [configured, added] at built
    obtain ⟨-, value', won', read⟩ := (resolves.build_iff configuration).1 built
    rw [won, Option.mem_some_iff] at won'
    exact absurd (won' ▸ read) (bad _)

/-! ## Runs -/

/-- What a run leaves behind. -/
def result (here : Surroundings Id) (arguments : List (List Char)) : Outcome :=
  Id.run (run here arguments)

theorem result_eq {arguments : List (List Char)}
    (asked : Request.read? arguments = some (.run a)) (info : a.info = false)
    (list : a.listFormats = false) : result here arguments =
      match Id.run (a.output here) with
      | .ok output => { output }
      | .error e => { status := 1, complaint := s!"Error: {e.message}\n".toList } := by
  rw [result, run, asked]
  show Id.run (a.outcome here) = _
  unfold Arguments.outcome
  rw [if_neg (by simp [info]), if_neg (by simp [list]), Id.run_bind]
  cases Id.run (a.output here) <;> rfl

/-- All four stages of a run succeed. -/
structure Succeeds (here : Surroundings Id) (a : Arguments) : Prop where
  settings : ∀ setting ∈ a.settings, settingFault? setting = none
  configuration : ∃ configuration, configured here a = .ok configuration
  format : ∀ name ∈ a.format, ∃ format, OutputFormat.ofName? name = some format
  input : ∃ text, IsInput here a text

theorem firstFault?_eq_none_iff : firstFault? here a = none ↔ Succeeds here a := by
  have format : (a.format.bind fun name => faultOf (OutputFormat.read name)) = none ↔
      ∀ name ∈ a.format, ∃ format, OutputFormat.ofName? name = some format := by
    simp only [Option.bind_eq_none_iff, faultOf_eq_none_iff, OutputFormat.read_eq_ok_iff,
      Option.mem_def]
  have input : faultOf (textOfReading (inputBytes here a)) = none ↔
      ∃ text, IsInput here a text := by
    simp only [faultOf_eq_none_iff, textOfReading_eq_ok_iff, IsInput]
  constructor
  · intro none
    simp only [firstFault?, faults, List.findSome?_eq_none_iff, List.mem_cons, List.not_mem_nil,
      or_false, forall_eq_or_imp, forall_eq, id, Option.map_eq_none_iff] at none
    exact ⟨none.1, faultOf_eq_none_iff.1 none.2.1, format.1 none.2.2.1, input.1 none.2.2.2⟩
  · intro h
    simp only [firstFault?, faults, List.findSome?_eq_none_iff, List.mem_cons, List.not_mem_nil,
      or_false, forall_eq_or_imp, forall_eq, id, Option.map_eq_none_iff]
    exact ⟨h.settings, faultOf_eq_none_iff.2 h.configuration, format.2 h.format, input.2 h.input⟩

end CommandLine
end FancyTokens
