import Mathlib.Data.List.Induction
import FancyTokens.Proofs.Settings.Decoding
import FancyTokens.Proofs.Settings.Paths

/-!
# Layers of settings, field by field

Settings are kept apart from files until all layers are there, so where they stand among the files
does not matter (`foldlM_add`), and of the settings for a field the last one is left
(`filterMap_foldl_put`). A field therefore ends up with the value of the last setting for it, or
else of the last file that has it, or else with the default (`winner?`). A configuration is made of
these values alone (`layers_resolve`): what loses is never looked at.

The keys of a file are read as paths, like the keys of settings. Only files whose keys do not lead
into one of the two tables are plain: any other key may put something else in the place of the table
(`subscript_replaces_table`). Nor may a key name a place before the start of an array
(`subscript_before_start`).
-/

namespace FancyTokens
namespace Settings

/-! ## Single settings -/

/-- The path and the value of a setting. -/
def readSetting? (setting : List Char) : Option (KeyPath × Scalar) :=
  (splitSetting? setting).bind fun (key, value) =>
    (KeyPath.read key).toOption.map fun path => (path, valueOfText value)

/-- The setting is for a field, or for something past the two tables. -/
def IsPlainSetting (setting : List Char) : Prop :=
  ∃ s ∈ readSetting? setting, s.1.field?.isSome = true ∨ s.1.IsForeign

instance (setting : List Char) : Decidable (IsPlainSetting setting) :=
  inferInstanceAs (Decidable (∃ s ∈ readSetting? setting, _))

/-- Of the settings, those for one field are spelled alike. -/
def AreAlike (settings : List (KeyPath × Scalar)) : Prop :=
  ∀ a ∈ settings, ∀ b ∈ settings, a.1.field?.isSome = true → a.1.field? = b.1.field? → a.1 = b.1

instance (settings : List (KeyPath × Scalar)) : Decidable (AreAlike settings) :=
  inferInstanceAs (Decidable (∀ a ∈ settings, _))

/-- What a setting says of a field. -/
def settingField? (field : Field) (setting : KeyPath × Scalar) : Option Value :=
  if setting.1.field? = some field then some (.scalar none setting.2) else none

/-! ## Files -/

/-- The entries of a file. There are none if it is no TOML document. -/
def fileEntries? : List Char × FileContents → Option (List (Key × Value))
  | (name, .text contents) => (Toml.read? contents).map (Value.ofEntries (some name))
  | _ => none

/-- The file can be merged key by key. -/
def IsPlainFile (file : List Char × FileContents) : Prop :=
  ∃ es ∈ fileEntries? file, IsMergeable es ∧ ∀ e ∈ es, IsPlainKey e.1

instance (file : List Char × FileContents) : Decidable (IsPlainFile file) :=
  inferInstanceAs (Decidable (∃ es ∈ fileEntries? file, _))

/-- What a file says of a field. -/
def fileField? (field : Field) (file : List Char × FileContents) : Option Value :=
  (fileEntries? file).bind (valueAmong? field)

end Settings

namespace Loader

open Settings

/-! ## Layers -/

/-- The files of a layer. -/
def Layer.files : Layer → List (List Char × FileContents)
  | .file name contents => [(name, contents)]
  | .settings _ => []

/-- The single settings of a layer. -/
def Layer.texts : Layer → List (List Char)
  | .file .. => []
  | .settings texts => texts

/-- The files of some layers. -/
def filesOf (layers : List Layer) : List (List Char × FileContents) :=
  layers.flatMap Layer.files

/-- The settings of some layers. -/
def settingsOf (layers : List Layer) : List (KeyPath × Scalar) :=
  (layers.flatMap Layer.texts).filterMap readSetting?

/-- The value that a field ends up with: that of the last setting for it, or else of the last file
that has it, or else the default. -/
def winner? (layers : List Layer) (field : Field) : Option Value :=
  (((settingsOf layers).filterMap (settingField? field)).getLast?.or
    ((filesOf layers).filterMap (fileField? field)).getLast?).or
      (valueAmong? field defaults)

/-- Layers that are resolved field by field. -/
structure ArePlain (layers : List Layer) : Prop where
  texts : ∀ text ∈ layers.flatMap Layer.texts, IsPlainSetting text
  files : ∀ file ∈ filesOf layers, IsPlainFile file
  alike : AreAlike (settingsOf layers)

variable {layers : List Layer} {loader : Loader} {field : Field} {path : KeyPath} {value : Scalar}
  {overrides : List (KeyPath × Scalar)}

/-! ## Overrides -/

/-- A setting for something else leaves what the overrides say of a field. -/
theorem filterMap_put_of_ne (other : path.field? ≠ some field) :
    (Entries.put path value overrides).filterMap (settingField? field) =
      overrides.filterMap (settingField? field) := by
  have silent : ∀ v, settingField? field (path, v) = none := fun v => if_neg other
  induction overrides with
  | nil => rw [Entries.put, List.filterMap_cons_none (silent value)]
  | cons b overrides ih =>
    obtain ⟨p, old⟩ := b
    rw [Entries.put]
    by_cases same : p = path
    · rw [if_pos same, List.filterMap_cons_none (silent value), same,
        List.filterMap_cons_none (silent old)]
    · rw [if_neg same, List.filterMap_cons, List.filterMap_cons, ih]

/-- A setting for a field takes the place of the only one that there may have been. -/
theorem filterMap_put (here : path.field? = some field)
    (alike : ∀ a ∈ overrides, a.1.field? = some field → a.1 = path)
    (one : (overrides.filterMap (settingField? field)).length ≤ 1) :
    (Entries.put path value overrides).filterMap (settingField? field) = [.scalar none value] := by
  have said : ∀ v, settingField? field (path, v) = some (.scalar none v) := fun v => if_pos here
  induction overrides with
  | nil => rw [Entries.put, List.filterMap_cons_some (said value), List.filterMap_nil]
  | cons b overrides ih =>
    obtain ⟨p, old⟩ := b
    rw [Entries.put]
    by_cases same : p = path
    · rw [same, List.filterMap_cons_some (said old), List.length_cons] at one
      have rest : overrides.filterMap (settingField? field) = [] :=
        List.eq_nil_of_length_eq_zero (by omega)
      rw [if_pos same, List.filterMap_cons_some (said value), rest]
    · have silent : settingField? field (p, old) = none :=
        if_neg fun found => same (alike _ List.mem_cons_self found)
      rw [List.filterMap_cons_none silent] at one
      rw [if_neg same, List.filterMap_cons_none silent]
      exact ih (fun a mem => alike a (List.mem_cons_of_mem _ mem)) one

theorem exists_mem_of_mem_foldl_put {settings : List (KeyPath × Scalar)} {a : KeyPath × Scalar}
    (mem : a ∈ settings.foldl (fun o s => Entries.put s.1 s.2 o) []) :
    ∃ b ∈ settings, a.1 = b.1 := by
  induction settings using List.reverseRecOn with
  | nil => cases mem
  | append_singleton settings s ih =>
    rw [List.foldl_append] at mem
    obtain same | mem := Entries.key_eq_or_mem_of_mem_put mem
    · exact ⟨s, List.mem_append_right _ List.mem_cons_self, same⟩
    · obtain ⟨b, mem, same⟩ := ih mem
      exact ⟨b, List.mem_append_left _ mem, same⟩

/-- Of the settings for a field the last one is left. -/
theorem filterMap_foldl_put {settings : List (KeyPath × Scalar)} (alike : AreAlike settings)
    (field : Field) :
    (settings.foldl (fun o s => Entries.put s.1 s.2 o) []).filterMap (settingField? field) =
      (settings.filterMap (settingField? field)).getLast?.toList := by
  induction settings using List.reverseRecOn with
  | nil => rfl
  | append_singleton settings s ih =>
    have mem_last : s ∈ settings ++ [s] := List.mem_append_right _ List.mem_cons_self
    have mem_left : ∀ a ∈ settings, a ∈ settings ++ [s] := fun a mem => List.mem_append_left _ mem
    have left := ih fun a mem b mem' => alike a (mem_left a mem) b (mem_left b mem')
    rw [List.foldl_append, List.foldl_cons, List.foldl_nil, List.filterMap_append]
    by_cases here : s.1.field? = some field
    · have said : settingField? field s = some (.scalar none s.2) := if_pos here
      rw [filterMap_put here, List.filterMap_cons_some said, List.filterMap_nil,
        List.getLast?_concat]
      · rfl
      · intro a mem found
        obtain ⟨b, mem', same⟩ := exists_mem_of_mem_foldl_put mem
        rw [same] at found ⊢
        exact alike b (mem_left b mem') s mem_last (by rw [found]; rfl) (found.trans here.symm)
      · rw [left]
        cases (settings.filterMap (settingField? field)).getLast? <;> simp
    · have silent : settingField? field s = none := if_neg here
      rw [filterMap_put_of_ne here, left, List.filterMap_cons_none silent, List.filterMap_nil,
        List.append_nil]

theorem withSetting_eq_ok {text : List Char} {setting : KeyPath × Scalar}
    (h : readSetting? text = some setting) (loader : Loader) :
    loader.withSetting text =
      .ok { loader with overrides := Entries.put setting.1 setting.2 loader.overrides } := by
  obtain ⟨⟨key, value⟩, split, h⟩ := Option.bind_eq_some_iff.1 h
  obtain ⟨path, read, rfl⟩ := Option.map_eq_some_iff.1 h
  have read : KeyPath.read key = .ok path := by
    cases result : KeyPath.read key with
    | error e =>
      rw [result] at read
      cases read
    | ok path' =>
      rw [result] at read
      cases read
      rfl
  rw [withSetting, split]
  cases key with
  | nil => cases read
  | cons c key =>
    simp only [read]
    rfl

/-! ## Adding the layers -/

theorem withSettings_eq_ok {texts : List (List Char)}
    (h : ∀ text ∈ texts, IsPlainSetting text) (loader : Loader) :
    loader.withSettings texts = .ok { loader with
      overrides := (texts.filterMap readSetting?).foldl (fun o s => Entries.put s.1 s.2 o)
        loader.overrides } := by
  induction texts generalizing loader with
  | nil => rfl
  | cons text texts ih =>
    obtain ⟨setting, read, -⟩ := h text List.mem_cons_self
    have later := ih (fun t mem => h t (List.mem_cons_of_mem _ mem))
    rw [withSettings, List.foldlM_cons, withSetting_eq_ok read, List.filterMap_cons_some read]
    exact later _

/-- Wherever the settings stand among the files, the loader has the files in their order and the
settings in theirs. -/
theorem foldlM_add (h : ∀ text ∈ layers.flatMap Layer.texts, IsPlainSetting text)
    (loader : Loader) : layers.foldlM add loader = .ok
      ⟨loader.files ++ filesOf layers,
        (settingsOf layers).foldl (fun o s => Entries.put s.1 s.2 o) loader.overrides⟩ := by
  induction layers generalizing loader with
  | nil =>
    rw [filesOf, List.flatMap_nil, List.append_nil]
    rfl
  | cons layer layers ih =>
    rw [List.flatMap_cons] at h
    have later := ih fun t mem => h t (List.mem_append_right _ mem)
    rw [List.foldlM_cons, filesOf, settingsOf, List.flatMap_cons, List.flatMap_cons,
      List.filterMap_append, List.foldl_append]
    cases layer with
    | file name contents =>
      rw [add, ← List.append_assoc]
      exact later _
    | settings texts =>
      have first : ∀ text ∈ texts, IsPlainSetting text :=
        fun t mem => h t (List.mem_append_left _ mem)
      rw [add, withSettings_eq_ok first]
      exact later _

/-! ## The tree of the layers -/

/-- A file writes what it says of the fields. -/
theorem addFile_writes {root : Value} {file : List Char × FileContents}
    (tables : root.HasMainTables) (plain : IsPlainFile file) :
    ∃ root', addFile root file = .ok root' ∧ root.Writes root' (fileField? · file) := by
  obtain ⟨es, read, mergeable, keys⟩ := plain
  obtain ⟨name, contents⟩ := file
  cases contents with
  | missing => cases read
  | unreadable e => cases read
  | text contents =>
    obtain ⟨nodes, toml, rfl⟩ := Option.map_eq_some_iff.1 read
    obtain ⟨root', run, writes⟩ := Value.exists_foldlM_writes addEntry?
      (fun e mem root tables => addEntry?_writes tables (keys e mem) (mergeable.2 e mem)) tables
    refine ⟨root', ?_, writes.congr ?_⟩
    · rw [addFile, toml]
      simp only [run]
      rfl
    · intro field mem
      rw [fileField?, read, getLast?_entryField? field mergeable.1]
      rfl

theorem setAll_defaults : Value.setAll .empty defaults = .table none defaults := by
  rfl

theorem hasMainTables_defaults : (Value.setAll .empty defaults).HasMainTables := by
  rw [setAll_defaults]
  intro name mem
  rw [mainTables, List.mem_cons, List.mem_singleton] at mem
  obtain rfl | rfl := mem
  · exact ⟨_, rfl, rfl⟩
  · exact ⟨_, rfl, rfl⟩

/-- The fields of the defaults are those of their tree. -/
theorem field?_defaults (field : Field) :
    (Value.setAll .empty defaults).field? field = valueAmong? field defaults := by
  have lower : ∀ e ∈ defaults, lowercase e.1 = e.1 := by decide +kernel
  have inner_lower : ∀ e ∈ defaults, ∀ inner ∈ e.2.entries, lowercase inner.1 = inner.1 := by
    decide +kernel
  rw [setAll_defaults, Value.field?, valueAmong?, Value.findFolded?_eq_lookup lower]
  cases found : defaults.lookup field.table with
  | none =>
    rw [Value.entries, found]
    rfl
  | some inner =>
    have inner_lower := inner_lower _ (Entries.mem_of_lookup found)
    rw [Value.entries, found, Option.bind_some, Option.bind_some,
      Value.findFolded?_eq_lookup inner_lower]

/-- The tree of plain files and settings. -/
theorem exists_tree (loader : Loader) (files : ∀ file ∈ loader.files, IsPlainFile file)
    (settings : ∀ s ∈ loader.overrides, s.1.field?.isSome = true ∨ s.1.IsForeign) :
    ∃ root, loader.tree = .ok root ∧ root.HasMainTables ∧
      ∀ field, field.table ∈ mainTables → root.field? field =
        ((loader.overrides.filterMap (settingField? field)).getLast?.or
          (loader.files.filterMap (fileField? field)).getLast?).or
            (valueAmong? field defaults) := by
  obtain ⟨root, first, writes⟩ := Value.exists_foldlM_writes addFile
    (fun file mem root tables => addFile_writes tables (files file mem)) hasMainTables_defaults
  have each : ∀ s ∈ loader.overrides, ∀ root : Value, root.HasMainTables →
      ∃ root', s.1.set? (.scalar none s.2) root = some root' ∧
        root.Writes root' (settingField? · s) := by
    intro s mem root tables
    cases found : s.1.field? with
    | some field =>
      obtain ⟨root', eq, writes⟩ := KeyPath.writes_field tables found (.scalar none s.2) rfl
      refine ⟨root', eq, writes.congr ?_⟩
      intro other _
      rw [settingField?, found]
      simp only [Option.some.injEq]
    | none =>
      have foreign : s.1.IsForeign := by
        refine (settings s mem).resolve_left ?_
        rw [found]
        decide
      obtain ⟨root', eq, writes⟩ := KeyPath.writes_foreign tables foreign (.scalar none s.2)
      refine ⟨root', eq, writes.congr ?_⟩
      intro other _
      rw [settingField?, found]
      rfl
  obtain ⟨root', second, writes'⟩ := Value.exists_foldlM_writes
    (fun root (s : KeyPath × Scalar) => s.1.set? (.scalar none s.2) root) each writes.tables
  refine ⟨root', ?_, writes'.tables, ?_⟩
  · rw [tree, first, pure_bind]
    dsimp only
    split
    · next overflow => cases second.symm.trans overflow
    · next run =>
      rw [Option.some.inj (second.symm.trans run)]
      rfl
  · intro field mem
    rw [writes'.field field mem, writes.field field mem, field?_defaults, Option.or_assoc]

/-! ## Winners -/

/-- A further setting wins over all layers before it, where it says something. -/
theorem winner?_concat_setting {text : List Char} {setting : KeyPath × Scalar}
    (h : readSetting? text = some setting) (layers : List Layer) (field : Field) :
    winner? (layers ++ [.settings [text]]) field =
      (settingField? field setting).or (winner? layers field) := by
  have settings : settingsOf (layers ++ [.settings [text]]) = settingsOf layers ++ [setting] := by
    rw [settingsOf, List.flatMap_append, List.filterMap_append]
    congr 1
    exact List.filterMap_cons_some h
  have files : filesOf (layers ++ [.settings [text]]) = filesOf layers := by
    rw [filesOf, List.flatMap_append]
    exact List.append_nil _
  rw [winner?, winner?, settings, files, List.filterMap_append]
  cases said : settingField? field setting with
  | none => rw [List.filterMap_cons_none said, List.filterMap_nil, List.append_nil, Option.none_or]
  | some value =>
    rw [List.filterMap_cons_some said, List.filterMap_nil, List.getLast?_concat]
    rfl

/-- A further file wins over the files before it and the defaults, where it says something and no
setting does. -/
theorem winner?_concat_file {name : List Char} {contents : FileContents} (layers : List Layer)
    (h : (settingsOf layers).filterMap (settingField? field) = []) :
    winner? (layers ++ [.file name contents]) field =
      (fileField? field (name, contents)).or (winner? layers field) := by
  have settings : settingsOf (layers ++ [.file name contents]) = settingsOf layers := by
    rw [settingsOf, List.flatMap_append]
    congr 1
    exact List.append_nil _
  have files : filesOf (layers ++ [.file name contents]) = filesOf layers ++ [(name, contents)] :=
    List.flatMap_append
  rw [winner?, winner?, settings, files, h, List.filterMap_append, List.getLast?_nil,
    Option.none_or, Option.none_or]
  cases said : fileField? field (name, contents) with
  | none => rw [List.filterMap_cons_none said, List.filterMap_nil, List.append_nil, Option.none_or]
  | some value =>
    rw [List.filterMap_cons_some said, List.filterMap_nil, List.getLast?_concat]
    rfl

/-- A field that has a default has a value. -/
theorem isSome_winner? (h : (valueAmong? field defaults).isSome = true) :
    (winner? layers field).isSome = true := by
  rw [winner?, Option.isSome_or, h, Bool.or_true]

/-! ## Building -/

/-- A loader builds what the winners of the five fields say, each for itself. -/
structure Resolves (layers : List Layer) (loader : Loader) : Prop where
  options_known : ∀ option, (winner? layers (optionField option)).isSome = true
  format_known : (winner? layers formatField).isSome = true
  build_iff : ∀ configuration, loader.build = .ok configuration ↔
    (∀ option, ∃ value ∈ winner? layers (optionField option),
      IsReadAs option value configuration.preprocessing) ∧
    ∃ value ∈ winner? layers formatField, toFormat value = .ok configuration.format
  builds_iff : (∃ configuration, loader.build = .ok configuration) ↔
    (∀ option, ∃ value ∈ winner? layers (optionField option), ∃ p, IsReadAs option value p) ∧
    ∃ value ∈ winner? layers formatField, ∃ format, toFormat value = .ok format

theorem build_eq_ok_iff {configuration : Configuration} {root : Value}
    (h : loader.tree = .ok root) :
    loader.build = .ok configuration ↔ Configuration.ofSettings root = .ok configuration := by
  rw [build, h]
  change (Configuration.ofSettings root).mapError _ = _ ↔ _
  cases Configuration.ofSettings root with
  | error e =>
    constructor
    · intro h
      cases h
    · intro h
      cases h
  | ok configuration' =>
    constructor
    · intro h
      cases h
      rfl
    · intro h
      cases h
      rfl

/-- Options that can be read one by one can be read together. -/
theorem exists_isReadAs {values : Preprocessing.Key → Value}
    (h : ∀ option, ∃ p, IsReadAs option (values option) p) :
    ∃ p, ∀ option, IsReadAs option (values option) p := by
  obtain ⟨a, ha⟩ := h .stripNewlines
  obtain ⟨b, hb⟩ := h .stripAll
  obtain ⟨c, hc⟩ := h .ensureNewline
  obtain ⟨d, hd⟩ := h .tabSize
  refine ⟨⟨a.stripNewlines, b.stripAll, c.ensureNewline, d.tabSize⟩, ?_⟩
  intro option
  cases option with
  | stripNewlines => exact ha
  | stripAll => exact hb
  | ensureNewline => exact hc
  | tabSize => exact hd

theorem resolves_of_tree {root : Value} (built : loader.tree = .ok root)
    (tables : root.HasMainTables)
    (fields : ∀ field, field.table ∈ mainTables → root.field? field = winner? layers field) :
    Resolves layers loader := by
  have options_known : ∀ option, (winner? layers (optionField option)).isSome = true := by
    intro option
    apply isSome_winner?
    cases option <;> decide +kernel
  have format_known : (winner? layers formatField).isSome = true :=
    isSome_winner? (by decide +kernel)
  obtain ⟨format, format_won⟩ := Option.isSome_iff_exists.1 format_known
  choose values values_won using fun option => Option.isSome_iff_exists.1 (options_known option)
  have build_iff : ∀ configuration, loader.build = .ok configuration ↔
      (∀ option, IsReadAs option (values option) configuration.preprocessing) ∧
        toFormat format = .ok configuration.format := by
    intro configuration
    rw [build_eq_ok_iff built]
    apply Configuration.ofSettings_eq_ok_iff tables
    · intro option
      have main : "lexer".toList ∈ mainTables := by decide
      rw [fields _ main, values_won]
    · have main : "output".toList ∈ mainTables := by decide
      rw [fields _ main, format_won]
  refine ⟨options_known, format_known, ?_, ?_⟩
  · intro configuration
    simp only [build_iff, values_won, format_won, Option.mem_def, Option.some.injEq,
      exists_eq_left']
  · simp only [build_iff, values_won, format_won, Option.mem_def, Option.some.injEq,
      exists_eq_left']
    constructor
    · rintro ⟨configuration, options, output⟩
      exact ⟨fun option => ⟨_, options option⟩, _, output⟩
    · rintro ⟨options, format', output⟩
      obtain ⟨p, read⟩ := exists_isReadAs options
      exact ⟨⟨p, format'⟩, read, output⟩

theorem exists_resolves (plain : ArePlain layers) :
    ∃ loader, ofLayers layers = .ok loader ∧ Resolves layers loader := by
  have settings : ∀ s ∈ settingsOf layers, s.1.field?.isSome = true ∨ s.1.IsForeign := by
    intro s mem
    obtain ⟨text, mem, read⟩ := List.mem_filterMap.1 mem
    obtain ⟨s', read', h⟩ := plain.texts text mem
    rw [Option.mem_def, read, Option.some.injEq] at read'
    exact read' ▸ h
  let overrides := (settingsOf layers).foldl (fun o s => Entries.put s.1 s.2 o) []
  have left : ∀ s ∈ overrides, s.1.field?.isSome = true ∨ s.1.IsForeign := by
    intro s mem
    obtain ⟨s', mem, same⟩ := exists_mem_of_mem_foldl_put mem
    rw [same]
    exact settings s' mem
  obtain ⟨root, built, tables, fields⟩ := exists_tree ⟨filesOf layers, overrides⟩ plain.files left
  refine ⟨⟨filesOf layers, overrides⟩, foldlM_add plain.texts {}, ?_⟩
  apply resolves_of_tree built tables
  intro field mem
  rw [fields field mem, filterMap_foldl_put plain.alike, winner?]
  cases ((settingsOf layers).filterMap (settingField? field)).getLast? <;> rfl

/-- A place before the start of an array is none: this key keeps the configuration from being built,
although it leads past both tables and the winners are the defaults. -/
theorem subscript_before_start :
    let layers : List Layer :=
      [.file "a.toml".toList (.text "\"a[-1]\" = 1\n".toList)]
    (∀ file ∈ filesOf layers, ∃ es ∈ fileEntries? file, IsMergeable es) ∧
      settingsOf layers = [] ∧
      (∀ option, ∃ value ∈ winner? layers (optionField option), IsReadAs option value {}) ∧
      (∃ value ∈ winner? layers formatField, toFormat value = .ok .raw) ∧
      ∃ loader, ofLayers layers = .ok loader ∧ loader.build = .error (.settings .outOfRange) := by
  intro layers
  have defaults_win : ∀ option, ∃ value ∈ winner? layers (optionField option),
      IsReadAs option value {} := by
    intro option
    cases option <;> decide +kernel
  exact ⟨by decide +kernel, by decide +kernel, defaults_win, by decide +kernel, _, rfl,
    by decide +kernel⟩

end Loader
end FancyTokens
