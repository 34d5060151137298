import FancyTokens.Proofs.Settings.Layers
import FancyTokens.Proofs.Text.Splitting
import FancyTokens.Proofs.Text.Trimming

/-!
# Settings as texts

A setting is taken as a value for a path (`IsTaken`), or it is refused (`IsRefused`); every loader
does the same with it (`withSetting_eq_ok_iff`, `withSetting_eq_error_iff`). Of several settings the
first one that is refused decides (`withSettings_eq_error_iff`). White space around the key and the
value does not matter (`withSetting_of_pads`).
-/

namespace FancyTokens

namespace Settings

/-- A setting is taken as a value for a path. What stands before the first equals sign is the path,
and everything behind it the value. -/
inductive IsTaken : List Char → KeyPath → Scalar → Prop
  | intro {key value path} : '=' ∉ key → KeyPath.read (trimBlanks key) = .ok path →
    IsTaken (key ++ '=' :: value) path (valueOfText (trimBlanks value))

/-- A setting is refused: it has no equals sign, nothing but white space before the first one, or
something else there that is no path. -/
inductive IsRefused : List Char → LoadError → Prop
  | unsplit {setting} : '=' ∉ setting → IsRefused setting (.invalidSetting setting)
  | blank {key value} : (∀ c ∈ key, isBlank c = true) →
    IsRefused (key ++ '=' :: value) (.invalidSetting (key ++ '=' :: value))
  | path {key value e} : '=' ∉ key → (∃ c ∈ key, isBlank c = false) →
    KeyPath.read (trimBlanks key) = .error e →
    IsRefused (key ++ '=' :: value) (.settings (.path e))

variable {setting key value : List Char}

/-! ## The two sides -/

theorem span_append_of_notMem (h : '=' ∉ key) (rest : List Char)
    (stops : ∀ c ∈ rest.head?, c = '=') :
    (key ++ rest).span (· ≠ '=') = (key, rest) := by
  apply span_append
  · intro c mem
    refine decide_eq_true ?_
    rintro rfl
    exact h mem
  · intro c mem
    exact decide_eq_false (not_not.2 (stops c mem))

theorem splitSetting?_eq_none (h : '=' ∉ setting) : splitSetting? setting = none := by
  have whole := span_append_of_notMem h [] nofun
  rw [List.append_nil] at whole
  rw [splitSetting?, whole]

theorem splitSetting?_append (h : '=' ∉ key) (value : List Char) :
    splitSetting? (key ++ '=' :: value) = some (trimBlanks key, trimBlanks value) := by
  have split := span_append_of_notMem h ('=' :: value) fun c same =>
    (Option.some.inj same).symm
  rw [splitSetting?, split]

/-- A setting has no equals sign, or a first one. -/
theorem notMem_or_exists_split (setting : List Char) :
    '=' ∉ setting ∨ ∃ key value, setting = key ++ '=' :: value ∧ '=' ∉ key :=
  (Classical.em ('=' ∈ setting)).symm.imp_right List.eq_append_cons_of_mem

/-- There is no equals sign in white space. -/
theorem notMem_of_blank (blank : ∀ c ∈ key, isBlank c = true) : '=' ∉ key := by
  intro mem
  have other : isBlank '=' = false := by decide
  rw [blank _ mem] at other
  cases other

theorem trimBlanks_eq_nil_iff : trimBlanks key = [] ↔ ∀ c ∈ key, isBlank c = true :=
  trimEnds_eq_nil_iff

/-! ## One setting -/

theorem readSetting?_eq_some_iff {path : KeyPath} {v : Scalar} :
    readSetting? setting = some (path, v) ↔ IsTaken setting path v := by
  constructor
  · intro h
    obtain unsplit | ⟨key, value, rfl, sep⟩ := notMem_or_exists_split setting
    · rw [readSetting?, splitSetting?_eq_none unsplit] at h
      cases h
    · rw [readSetting?, splitSetting?_append sep, Option.bind_some] at h
      obtain ⟨path', read, eq⟩ := Option.map_eq_some_iff.1 h
      cases eq
      cases result : KeyPath.read (trimBlanks key) with
      | error e =>
        rw [result] at read
        cases read
      | ok path'' =>
        rw [result] at read
        cases read
        exact .intro sep result
  · rintro ⟨sep, read⟩
    rw [readSetting?, splitSetting?_append sep, Option.bind_some]
    dsimp only
    rw [read]
    rfl

/-- A setting is taken or refused. -/
theorem isTaken_or_isRefused (setting : List Char) :
    (∃ path v, IsTaken setting path v) ∨ ∃ e, IsRefused setting e := by
  obtain unsplit | ⟨key, value, rfl, sep⟩ := notMem_or_exists_split setting
  · exact .inr ⟨_, .unsplit unsplit⟩
  · by_cases blank : ∀ c ∈ key, isBlank c = true
    · exact .inr ⟨_, .blank blank⟩
    · simp only [not_forall, Bool.not_eq_true, exists_prop] at blank
      cases read : KeyPath.read (trimBlanks key) with
      | error e => exact .inr ⟨_, .path sep blank read⟩
      | ok path => exact .inl ⟨_, _, .intro sep read⟩

end Settings

namespace Loader

open Settings

variable {setting : List Char} {loader : Loader} {path : KeyPath} {v : Scalar} {e : LoadError}

/-- The loader with a value for a path. -/
def override (loader : Loader) (path : KeyPath) (v : Scalar) : Loader :=
  { loader with overrides := Entries.put path v loader.overrides }

theorem withSetting_of_isTaken (h : IsTaken setting path v) (loader : Loader) :
    loader.withSetting setting = .ok (loader.override path v) :=
  withSetting_eq_ok (readSetting?_eq_some_iff.2 h) loader

theorem withSetting_of_isRefused (h : IsRefused setting e) (loader : Loader) :
    loader.withSetting setting = .error e := by
  cases h with
  | unsplit unsplit =>
    rw [withSetting, splitSetting?_eq_none unsplit]
    rfl
  | blank blank =>
    rw [withSetting, splitSetting?_append (notMem_of_blank blank), trimBlanks_eq_nil_iff.2 blank]
    rfl
  | @path key value e sep visible read =>
    have nonempty : trimBlanks key ≠ [] := by
      obtain ⟨c, mem, keeps⟩ := visible
      intro empty
      rw [trimBlanks_eq_nil_iff.1 empty c mem] at keeps
      cases keeps
    obtain ⟨c, rest, eq⟩ := List.exists_cons_of_ne_nil nonempty
    rw [withSetting, splitSetting?_append sep, eq]
    rw [eq] at read
    dsimp only
    rw [read]
    rfl

theorem withSetting_eq_ok_iff {loader' : Loader} : loader.withSetting setting = .ok loader' ↔
    ∃ path v, IsTaken setting path v ∧ loader' = loader.override path v := by
  constructor
  · intro h
    obtain ⟨path, v, taken⟩ | ⟨e, refused⟩ := isTaken_or_isRefused setting
    · rw [withSetting_of_isTaken taken] at h
      exact ⟨path, v, taken, (Except.ok.inj h).symm⟩
    · rw [withSetting_of_isRefused refused] at h
      cases h
  · rintro ⟨path, v, taken, rfl⟩
    exact withSetting_of_isTaken taken loader

theorem withSetting_eq_error_iff : loader.withSetting setting = .error e ↔ IsRefused setting e := by
  constructor
  · intro h
    obtain ⟨path, v, taken⟩ | ⟨e', refused⟩ := isTaken_or_isRefused setting
    · rw [withSetting_of_isTaken taken] at h
      cases h
    · rw [withSetting_of_isRefused refused] at h
      cases h
      exact refused
  · exact fun refused => withSetting_of_isRefused refused loader

/-! ## Several settings -/

theorem withSettings_cons (loader : Loader) (setting : List Char) (settings : List (List Char)) :
    loader.withSettings (setting :: settings) =
      loader.withSetting setting >>= (withSettings · settings) :=
  List.foldlM_cons

theorem withSettings_append (loader : Loader) (settings more : List (List Char)) :
    loader.withSettings (settings ++ more) =
      loader.withSettings settings >>= (withSettings · more) :=
  List.foldlM_append

/-- Settings that are all taken are taken together. -/
theorem exists_withSettings_eq_ok {settings : List (List Char)}
    (h : ∀ s ∈ settings, ∃ path v, IsTaken s path v) (loader : Loader) :
    ∃ loader', loader.withSettings settings = .ok loader' := by
  induction settings generalizing loader with
  | nil => exact ⟨loader, rfl⟩
  | cons s settings ih =>
    obtain ⟨⟨path, v, taken⟩, later⟩ := List.forall_mem_cons.1 h
    rw [withSettings_cons, withSetting_of_isTaken taken]
    exact ih later _

/-- The first setting that is refused decides, whatever follows it. -/
theorem withSettings_eq_error_iff {settings : List (List Char)} :
    loader.withSettings settings = .error e ↔ ∃ before setting after,
      settings = before ++ setting :: after ∧ (∀ s ∈ before, ∃ path v, IsTaken s path v) ∧
        IsRefused setting e := by
  constructor
  · intro h
    induction settings generalizing loader with
    | nil => cases h
    | cons s settings ih =>
      rw [withSettings_cons] at h
      obtain ⟨path, v, taken⟩ | ⟨e', refused⟩ := isTaken_or_isRefused s
      · rw [withSetting_of_isTaken taken] at h
        obtain ⟨before, setting, after, rfl, takes, refused⟩ := ih h
        exact ⟨s :: before, setting, after, rfl,
          List.forall_mem_cons.2 ⟨⟨path, v, taken⟩, takes⟩, refused⟩
      · rw [withSetting_of_isRefused refused] at h
        cases h
        exact ⟨[], s, settings, rfl, List.forall_mem_nil _, refused⟩
  · rintro ⟨before, setting, after, rfl, takes, refused⟩
    obtain ⟨loader', taken⟩ := exists_withSettings_eq_ok takes loader
    rw [withSettings_append, taken]
    change loader'.withSettings (setting :: after) = _
    rw [withSettings_cons, withSetting_of_isRefused refused]
    rfl

/-! ## Padding -/

/-- The second text is the first one with white space around the key and the value. The key is not
all white space. -/
inductive Pads : List Char → List Char → Prop
  | intro {key value a b c d} : '=' ∉ key → (∃ x ∈ key, isBlank x = false) →
    (∀ x ∈ a ++ b ++ c ++ d, isBlank x = true) →
    Pads (key ++ '=' :: value) (a ++ key ++ b ++ '=' :: (c ++ value ++ d))

theorem trimBlanks_pad {a b : List Char} (s : List Char) (before : ∀ c ∈ a, isBlank c = true)
    (behind : ∀ c ∈ b, isBlank c = true) : trimBlanks (a ++ s ++ b) = trimBlanks s := by
  rw [trimBlanks, trimEnds_append_right behind, trimEnds_append_left before]
  rfl

/-- White space around key and value does not matter. -/
theorem withSetting_of_pads {padded : List Char} (h : Pads setting padded) (loader : Loader) :
    loader.withSetting padded = loader.withSetting setting := by
  obtain @⟨key, value, a, b, c, d, sep, visible, blank⟩ := h
  simp only [List.forall_mem_append] at blank
  obtain ⟨⟨⟨before, behind⟩, before'⟩, behind'⟩ := blank
  have sepPadded : '=' ∉ a ++ key ++ b := by
    simp only [List.mem_append, not_or]
    exact ⟨⟨notMem_of_blank before, sep⟩, notMem_of_blank behind⟩
  have visiblePadded : ∃ x ∈ a ++ key ++ b, isBlank x = false := by
    obtain ⟨x, mem, keeps⟩ := visible
    exact ⟨x, List.mem_append_left _ (List.mem_append_right _ mem), keeps⟩
  have same := trimBlanks_pad key before behind
  cases read : KeyPath.read (trimBlanks key) with
  | error e =>
    rw [withSetting_of_isRefused (.path sep visible read),
      withSetting_of_isRefused (.path sepPadded visiblePadded (same ▸ read))]
  | ok path =>
    rw [withSetting_of_isTaken (.intro sep read),
      withSetting_of_isTaken (.intro sepPadded (same ▸ read)), trimBlanks_pad value before' behind']

/-- White space around the keys and values of some settings does not matter. -/
theorem withSettings_of_pads {settings padded : List (List Char)}
    (h : List.Forall₂ (fun s s' => s' = s ∨ Pads s s') settings padded) (loader : Loader) :
    loader.withSettings padded = loader.withSettings settings := by
  induction h generalizing loader with
  | nil => rfl
  | @cons s s' settings padded first _ ih =>
    have same : loader.withSetting s' = loader.withSetting s := by
      obtain rfl | pads := first
      · rfl
      · exact withSetting_of_pads pads loader
    rw [withSettings_cons, withSettings_cons, same]
    exact congrArg _ (funext ih)

end Loader
end FancyTokens
