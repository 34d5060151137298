import FancyTokens.Proofs.Settings.Order

/-!
# Reading settings

A list of settings is taken as a whole or refused for its first setting that is not taken
(`withSettings_eq_ok_iff`, `withSettings_eq_error_iff`). A loader that takes it has the files that it
had and, for each path, the value of the last setting for it (`stores_overrideAll`). These are the
laws of reading settings (`settings_are_read`): white space around keys and values, the order of
settings for paths that part, and what is said again later do not matter.
-/

namespace FancyTokens

open Settings

namespace Loader

variable {loader loader' : Loader} {settings : List (List Char)} {stored : List (KeyPath × Scalar)}

/-! ## What is stored -/

/-- The loader with values for some paths, one after another. -/
def overrideAll (loader : Loader) (stored : List (KeyPath × Scalar)) : Loader :=
  stored.foldl (fun loader (path, value) => loader.override path value) loader

/-- The second loader is the first one with values for some paths. Of the values for one path it has
the last one. -/
structure Stores (loader : Loader) (stored : List (KeyPath × Scalar)) (loader' : Loader) : Prop where
  files : loader'.files = loader.files
  values : ∀ path, loader'.overrides.lookup path =
    (stored.reverse.lookup path).or (loader.overrides.lookup path)
  distinct : (loader.overrides.map Prod.fst).Nodup → (loader'.overrides.map Prod.fst).Nodup

theorem stores_overrideAll (loader : Loader) (stored : List (KeyPath × Scalar)) :
    Stores loader stored (loader.overrideAll stored) := by
  induction stored generalizing loader with
  | nil => exact ⟨rfl, fun _ => rfl, id⟩
  | cons a stored ih =>
    have later := ih (loader.override a.1 a.2)
    have once (distinct : (loader.overrides.map Prod.fst).Nodup) :
        ((loader.override a.1 a.2).overrides.map Prod.fst).Nodup :=
      Entries.nodup_put distinct a.1 a.2
    refine ⟨later.files, fun path => ?_, fun distinct => later.distinct (once distinct)⟩
    change ((loader.override a.1 a.2).overrideAll stored).overrides.lookup path = _
    rw [later.values, override, Entries.lookup_put, List.reverse_cons, List.lookup_append,
      Entries.lookup_cons, Option.or_assoc]
    congr 1
    split <;> rfl

/-- Settings that are taken are taken one after another. -/
theorem withSettings_eq_ok_iff : loader.withSettings settings = .ok loader' ↔
    ∃ stored, List.Forall₂ (fun s a => IsTaken s a.1 a.2) settings stored ∧
      loader' = loader.overrideAll stored := by
  constructor
  · intro h
    induction settings generalizing loader with
    | nil =>
      cases h
      exact ⟨[], .nil, rfl⟩
    | cons s settings ih =>
      rw [withSettings_cons] at h
      obtain ⟨loader₁, first, later⟩ := bind_eq_ok_iff.1 h
      obtain ⟨path, v, taken, rfl⟩ := withSetting_eq_ok_iff.1 first
      obtain ⟨stored, all, rfl⟩ := ih later
      exact ⟨(path, v) :: stored, .cons taken all, rfl⟩
  · rintro ⟨stored, all, rfl⟩
    induction all generalizing loader with
    | nil => rfl
    | cons taken _ ih =>
      rw [withSettings_cons, withSetting_of_isTaken taken]
      exact ih

/-- A list of settings is refused just if one of them is. -/
theorem withSettings_fails_iff : (∃ e, loader.withSettings settings = .error e) ↔
    ∃ s ∈ settings, ∃ e, IsRefused s e := by
  constructor
  · rintro ⟨e, h⟩
    obtain ⟨before, s, after, rfl, -, refused⟩ := withSettings_eq_error_iff.1 h
    exact ⟨s, List.mem_append_right _ List.mem_cons_self, e, refused⟩
  · rintro ⟨s, mem, e, refused⟩
    cases result : loader.withSettings settings with
    | error e' => exact ⟨e', rfl⟩
    | ok loader' =>
      obtain ⟨before, after, rfl⟩ := List.append_of_mem mem
      rw [withSettings_append] at result
      obtain ⟨loader₁, -, later⟩ := bind_eq_ok_iff.1 result
      obtain ⟨loader₂, first, -⟩ := bind_eq_ok_iff.1 (withSettings_cons loader₁ s after ▸ later)
      rw [withSetting_of_isRefused refused] at first
      cases first

/-! ## The laws -/

/-- What a loader does with a setting. It takes the setting or refuses it. The setting is called
invalid just if it has nothing but white space for a key, and otherwise only its path can be
wrong. -/
structure ReadsSetting (loader : Loader) (setting : List Char) : Prop where
  ok_iff : ∀ loader', loader.withSetting setting = .ok loader' ↔
    ∃ path v, IsTaken setting path v ∧ loader' = loader.override path v
  error_iff : ∀ e, loader.withSetting setting = .error e ↔ IsRefused setting e
  invalid_iff : ∀ given, loader.withSetting setting = .error (.invalidSetting given) ↔
    given = setting ∧ ('=' ∉ setting ∨ ∃ key value, setting = key ++ '=' :: value ∧
      ∀ c ∈ key, isBlank c = true)
  error : ∀ e, loader.withSetting setting = .error e →
    e = .invalidSetting setting ∨ ∃ e', e = .settings (.path e')

/-- What a loader does with a list of settings. -/
structure ReadsSettings (loader : Loader) (settings : List (List Char)) : Prop where
  fails_iff : (∃ e, loader.withSettings settings = .error e) ↔ ∃ s ∈ settings, ∃ e, IsRefused s e
  error_iff : ∀ e, loader.withSettings settings = .error e ↔ ∃ before setting after,
    settings = before ++ setting :: after ∧ (∀ s ∈ before, ∃ path v, IsTaken s path v) ∧
      IsRefused setting e
  stores : ∀ loader', loader.withSettings settings = .ok loader' → ∃ stored,
    List.Forall₂ (fun s a => IsTaken s a.1 a.2) settings stored ∧ Stores loader stored loader'
  padding : ∀ padded, List.Forall₂ (fun s s' => s' = s ∨ Pads s s') settings padded →
    loader.withSettings padded = loader.withSettings settings
  order : ∀ settings' before after, settings.Perm settings' → settings.Pairwise AreApart →
    AreInterchangeable (before ++ settings ++ after) (before ++ settings' ++ after)
  repetition : ∀ before s mid t after path v w, settings = before ++ s :: mid ++ t :: after →
    IsTaken s path v → IsTaken t path w →
    loader.withSettings settings = loader.withSettings (before ++ t :: mid ++ t :: after) ∧
      ((∀ m ∈ mid, AreApart s m) → AreInterchangeable settings (before ++ mid ++ t :: after))

theorem isRefused_invalid_iff {setting given : List Char} :
    IsRefused setting (.invalidSetting given) ↔ given = setting ∧
      ('=' ∉ setting ∨ ∃ key value, setting = key ++ '=' :: value ∧
        ∀ c ∈ key, isBlank c = true) := by
  constructor
  · intro h
    cases h with
    | unsplit unsplit => exact ⟨rfl, .inl unsplit⟩
    | blank blank => exact ⟨rfl, .inr ⟨_, _, rfl, blank⟩⟩
  · rintro ⟨rfl, unsplit | ⟨key, value, rfl, blank⟩⟩
    · exact .unsplit unsplit
    · exact .blank blank

theorem readsSetting (loader : Loader) (setting : List Char) : ReadsSetting loader setting where
  ok_iff _ := withSetting_eq_ok_iff
  error_iff _ := withSetting_eq_error_iff
  invalid_iff _ := withSetting_eq_error_iff.trans isRefused_invalid_iff
  error e h := by
    cases withSetting_eq_error_iff.1 h with
    | unsplit => exact .inl rfl
    | blank => exact .inl rfl
    | path => exact .inr ⟨_, rfl⟩

theorem readsSettings (loader : Loader) (settings : List (List Char)) :
    ReadsSettings loader settings where
  fails_iff := withSettings_fails_iff
  error_iff _ := withSettings_eq_error_iff
  stores loader' h := by
    obtain ⟨stored, all, rfl⟩ := withSettings_eq_ok_iff.1 h
    exact ⟨stored, all, stores_overrideAll loader stored⟩
  padding padded pads := withSettings_of_pads pads loader
  order settings' before after perm apart :=
    ((sameEffect_of_perm perm apart).append before after).interchangeable
  repetition := by
    rintro before s mid t after path v w rfl taken taken'
    constructor
    · rw [List.append_assoc, List.append_assoc, withSettings_append, withSettings_append]
      exact congrArg _ (funext (withSettings_repeat taken taken' mid after))
    · intro apart
      have drop := (sameEffect_drop taken taken' apart after).append before []
      simp only [List.append_nil, ← List.append_assoc] at drop ⊢
      exact drop.interchangeable

/-- How settings are read. Each is taken or refused, and of a list the first one that is refused
decides. A loader that takes a list has the last value for each path. White space around keys and
values does not matter, nor does the order of settings for paths that part, as those to different
fields do, nor what a path is said to be before it is said again. -/
theorem settings_are_read (loader : Loader) (settings : List (List Char)) :
    (∀ setting, ReadsSetting loader setting) ∧ ReadsSettings loader settings ∧
      ∀ (p q : KeyPath) (f g : Field), p.field? = some f → q.field? = some g → f ≠ g →
        p.Apart q :=
  ⟨readsSetting loader, readsSettings loader settings, fun _ _ _ _ => KeyPath.apart_of_field?⟩

/-- Two settings in either order and with white space, and one of them said before. -/
theorem settings_are_read_spaced :
    let size := "lexer.tabsize=4".toList
    let format := "output.format=json".toList
    AreInterchangeable [size, format] [format, size] ∧
      withSettings {} [" lexer.tabsize = 4".toList, format] = withSettings {} [size, format] ∧
      AreInterchangeable ["lexer.tabsize=2".toList, format, size] [format, size] := by
  intro size format
  let path : KeyPath := ⟨"lexer".toList, [.key "tabsize".toList]⟩
  have before : IsTaken "lexer.tabsize=2".toList path (.integer 2) :=
    readSetting?_eq_some_iff.1 (by decide +kernel)
  have later : IsTaken size path (.integer 4) := readSetting?_eq_some_iff.1 (by decide +kernel)
  have other : IsTaken format ⟨"output".toList, [.key "format".toList]⟩ (.string "json".toList) :=
    readSetting?_eq_some_iff.1 (by decide +kernel)
  have roots : lowercase "lexer".toList ≠ lowercase "output".toList := by decide +kernel
  have pads : Pads size " lexer.tabsize = 4".toList :=
    @Pads.intro "lexer.tabsize".toList "4".toList [' '] [' '] [' '] [] (by decide)
      ⟨'l', by decide, by decide⟩ (List.all_eq_true.1 (by decide))
  refine ⟨?_, ?_, ?_⟩
  · exact (settings_are_read {} [size, format]).2.1.order _ [] [] (.swap format size [])
      (List.pairwise_pair.2 (.intro later other (.roots roots)))
  · exact (settings_are_read {} [size, format]).2.1.padding _
      (.cons (.inr pads) (.cons (.inl rfl) .nil))
  · have reads := (settings_are_read {} ["lexer.tabsize=2".toList, format, size]).2.1
    exact (reads.repetition [] _ [format] _ [] _ _ _ rfl before later).2
      (List.forall_mem_singleton.2 (.intro before other (.roots roots)))

end Loader
end FancyTokens
