import FancyTokens.Proofs.Settings.Apart
import FancyTokens.Proofs.Settings.Texts

/-!
# The order of settings

A loader keeps its overrides in the order in which their paths first came, but this order does not
matter where the paths part (`SameLayers.build`). So settings for paths that part may come in any
order (`sameEffect_of_perm`), whatever is added to the loader later (`SameEffect.interchangeable`).
Of settings for one path, only the last one counts (`withSettings_repeat`, `sameEffect_drop`).
-/

namespace FancyTokens

namespace Loader

open Settings

/-! ## Overrides up to their order -/

variable {o o' : List (KeyPath × Scalar)} {p q : KeyPath} {v w : Scalar}

/-- The same overrides, except for the order of those whose paths part. -/
inductive Reordered : List (KeyPath × Scalar) → List (KeyPath × Scalar) → Prop
  | nil : Reordered [] []
  | cons a {o o'} : Reordered o o' → Reordered (a :: o) (a :: o')
  | swap a b o : a.1.Apart b.1 → Reordered (a :: b :: o) (b :: a :: o)
  | trans {o o' o''} : Reordered o o' → Reordered o' o'' → Reordered o o''

theorem Reordered.refl (o : List (KeyPath × Scalar)) : Reordered o o := by
  induction o with
  | nil => exact .nil
  | cons a o ih => exact .cons a ih

/-- The tree with some overrides. -/
def overridden? (o : List (KeyPath × Scalar)) (root : Value) : Option Value :=
  o.foldlM (fun root (path, value) => path.set? (.scalar none value) root) root

theorem overridden?_cons (a : KeyPath × Scalar) (o : List (KeyPath × Scalar)) (root : Value) :
    overridden? (a :: o) root = (a.1.set? (.scalar none a.2) root).bind (overridden? o) :=
  List.foldlM_cons

theorem sameTree_overridden? (o : List (KeyPath × Scalar)) {root root' : Value}
    (same : root.SameTree root') :
    Option.Rel Value.SameTree (overridden? o root) (overridden? o root') := by
  induction o generalizing root root' with
  | nil => exact .some same
  | cons a o ih =>
    rw [overridden?_cons, overridden?_cons]
    exact rel_bind (same.set? rfl a.1) ih

/-- Overrides in another order give the same tree up to the order of entries. -/
theorem Reordered.overridden? (h : Reordered o o') (root : Value) :
    Option.Rel Value.SameTree (overridden? o root) (overridden? o' root) := by
  induction h generalizing root with
  | nil => exact rel_refl .refl _
  | cons a h ih =>
    rw [overridden?_cons, overridden?_cons]
    cases a.1.set? (.scalar none a.2) root with
    | none => exact .none
    | some root' => exact ih root'
  | swap a b o apart =>
    have comm := KeyPath.set?_comm apart (v := .scalar none a.2) (w := .scalar none b.2) rfl rfl root
    have all := rel_bind comm (sameTree_overridden? o)
    rw [Option.bind_assoc, Option.bind_assoc] at all
    simp only [overridden?_cons]
    exact all
  | trans h h' ih ih' => exact rel_trans .trans (ih root) (ih' root)

/-- A further override may be put into the overrides in either order. -/
theorem Reordered.put (h : Reordered o o') (path : KeyPath) (value : Scalar) :
    Reordered (Entries.put path value o) (Entries.put path value o') := by
  induction h with
  | nil => exact .refl _
  | cons a h ih =>
    rw [Entries.put, Entries.put]
    split
    · exact .cons _ h
    · exact .cons _ ih
  | swap a b o apart =>
    obtain ⟨p, v⟩ := a
    obtain ⟨q, w⟩ := b
    have other : p ≠ q := apart.ne
    simp only [Entries.put]
    by_cases here : p = path
    · rw [if_pos here, if_pos here, if_neg fun there => other (here.trans there.symm), ← here]
      exact .swap _ _ o apart
    · rw [if_neg here, if_neg here]
      by_cases there : q = path
      · rw [if_pos there, if_pos there, ← there]
        exact .swap _ _ o apart
      · rw [if_neg there, if_neg there]
        exact .swap _ _ _ apart
  | trans h h' ih ih' => exact ih.trans ih'

/-- Overrides for paths that part may be put in either order. -/
theorem reordered_put_put (apart : p.Apart q) (v w : Scalar) (o : List (KeyPath × Scalar)) :
    Reordered (Entries.put q w (Entries.put p v o)) (Entries.put p v (Entries.put q w o)) := by
  have other : p ≠ q := apart.ne
  induction o with
  | nil =>
    simp only [Entries.put, if_neg other, if_neg other.symm]
    exact .swap _ _ _ apart
  | cons a o ih =>
    obtain ⟨r, x⟩ := a
    by_cases here : r = p
    · subst here
      simp only [Entries.put, if_neg other, if_true]
      exact .refl _
    · by_cases there : r = q
      · subst there
        simp only [Entries.put, if_neg here, if_true]
        exact .refl _
      · simp only [Entries.put, if_neg here, if_neg there]
        exact .cons _ ih

/-! ## Loaders up to the order of overrides -/

/-- The same layers, except for the order of overrides whose paths part. -/
structure SameLayers (loader loader' : Loader) : Prop where
  files : loader.files = loader'.files
  overrides : Reordered loader.overrides loader'.overrides

/-- The same error, or loaders with the same layers. -/
inductive SameResult : Except LoadError Loader → Except LoadError Loader → Prop
  | error (e : LoadError) : SameResult (.error e) (.error e)
  | ok {loader loader'} : SameLayers loader loader' → SameResult (.ok loader) (.ok loader')

variable {loader loader' : Loader} {x y : Except LoadError Loader}

theorem SameLayers.refl (loader : Loader) : SameLayers loader loader :=
  ⟨rfl, .refl _⟩

/-- The order of overrides whose paths part does not matter to the configuration. -/
theorem SameLayers.build (h : SameLayers loader loader') : loader.build = loader'.build := by
  rw [Loader.build, Loader.build, tree, tree, h.files]
  cases loader'.files.foldlM addFile (Value.setAll .empty defaults) with
  | error e => rfl
  | ok root =>
    have same := h.overrides.overridden? root
    rw [Loader.overridden?, Loader.overridden?] at same
    simp only [bind, Except.bind]
    obtain ⟨none, none'⟩ | ⟨root₁, root₂, some, some', same⟩ := rel_cases same
    · rw [none, none']
    · rw [some, some']
      exact congrArg _ same.ofSettings

theorem SameResult.refl (x : Except LoadError Loader) : SameResult x x := by
  cases x with
  | error e => exact .error e
  | ok loader => exact .ok (.refl loader)

theorem SameResult.trans {z : Except LoadError Loader} (h : SameResult x y)
    (h' : SameResult y z) : SameResult x z := by
  cases h with
  | error => exact h'
  | ok same =>
    cases h' with
    | ok same' =>
      exact .ok ⟨same.files.trans same'.files, same.overrides.trans same'.overrides⟩

theorem SameResult.bind {f : Loader → Except LoadError Loader} (h : SameResult x y)
    (next : ∀ {loader loader'}, SameLayers loader loader' →
      SameResult (f loader) (f loader')) : SameResult (x >>= f) (y >>= f) := by
  cases h with
  | error e => exact .error e
  | ok same => exact next same

theorem SameResult.foldlM {α : Type} {f : Loader → α → Except LoadError Loader}
    (next : ∀ {loader loader'} a, SameLayers loader loader' →
      SameResult (f loader a) (f loader' a))
    (same : SameLayers loader loader') (l : List α) :
    SameResult (l.foldlM f loader) (l.foldlM f loader') := by
  induction l generalizing loader loader' with
  | nil => exact .ok same
  | cons a l ih =>
    rw [List.foldlM_cons, List.foldlM_cons]
    exact (next a same).bind ih

theorem SameLayers.withSetting (h : SameLayers loader loader') (setting : List Char) :
    SameResult (loader.withSetting setting) (loader'.withSetting setting) := by
  obtain ⟨path, v, taken⟩ | ⟨e, refused⟩ := isTaken_or_isRefused setting
  · rw [withSetting_of_isTaken taken, withSetting_of_isTaken taken]
    exact .ok ⟨h.files, h.overrides.put path v⟩
  · rw [withSetting_of_isRefused refused, withSetting_of_isRefused refused]
    exact .error e

theorem SameLayers.withSettings (h : SameLayers loader loader') (settings : List (List Char)) :
    SameResult (loader.withSettings settings) (loader'.withSettings settings) :=
  .foldlM (fun setting same => same.withSetting setting) h settings

theorem SameLayers.add (h : SameLayers loader loader') (layer : Layer) :
    SameResult (loader.add layer) (loader'.add layer) := by
  cases layer with
  | file name contents =>
    refine .ok ⟨?_, h.overrides⟩
    rw [withFile, withFile, h.files]
  | settings settings => exact h.withSettings settings

theorem SameResult.bind_build (h : SameResult x y) : x.bind build = y.bind build := by
  cases h with
  | error => rfl
  | ok same => exact same.build

/-- Whatever is added to them, two loaders with the same layers build the same. -/
theorem SameResult.foldlM_add_bind_build (h : SameResult x y) (layers : List Layer) :
    (x >>= layers.foldlM Loader.add).bind build = (y >>= layers.foldlM Loader.add).bind build :=
  (h.bind fun same => .foldlM (fun layer same => same.add layer) same layers).bind_build

/-! ## Lists of settings -/

/-- The two settings are taken for paths that part. -/
inductive AreApart : List Char → List Char → Prop
  | intro {s t p q v w} : IsTaken s p v → IsTaken t q w → p.Apart q → AreApart s t

/-- Whatever a loader has and whatever is added, one list of settings does the same to the
configuration as the other one. -/
def AreInterchangeable (settings settings' : List (List Char)) : Prop :=
  ∀ (loader : Loader) (layers : List Layer),
    ((Layer.settings settings :: layers).foldlM Loader.add loader).bind build =
      ((Layer.settings settings' :: layers).foldlM Loader.add loader).bind build

/-- Every loader gets the same layers from one list of settings as from the other one. -/
def SameEffect (settings settings' : List (List Char)) : Prop :=
  ∀ loader : Loader, SameResult (loader.withSettings settings) (loader.withSettings settings')

variable {s t : List Char} {mid rest settings settings' : List (List Char)} {path : KeyPath}

theorem AreApart.symm (h : AreApart s t) : AreApart t s := by
  cases h with
  | intro taken taken' apart => exact .intro taken' taken apart.symm

namespace SameEffect

theorem refl (settings : List (List Char)) : SameEffect settings settings :=
  fun _ => .refl _

theorem trans {settings'' : List (List Char)} (h : SameEffect settings settings')
    (h' : SameEffect settings' settings'') : SameEffect settings settings'' :=
  fun loader => (h loader).trans (h' loader)

theorem interchangeable (h : SameEffect settings settings') :
    AreInterchangeable settings settings' := by
  intro loader layers
  rw [List.foldlM_cons, List.foldlM_cons]
  exact (h loader).foldlM_add_bind_build layers

/-- The same settings before and after do not matter. -/
theorem append (h : SameEffect settings settings') (before after : List (List Char)) :
    SameEffect (before ++ settings ++ after) (before ++ settings' ++ after) := by
  intro loader
  simp only [withSettings_append]
  refine SameResult.bind ?_ fun same => same.withSettings after
  cases loader.withSettings before with
  | error e => exact .error e
  | ok loader' => exact h loader'

theorem cons (h : SameEffect settings settings') (setting : List Char) :
    SameEffect (setting :: settings) (setting :: settings') := by
  have all := h.append [setting] []
  rwa [List.append_nil, List.append_nil] at all

end SameEffect

theorem sameEffect_swap (h : AreApart s t) (rest : List (List Char)) :
    SameEffect (s :: t :: rest) (t :: s :: rest) := by
  intro loader
  cases h with
  | @intro p q v w taken taken' apart =>
    simp only [withSettings_cons, withSetting_of_isTaken taken, withSetting_of_isTaken taken']
    have same : SameLayers ((loader.override p v).override q w)
        ((loader.override q w).override p v) :=
      ⟨rfl, reordered_put_put apart v w loader.overrides⟩
    exact same.withSettings rest

/-- Settings for paths that part may come in any order. -/
theorem sameEffect_of_perm (perm : settings.Perm settings')
    (apart : settings.Pairwise AreApart) : SameEffect settings settings' := by
  induction perm with
  | nil => exact .refl _
  | cons s _ ih => exact (ih apart.of_cons).cons s
  | swap s t rest => exact sameEffect_swap (List.rel_of_pairwise_cons apart List.mem_cons_self) rest
  | trans first _ ih ih' => exact (ih apart).trans (ih' (apart.perm first AreApart.symm))

/-! ## Repetition -/

/-- The loaders have an override for the path, and are the same except for its value. -/
structure SameBut (path : KeyPath) (loader loader' : Loader) : Prop where
  left : path ∈ loader.overrides.map Prod.fst
  right : path ∈ loader'.overrides.map Prod.fst
  same : ∀ value, loader.override path value = loader'.override path value

theorem override_override (loader : Loader) (path : KeyPath) (old new : Scalar) :
    (loader.override path old).override path new = loader.override path new := by
  rw [override, override, override, Entries.put_put]

theorem sameBut_override (loader : Loader) (path : KeyPath) (v w : Scalar) :
    SameBut path (loader.override path v) (loader.override path w) where
  left := Entries.key_mem_put path v loader.overrides
  right := Entries.key_mem_put path w loader.overrides
  same value := by rw [override_override, override_override]

theorem override_comm_of_mem (mem : p ∈ loader.overrides.map Prod.fst) (other : q ≠ p)
    (v w : Scalar) : (loader.override q w).override p v = (loader.override p v).override q w := by
  rw [override, override, override, override]
  exact congrArg (Loader.mk _) (Entries.put_comm_of_mem mem other v w)

theorem SameBut.override (h : SameBut path loader loader') (q : KeyPath) (w : Scalar) :
    SameBut path (loader.override q w) (loader'.override q w) where
  left := Entries.mem_keys_put h.left q w
  right := Entries.mem_keys_put h.right q w
  same value := by
    by_cases other : q = path
    · rw [other, override_override, override_override, h.same]
    · rw [override_comm_of_mem h.left other, override_comm_of_mem h.right other, h.same]

/-- A further setting for the path makes them the same. -/
theorem SameBut.withSettings (h : SameBut path loader loader') (taken : IsTaken t path w)
    (mid rest : List (List Char)) :
    loader.withSettings (mid ++ t :: rest) = loader'.withSettings (mid ++ t :: rest) := by
  induction mid generalizing loader loader' with
  | nil =>
    rw [List.nil_append, withSettings_cons, withSettings_cons, withSetting_of_isTaken taken,
      withSetting_of_isTaken taken, h.same]
  | cons m mid ih =>
    rw [List.cons_append, withSettings_cons, withSettings_cons]
    obtain ⟨q, x, taken'⟩ | ⟨e, refused⟩ := isTaken_or_isRefused m
    · rw [withSetting_of_isTaken taken', withSetting_of_isTaken taken']
      exact ih (h.override q x)
    · rw [withSetting_of_isRefused refused, withSetting_of_isRefused refused]

/-- What an earlier setting for the same path says does not matter. -/
theorem withSettings_repeat (taken : IsTaken s path v) (taken' : IsTaken t path w)
    (mid rest : List (List Char)) (loader : Loader) :
    loader.withSettings (s :: mid ++ t :: rest) = loader.withSettings (t :: mid ++ t :: rest) := by
  rw [List.cons_append, List.cons_append, withSettings_cons, withSettings_cons,
    withSetting_of_isTaken taken, withSetting_of_isTaken taken']
  exact (sameBut_override loader path v w).withSettings taken' mid rest

/-- An earlier setting for the same path may be left out, if the settings between are for paths that
part from it. -/
theorem sameEffect_drop (taken : IsTaken s path v) (taken' : IsTaken t path w)
    (apart : ∀ m ∈ mid, AreApart s m) (rest : List (List Char)) :
    SameEffect (s :: mid ++ t :: rest) (mid ++ t :: rest) := by
  induction mid with
  | nil =>
    intro loader
    have same : loader.withSettings (s :: t :: rest) = loader.withSettings (t :: rest) := by
      rw [withSettings_cons, withSettings_cons, withSetting_of_isTaken taken]
      change (loader.override path v).withSettings (t :: rest) = _
      rw [withSettings_cons, withSetting_of_isTaken taken', withSetting_of_isTaken taken']
      exact congrArg (withSettings · rest) (override_override loader path v w)
    change SameResult (loader.withSettings (s :: t :: rest)) (loader.withSettings (t :: rest))
    rw [same]
    exact .refl _
  | cons m mid ih =>
    obtain ⟨first, later⟩ := List.forall_mem_cons.1 apart
    exact (sameEffect_swap first (mid ++ t :: rest)).trans ((ih later).cons m)

end Loader
end FancyTokens
