import FancyTokens.Proofs.Settings.Layers

/-!
# Paths that part

A configuration is made of what is looked up in two tables of the tree, so trees that differ in
nothing but the order of entries give the same one (`SameTree.ofSettings`). Paths that part at one
of the two tables or within it, as those to different fields do (`KeyPath.apart_of_field?`), may be
given their values in either order (`KeyPath.set?_comm`).
-/

namespace FancyTokens

/-! ## Related results -/

section Related

variable {α β : Type} {r : α → α → Prop} {x y z : Option α}

theorem rel_refl (refl : ∀ a, r a a) : ∀ x, Option.Rel r x x
  | none => .none
  | some a => .some (refl a)

theorem rel_trans (trans : ∀ {a b c}, r a b → r b c → r a c) (h : Option.Rel r x y)
    (h' : Option.Rel r y z) : Option.Rel r x z := by
  cases h with
  | none => exact h'
  | some first =>
    cases h' with
    | some second => exact .some (trans first second)

theorem rel_cases (h : Option.Rel r x y) :
    x = none ∧ y = none ∨ ∃ a b, x = some a ∧ y = some b ∧ r a b := by
  cases h with
  | none => exact .inl ⟨rfl, rfl⟩
  | some related => exact .inr ⟨_, _, rfl, rfl, related⟩

theorem rel_mono {s : α → α → Prop} (mono : ∀ {a b}, r a b → s a b) (h : Option.Rel r x y) :
    Option.Rel s x y := by
  cases h with
  | none => exact .none
  | some related => exact .some (mono related)

theorem rel_map {s : β → β → Prop} {f : α → β} (mono : ∀ {a b}, r a b → s (f a) (f b))
    (h : Option.Rel r x y) : Option.Rel s (x.map f) (y.map f) := by
  cases h with
  | none => exact .none
  | some related => exact .some (mono related)

theorem rel_bind {s : β → β → Prop} {f g : α → Option β} (h : Option.Rel r x y)
    (next : ∀ {a b}, r a b → Option.Rel s (f a) (g b)) :
    Option.Rel s (x.bind f) (y.bind g) := by
  cases h with
  | none => exact .none
  | some related => exact next related

end Related

namespace Settings

/-! ## Trees up to the order of entries -/

namespace Value

/-- The same value, or tables with the same entries in whatever order. -/
inductive SameTable : Value → Value → Prop
  | refl (value : Value) : SameTable value value
  | tables {value value'} : value.isTable = true → value'.isTable = true →
    (∀ name, value.entries.lookup name = value'.entries.lookup name) → SameTable value value'

/-- Under each key there is nothing in either tree, or the same up to the order of entries. -/
def SameTree (root root' : Value) : Prop :=
  ∀ key, Option.Rel SameTable (root.entries.lookup key) (root'.entries.lookup key)

theorem setNamed_congr {es es' : List (Key × Value)}
    (same : ∀ name, es.lookup name = es'.lookup name) (options : Preprocessing)
    (rest : List Preprocessing.Key) : setNamed es options rest = setNamed es' options rest := by
  induction rest generalizing options with
  | nil => rfl
  | cons option rest ih =>
    rw [setNamed, setNamed, same]
    cases es'.lookup option.name.toList with
    | none => exact ih options
    | some value => exact congrArg _ (funext ih)

variable {root root' value value' inner inner' new : Value} {key : Key}

/-- Of two values under one key the later one is left. -/
theorem replace_replace {key' : Key} (same : lowercase key = lowercase key') (root old new : Value) :
    (root.replace key old).replace key' new = root.replace key new := by
  rw [replace, entries_toTable, replace, entries, ← same, Entries.put_put]
  rfl

namespace SameTable

theorem lookup (h : SameTable value value') (name : Key) :
    value.entries.lookup name = value'.entries.lookup name := by
  cases h with
  | refl => rfl
  | tables _ _ same => exact same name

theorem trans {value'' : Value} (h : SameTable value value') (h' : SameTable value' value'') :
    SameTable value value'' := by
  cases h with
  | refl => exact h'
  | tables table table' same =>
    cases h' with
    | refl => exact .tables table table' same
    | tables _ table'' same' => exact .tables table table'' fun name => (same name).trans (same' name)

theorem toArray (h : SameTable value value') : value.toArray = value'.toArray := by
  cases h with
  | refl => rfl
  | tables table table' =>
    obtain ⟨origin, es, rfl⟩ := exists_of_isTable table
    obtain ⟨origin', es', rfl⟩ := exists_of_isTable table'
    rfl

theorem replace (h : SameTable value value') (key : Key) (new : Value) :
    SameTable (value.replace key new) (value'.replace key new) := by
  refine .tables rfl rfl fun name => ?_
  rw [lookup_replace, lookup_replace, h.lookup]

/-- Steps from the same table lead to the same. -/
theorem setSteps? (h : SameTable value value') (single : new.isTable = false)
    (steps : List PathStep) :
    Option.Rel SameTable (KeyPath.setSteps? new steps value)
      (KeyPath.setSteps? new steps value') := by
  cases steps with
  | nil => exact .some (.refl new)
  | cons step steps =>
    cases step with
    | key key =>
      rw [KeyPath.setSteps?_key_of_single key single, KeyPath.setSteps?_key_of_single key single,
        h.lookup]
      cases KeyPath.setSteps? new steps _ with
      | none => exact .none
      | some inner => exact .some (h.replace key inner)
    | index i =>
      rw [KeyPath.setSteps?, KeyPath.setSteps?, h.toArray]
      exact rel_refl .refl _

theorem toPreprocessing (h : SameTable value value') :
    Settings.toPreprocessing value = Settings.toPreprocessing value' := by
  cases h with
  | refl => rfl
  | tables table table' same =>
    obtain ⟨origin, es, rfl⟩ := exists_of_isTable table
    obtain ⟨origin', es', rfl⟩ := exists_of_isTable table'
    exact setNamed_congr same _ _

theorem toOutput (h : SameTable value value') :
    Settings.toOutput value = Settings.toOutput value' := by
  cases h with
  | refl => rfl
  | tables table table' same =>
    obtain ⟨origin, es, rfl⟩ := exists_of_isTable table
    obtain ⟨origin', es', rfl⟩ := exists_of_isTable table'
    have format : es.lookup "format".toList = es'.lookup "format".toList := same _
    rw [Settings.toOutput, Settings.toOutput, format]

end SameTable

/-- Two values under different keys may be put in either order. -/
theorem sameTable_replace_replace {key' : Key} (other : lowercase key ≠ lowercase key')
    (value inner inner' : Value) :
    SameTable ((value.replace key inner).replace key' inner')
      ((value.replace key' inner').replace key inner) := by
  refine .tables rfl rfl fun name => ?_
  simp only [lookup_replace]
  by_cases here : lowercase key = name
  · rw [if_pos here, if_pos here, if_neg fun there => other (here.trans there.symm)]
  · rw [if_neg here, if_neg here]

theorem SameTable.sameTree (h : SameTable root root') : SameTree root root' := by
  intro key
  rw [h.lookup]
  exact rel_refl .refl _

namespace SameTree

theorem refl (root : Value) : SameTree root root :=
  fun _ => rel_refl .refl _

theorem trans {root'' : Value} (h : SameTree root root') (h' : SameTree root' root'') :
    SameTree root root'' :=
  fun key => rel_trans .trans (h key) (h' key)

theorem replace (h : SameTree root root') (key : Key) (same : SameTable inner inner') :
    SameTree (root.replace key inner) (root'.replace key inner') := by
  intro k
  rw [lookup_replace, lookup_replace]
  by_cases here : lowercase key = k
  · rw [if_pos here, if_pos here]
    exact .some same
  · rw [if_neg here, if_neg here]
    exact h k

/-- What is under a key, or else nothing. -/
theorem getD (h : SameTree root root') (key : Key) :
    SameTable ((root.entries.lookup key).getD .nil) ((root'.entries.lookup key).getD .nil) := by
  obtain ⟨absent, absent'⟩ | ⟨value, value', found, found', same⟩ := rel_cases (h key)
  · rw [absent, absent']
    exact .refl _
  · rw [found, found']
    exact same

/-- A path leads to the same in both trees. -/
theorem set? (h : SameTree root root') (single : new.isTable = false) (path : KeyPath) :
    Option.Rel SameTree (path.set? new root) (path.set? new root') := by
  rw [KeyPath.set?_eq single, KeyPath.set?_eq single]
  obtain ⟨none, none'⟩ | ⟨inner, inner', some, some', same⟩ :=
    rel_cases ((h.getD (lowercase path.root)).setSteps? single path.steps)
  · rw [none, none']
    exact .none
  · rw [some, some']
    exact .some (h.replace path.root same)

/-- The trees give the same configuration. -/
theorem ofSettings (h : SameTree root root') :
    Configuration.ofSettings root = Configuration.ofSettings root' := by
  rw [Configuration.ofSettings, Configuration.ofSettings]
  obtain ⟨none, none'⟩ | ⟨lexer, lexer', some, some', sameLexer⟩ := rel_cases (h "lexer".toList)
  · rw [none, none']
  · rw [some, some']
    dsimp only
    obtain ⟨none, none'⟩ | ⟨output, output', some, some', sameOutput⟩ :=
      rel_cases (h "output".toList)
    · rw [none, none']
    · rw [some, some']
      dsimp only
      rw [sameLexer.toPreprocessing, sameOutput.toOutput]

end SameTree

end Value

/-! ## Paths that part -/

namespace KeyPath

/-- The paths part at the first table or at the second one. -/
inductive Apart (p q : KeyPath) : Prop
  | roots : lowercase p.root ≠ lowercase q.root → Apart p q
  | names {a b steps steps'} : p.steps = .key a :: steps → q.steps = .key b :: steps' →
    lowercase a ≠ lowercase b → Apart p q

variable {p q : KeyPath} {root v w : Value}

theorem Apart.symm (h : p.Apart q) : q.Apart p := by
  cases h with
  | roots other => exact .roots other.symm
  | names here there other => exact .names there here other.symm

theorem Apart.ne (h : p.Apart q) : p ≠ q := by
  rintro rfl
  cases h with
  | roots other => exact other rfl
  | names here there other =>
    cases here.symm.trans there
    exact other rfl

/-- Paths to different fields part. -/
theorem apart_of_field? {f g : Field} (hp : p.field? = some f) (hq : q.field? = some g)
    (other : f ≠ g) : p.Apart q := by
  obtain ⟨a, here, rfl, -⟩ := exists_of_field? hp
  obtain ⟨b, there, rfl, -⟩ := exists_of_field? hq
  by_cases roots : lowercase p.root = lowercase q.root
  · exact .names here there fun names => other (by rw [roots, names])
  · exact .roots roots

open Value

/-- Steps that start with different keys may be taken in either order. -/
theorem setSteps?_comm {a b : Key} (other : lowercase a ≠ lowercase b)
    (single : v.isTable = false) (single' : w.isTable = false) (steps steps' : List PathStep)
    (value : Value) :
    Option.Rel SameTable
      ((setSteps? v (.key a :: steps) value).bind (setSteps? w (.key b :: steps')))
      ((setSteps? w (.key b :: steps') value).bind (setSteps? v (.key a :: steps))) := by
  have after : ∀ x, setSteps? w (.key b :: steps') (value.replace a x) =
      (setSteps? w steps' ((value.entries.lookup (lowercase b)).getD .nil)).map
        ((value.replace a x).replace b) := by
    intro x
    rw [setSteps?_key_of_single b single', lookup_replace, if_neg other]
  have after' : ∀ y, setSteps? v (.key a :: steps) (value.replace b y) =
      (setSteps? v steps ((value.entries.lookup (lowercase a)).getD .nil)).map
        ((value.replace b y).replace a) := by
    intro y
    rw [setSteps?_key_of_single a single, lookup_replace, if_neg other.symm]
  rw [setSteps?_key_of_single a single, setSteps?_key_of_single b single']
  cases eq : setSteps? v steps ((value.entries.lookup (lowercase a)).getD .nil) with
  | none =>
    cases setSteps? w steps' ((value.entries.lookup (lowercase b)).getD .nil) with
    | none => exact .none
    | some y =>
      rw [Option.map_some, Option.bind_some, after', eq]
      exact .none
  | some x =>
    rw [Option.map_some, Option.bind_some, after]
    cases setSteps? w steps' ((value.entries.lookup (lowercase b)).getD .nil) with
    | none => exact .none
    | some y =>
      rw [Option.map_some, Option.map_some, Option.bind_some, after', eq]
      exact .some (sameTable_replace_replace other value x y)

/-- Two paths through one table lead on from what is in the table. -/
theorem set?_bind_set? (same : lowercase p.root = lowercase q.root) (single : v.isTable = false)
    (single' : w.isTable = false) (root : Value) :
    (p.set? v root).bind (q.set? w) =
      ((setSteps? v p.steps ((root.entries.lookup (lowercase p.root)).getD .nil)).bind
        (setSteps? w q.steps)).map (root.replace p.root) := by
  rw [set?_eq single]
  cases setSteps? v p.steps ((root.entries.lookup (lowercase p.root)).getD .nil) with
  | none => rfl
  | some x =>
    rw [Option.map_some, Option.bind_some, Option.bind_some, set?_eq single', lookup_replace,
      if_pos same, Option.getD_some]
    exact congrArg (Option.map · _) (funext (replace_replace same root x))

/-- Paths that part may be given their values in either order. -/
theorem set?_comm (apart : p.Apart q) (single : v.isTable = false) (single' : w.isTable = false)
    (root : Value) :
    Option.Rel SameTree ((p.set? v root).bind (q.set? w)) ((q.set? w root).bind (p.set? v)) := by
  by_cases roots : lowercase p.root = lowercase q.root
  · -- the paths part within one table, and the rest of the tree does not matter
    obtain other | ⟨here, there, other⟩ := apart
    · exact absurd roots other
    · have swap : root.replace q.root = root.replace p.root := by
        funext value
        rw [replace, replace, roots]
      rw [set?_bind_set? roots single single', set?_bind_set? roots.symm single' single, here,
        there, swap, roots]
      exact rel_map (fun same => (SameTree.refl root).replace p.root same)
        (setSteps?_comm other single single' _ _ _)
  · have same := setSteps?_comm roots single single' p.steps q.steps root
    exact rel_mono SameTable.sameTree same

end KeyPath

end Settings
end FancyTokens
