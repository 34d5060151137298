import Mathlib.Data.List.TakeDrop
import FancyTokens.Proofs.Settings.Tree

/-!
# What a path writes

Settings and the entries of files are put into the tree by paths. A path that leads past the two
tables writes no field (`KeyPath.writes_foreign`), and one that leads to a field writes that field
(`KeyPath.writes_field`). An entry of a file writes the fields that it has under the key of one
of the two tables, whole (`Loader.addEntry?_writes`): the key of such a table is not read as
a longer path (`single_of_read`).
-/

namespace FancyTokens
namespace Settings

/-! ## Paths -/

/-- The step can be taken from any value. -/
def PathStep.isForward : PathStep → Bool
  | key _ => true
  | index i => 0 ≤ i

namespace KeyPath

variable {path : KeyPath} {steps : List PathStep} {field : Field} {root new : Value}

/-- The path leads past the tables that a configuration is read from. -/
def IsForeign (path : KeyPath) : Prop :=
  lowercase path.root ∉ mainTables ∧ ∀ step ∈ path.steps, step.isForward = true

instance : Decidable path.IsForeign :=
  inferInstanceAs (Decidable (_ ∧ _))

/-- The field that a path leads to. -/
def field? (path : KeyPath) : Option Field :=
  match path.steps with
  | [.key name] =>
    if lowercase path.root ∈ mainTables then some ⟨lowercase path.root, lowercase name⟩ else none
  | _ => none

theorem exists_of_field? (h : path.field? = some field) :
    ∃ name, path.steps = [.key name] ∧ field = ⟨lowercase path.root, lowercase name⟩ ∧
      lowercase path.root ∈ mainTables := by
  unfold field? at h
  split at h
  · next name eq =>
    by_cases main : lowercase path.root ∈ mainTables
    · rw [if_pos main] at h
      exact ⟨name, eq, (Option.some.inj h).symm, main⟩
    · rw [if_neg main] at h
      cases h
  · cases h

theorem setSteps?_key (key : Key) (h : steps ≠ []) (value : Value) :
    setSteps? new (.key key :: steps) value =
      (setSteps? new steps ((value.entries.lookup (lowercase key)).getD .nil)).map
        (value.replace key) := by
  rw [setSteps?, Value.entries_toTable, Value.replace_toTable]
  exact fun last => h last

/-- A single value is put under the last key as under any other. -/
theorem setSteps?_key_of_single (key : Key) (single : new.isTable = false) (value : Value) :
    setSteps? new (.key key :: steps) value =
      (setSteps? new steps ((value.entries.lookup (lowercase key)).getD .nil)).map
        (value.replace key) := by
  by_cases last : steps = []
  · rw [last]
    change some (value.toTable.set key new) = some (value.replace key new)
    rw [Value.set_toTable, Value.set_eq_replace single]
  · exact setSteps?_key key last value

theorem set?_eq (single : new.isTable = false) (path : KeyPath) (root : Value) :
    path.set? new root =
      (setSteps? new path.steps ((root.entries.lookup (lowercase path.root)).getD .nil)).map
        (root.replace path.root) :=
  setSteps?_key_of_single path.root single root

theorem exists_setSteps? (forward : ∀ step ∈ steps, step.isForward = true) (new value : Value) :
    ∃ inner, setSteps? new steps value = some inner := by
  induction steps generalizing value with
  | nil => exact ⟨new, rfl⟩
  | cons step steps ih =>
    have later := ih fun s mem => forward s (List.mem_cons_of_mem step mem)
    have here := forward step List.mem_cons_self
    cases step with
    | key key =>
      by_cases last : steps = []
      · rw [last]
        exact ⟨_, rfl⟩
      · obtain ⟨inner, eq⟩ := later ((value.entries.lookup (lowercase key)).getD .nil)
        rw [setSteps?_key key last, eq]
        exact ⟨_, rfl⟩
    | index i =>
      have start : place? value.toArray.elements.length i = some i.toNat :=
        if_pos (of_decide_eq_true here)
      obtain ⟨inner, eq⟩ := later (value.toArray.elements[i.toNat]?.getD .nil)
      rw [setSteps?, start, Option.bind_some, eq]
      exact ⟨_, rfl⟩

/-- Nothing past the two tables matters to them. -/
theorem writes_foreign (tables : root.HasMainTables) (h : path.IsForeign) (new : Value) :
    ∃ root', path.set? new root = some root' ∧ root.Writes root' fun _ => none := by
  have other : ∀ name ∈ mainTables, lowercase path.root ≠ name :=
    fun name mem same => h.1 (same ▸ mem)
  rw [set?]
  by_cases last : path.steps = []
  · rw [last]
    refine ⟨root.toTable.set path.root new, rfl, Value.writes_of_lookup tables ?_⟩
    intro name mem
    rw [Value.lookup_set_of_ne (other name mem), Value.entries_toTable]
  · obtain ⟨inner, eq⟩ := exists_setSteps? h.2 new
      ((root.entries.lookup (lowercase path.root)).getD .nil)
    rw [setSteps?_key _ last, eq]
    refine ⟨root.replace path.root inner, rfl, Value.writes_of_lookup tables ?_⟩
    intro name mem
    rw [Value.lookup_replace, if_neg (other name mem)]

/-- A single value put under the path of a field is written to that field. -/
theorem writes_field (tables : root.HasMainTables) (h : path.field? = some field)
    (new : Value) (single : new.isTable = false) :
    ∃ root', path.set? new root = some root' ∧
      root.Writes root' fun other => if field = other then some new else none := by
  obtain ⟨name, steps, rfl, main⟩ := exists_of_field? h
  obtain ⟨target, found, table⟩ := tables _ main
  have values : ∀ k, (target.set name new).entries.lookup k =
      (if lowercase name = k then some new else none).or
        (root.field? ⟨lowercase path.root, k⟩) := by
    intro k
    rw [Value.set_eq_replace single, Value.lookup_replace, Value.field?, found, Option.bind_some]
    split <;> rfl
  refine ⟨root.replace path.root (target.set name new), ?_, ?_⟩
  · rw [set?, steps, setSteps?_key _ (List.cons_ne_nil _ _), found, setSteps?]
    rw [Option.getD_some, Value.set_toTable]
    rfl
  · apply (Value.writes_replace (w := fun k => if lowercase name = k then some new else none)
      tables (Value.isTable_set _ _ _) values).congr
    rintro ⟨table, k⟩ -
    by_cases same : lowercase path.root = table
    · simp only [same, if_true, Field.mk.injEq, true_and]
    · simp only [same, if_false, Field.mk.injEq, false_and]

end KeyPath

/-! ## Entries of a file -/

/-- A key of a file does not lead into one of the two tables, as `"lexer.tabsize"` in quotes does,
and not to a place before the start of an array. -/
def IsPlainKey (key : Key) : Prop :=
  ∀ path ∈ (KeyPath.read key).toOption, path.steps = [] ∨ path.IsForeign

instance (key : Key) : Decidable (IsPlainKey key) :=
  inferInstanceAs (Decidable (∀ path ∈ (KeyPath.read key).toOption, _))

/-- A table of values other than tables, no two of whose keys are equal up to case. -/
def IsFlat (value : Value) : Prop :=
  value.isTable = true ∧ (value.entries.map fun e => lowercase e.1).Nodup ∧
    ∀ e ∈ value.entries, e.2.isTable = false

instance (value : Value) : Decidable (IsFlat value) :=
  inferInstanceAs (Decidable (_ ∧ _))

/-- Some entries can be merged key by key: no two keys are equal up to case, and what stands under
the keys of the two tables is flat. -/
def IsMergeable (es : List (Key × Value)) : Prop :=
  (es.map fun e => lowercase e.1).Nodup ∧
    ∀ e ∈ es, lowercase e.1 ∈ mainTables → IsFlat e.2

instance (es : List (Key × Value)) : Decidable (IsMergeable es) :=
  inferInstanceAs (Decidable (_ ∧ _))

/-- What an entry of a file says of a field. -/
def entryField? (field : Field) (e : Key × Value) : Option Value :=
  if lowercase e.1 = field.table then Value.findFolded? field.name e.2.entries else none

/-- What the entries of a file say of a field. -/
def valueAmong? (field : Field) (es : List (Key × Value)) : Option Value :=
  (Value.findFolded? field.table es).bind fun inner => Value.findFolded? field.name inner.entries

/-- One entry at most says something of a field. -/
theorem getLast?_entryField? {es : List (Key × Value)} (field : Field)
    (distinct : (es.map fun e => lowercase e.1).Nodup) :
    (es.filterMap (entryField? field)).getLast? = valueAmong? field es := by
  induction es with
  | nil => rfl
  | cons e es ih =>
    rw [List.map_cons, List.nodup_cons] at distinct
    rw [List.filterMap_cons, valueAmong?, Value.findFolded?_cons]
    by_cases here : lowercase e.1 = field.table
    · have silent : es.filterMap (entryField? field) = [] := by
        rw [List.filterMap_eq_nil_iff]
        intro other mem
        refine if_neg fun same => distinct.1 ?_
        rw [here, ← same]
        exact List.mem_map_of_mem mem
      rw [entryField?, if_pos here, if_pos here, silent, Option.bind_some]
      cases Value.findFolded? field.name e.2.entries <;> rfl
    · rw [entryField?, if_neg here, if_neg here]
      exact ih distinct.2

section Keys

variable {c : Char} {s : List Char} {key : Key} {path : KeyPath}

theorem mem_lowercase (mem : c ∈ s)
    (fixed : ∀ before after, lowercaseAt before c after = [c]) : c ∈ lowercase s := by
  have run : ∀ before, c ∈ lowercaseAfter before s := by
    induction s with
    | nil => cases mem
    | cons d s ih =>
      intro before
      rw [lowercaseAfter, List.mem_append]
      rw [List.mem_cons] at mem
      by_cases here : c = d
      · rw [← here, fixed]
        exact Or.inl List.mem_cons_self
      · exact Or.inr (ih (mem.resolve_left here) _)
  exact run []

theorem head_of_readStep {result : PathStep × List Char}
    (h : KeyPath.readStep (c :: s) = .ok result) : c = '.' ∨ c = '[' := by
  unfold KeyPath.readStep at h
  split at h
  · next eq => exact Or.inl (List.cons.inj eq).1
  · next eq => exact Or.inr (List.cons.inj eq).1
  · cases h

theorem head_of_readSteps {fuel : Nat} {steps : List PathStep}
    (h : KeyPath.readSteps fuel (c :: s) = .ok steps) : steps ≠ [] ∧ (c = '.' ∨ c = '[') := by
  cases fuel with
  | zero => cases h
  | succ fuel =>
    obtain ⟨result, first, h⟩ := bind_eq_ok_iff.1 h
    obtain ⟨steps', -, h⟩ := bind_eq_ok_iff.1 h
    cases h
    exact ⟨List.cons_ne_nil _ _, head_of_readStep first⟩

/-- A key that is read as a path has no further steps, or there is a dot or a bracket in it. -/
theorem single_or_mem_of_read (h : KeyPath.read key = .ok path) :
    path = ⟨key, []⟩ ∨ path.steps ≠ [] ∧ ('.' ∈ key ∨ '[' ∈ key) := by
  have whole : (key.span KeyPath.isKeyChar).1 ++ (key.span KeyPath.isKeyChar).2 = key := by
    rw [List.span_eq_takeWhile_dropWhile, List.takeWhile_append_dropWhile]
  unfold KeyPath.read at h
  split at h
  · cases h
  · next first rest _ eq =>
    rw [eq] at whole
    obtain ⟨steps, more, h⟩ := bind_eq_ok_iff.1 h
    cases h
    cases rest with
    | nil =>
      rw [List.append_nil] at whole
      cases more
      exact Or.inl (by rw [← whole])
    | cons c rest =>
      have mem : c ∈ key := by
        rw [← whole]
        exact List.mem_append_right _ List.mem_cons_self
      obtain ⟨long, rfl | rfl⟩ := head_of_readSteps more
      · exact Or.inr ⟨long, Or.inl mem⟩
      · exact Or.inr ⟨long, Or.inr mem⟩

/-- The key of one of the two tables is not read as a longer path. -/
theorem single_of_read (h : KeyPath.read key = .ok path) (main : lowercase key ∈ mainTables) :
    path = ⟨key, []⟩ := by
  refine (single_or_mem_of_read h).resolve_right ?_
  have plain : ∀ name ∈ mainTables, '.' ∉ name ∧ '[' ∉ name := by decide
  rintro ⟨-, dot | bracket⟩
  · exact (plain _ main).1 (mem_lowercase dot fun _ _ => rfl)
  · exact (plain _ main).2 (mem_lowercase bracket fun _ _ => rfl)

end Keys

end Settings

namespace Loader

open Settings

variable {root : Value} {e : Key × Value}

theorem writes_set (tables : root.HasMainTables) (flat : lowercase e.1 ∈ mainTables → IsFlat e.2) :
    root.Writes (root.set e.1 e.2) (entryField? · e) := by
  obtain ⟨key, value⟩ := e
  by_cases main : lowercase key ∈ mainTables
  · obtain ⟨table, distinct, single⟩ := flat main
    obtain ⟨origin, es, rfl⟩ := Value.exists_of_isTable table
    exact Value.writes_set_table tables main distinct single
  · have other : ∀ name ∈ mainTables, lowercase key ≠ name := fun name mem same => main (same ▸ mem)
    have kept : ∀ name ∈ mainTables, (root.set key value).entries.lookup name =
        root.entries.lookup name := fun name mem => Value.lookup_set_of_ne (other name mem)
    apply (Value.writes_of_lookup tables kept).congr
    intro field mem
    rw [entryField?, if_neg (other _ mem)]

theorem addEntry?_writes (tables : root.HasMainTables) (plain : IsPlainKey e.1)
    (flat : lowercase e.1 ∈ mainTables → IsFlat e.2) :
    ∃ root', addEntry? root e = some root' ∧ root.Writes root' (entryField? · e) := by
  cases read : KeyPath.read e.1 with
  | error =>
    unfold addEntry?
    rw [read]
    exact ⟨_, rfl, writes_set tables flat⟩
  | ok path =>
    unfold addEntry?
    rw [read]
    by_cases single : path = ⟨e.1, []⟩
    · rw [single]
      refine ⟨root.set e.1 e.2, ?_, writes_set tables flat⟩
      rw [← Value.set_toTable]
      rfl
    · have other : lowercase e.1 ∉ mainTables := fun main => single (single_of_read read main)
      have long : path.steps ≠ [] := ((single_or_mem_of_read read).resolve_left single).1
      have foreign : path.IsForeign :=
        (plain path (by rw [read]; rfl)).resolve_left long
      obtain ⟨root', eq, writes⟩ := KeyPath.writes_foreign tables foreign e.2
      refine ⟨root', eq, writes.congr ?_⟩
      intro field mem
      refine (if_neg fun same => other ?_).symm
      rw [same]
      exact mem

end Loader
end FancyTokens
