import FancyTokens.Settings.Loader

/-!
# Fields in the tree of settings

A field is an entry of one of the two tables that a configuration is read from. What a layer does to
the tree is said by what it writes to the fields (`Value.Writes`). Of some layers in a row the last
one to write a field wins (`exists_foldlM_writes`), as long as each finds the two tables in their
places and leaves them there.
-/

namespace FancyTokens

/-- Two steps give a result if the first gives one from which the second gives it. -/
theorem bind_eq_ok_iff {ε α β : Type} {x : Except ε α} {f : α → Except ε β} {b : β} :
    x >>= f = .ok b ↔ ∃ a, x = .ok a ∧ f a = .ok b := by
  cases x with
  | error e =>
    constructor
    · intro h
      cases h
    · rintro ⟨a, eq, -⟩
      cases eq
  | ok a =>
    constructor
    · intro h
      exact ⟨a, rfl, h⟩
    · rintro ⟨a, eq, h⟩
      cases eq
      exact h

instance decidableEqOk {ε α : Type} [DecidableEq α] (x : Except ε α) (a : α) :
    Decidable (x = .ok a) :=
  match x with
  | .ok b => decidable_of_iff (b = a) ⟨congrArg _, fun h => Except.ok.inj h⟩
  | .error _ => isFalse nofun

namespace Settings

/-- The tables that a configuration is read from. -/
def mainTables : List Key :=
  ["lexer".toList, "output".toList]

/-- An entry of a table. -/
structure Field where
  table : Key
  name : Key
deriving DecidableEq, Repr

namespace Value

variable {root target : Value} {key k : Key} {value : Value} {es : List (Key × Value)}

/-! ## Entries -/

theorem entries_toTable (value : Value) : value.toTable.entries = value.entries := by
  cases value <;> rfl

/-- A key in whatever case stands for the key in lower case. -/
theorem lookup_replace (root : Value) (key k : Key) (value : Value) :
    (root.replace key value).entries.lookup k =
      if lowercase key = k then some value else root.entries.lookup k := by
  rw [replace, entries, Entries.lookup_put, entries_toTable]

theorem replace_toTable (root : Value) : root.toTable.replace = root.replace := by
  cases root <;> rfl

theorem set_toTable (root : Value) (key : Key) (value : Value) :
    root.toTable.set key value = root.set key value := by
  cases value with
  | scalar => rw [set, set, replace_toTable]
  | array => rw [set, set, replace_toTable]
  | table => rw [set, set, replace_toTable, entries_toTable]

/-- The value is a table. -/
def isTable : Value → Bool
  | table .. => true
  | _ => false

theorem exists_of_isTable (h : value.isTable = true) : ∃ origin es, value = .table origin es := by
  cases value with
  | scalar => cases h
  | array => cases h
  | table origin es => exact ⟨origin, es, rfl⟩

theorem set_eq_replace (h : value.isTable = false) :
    root.set key value = root.replace key value := by
  cases value with
  | scalar => rw [set]
  | array => rw [set]
  | table => cases h

theorem set_table (root : Value) (key : Key) (origin : Origin) (es : List (Key × Value)) :
    root.set key (.table origin es) =
      root.replace key (setAll ((root.entries.lookup (lowercase key)).getD empty) es) := by
  rw [set, entries_toTable]

/-- A value set under a key leaves the other keys as they are. -/
theorem lookup_set_of_ne (other : lowercase key ≠ k) :
    (root.set key value).entries.lookup k = root.entries.lookup k := by
  cases value with
  | scalar => rw [set, lookup_replace, if_neg other]
  | array => rw [set, lookup_replace, if_neg other]
  | table => rw [set_table, lookup_replace, if_neg other]

/-- The first value of a key in whatever case. -/
def findFolded? (key : Key) (es : List (Key × Value)) : Option Value :=
  (es.find? fun e => lowercase e.1 = key).map Prod.snd

theorem findFolded?_cons (key : Key) (e : Key × Value) (es : List (Key × Value)) :
    findFolded? key (e :: es) = if lowercase e.1 = key then some e.2 else findFolded? key es := by
  unfold findFolded?
  by_cases found : lowercase e.1 = key
  · rw [List.find?_cons_of_pos (by simpa using found), if_pos found]
    rfl
  · rw [List.find?_cons_of_neg (by simpa using found), if_neg found]

/-- A key that no entry has in any case has no value. -/
theorem findFolded?_eq_none (h : key ∉ es.map fun e => lowercase e.1) :
    findFolded? key es = none := by
  induction es with
  | nil => rfl
  | cons e es ih =>
    rw [List.map_cons, List.mem_cons, not_or] at h
    rw [findFolded?_cons, if_neg (Ne.symm h.1), ih h.2]

/-- Keys in lower case are found as they are. -/
theorem findFolded?_eq_lookup (lower : ∀ e ∈ es, lowercase e.1 = e.1) (key : Key) :
    findFolded? key es = es.lookup key := by
  induction es with
  | nil => rfl
  | cons e es ih =>
    rw [findFolded?_cons, Entries.lookup_cons, lower e List.mem_cons_self,
      ih fun e mem => lower e (List.mem_cons_of_mem _ mem)]

/-- What is merged into a table wins over what the table holds. -/
theorem lookup_setAll (distinct : (es.map fun e => lowercase e.1).Nodup)
    (flat : ∀ e ∈ es, e.2.isTable = false) (target : Value) (name : Key) :
    (setAll target es).entries.lookup name =
      (findFolded? name es).or (target.entries.lookup name) := by
  induction es generalizing target with
  | nil => rfl
  | cons e es ih =>
    obtain ⟨key, value⟩ := e
    rw [List.map_cons, List.nodup_cons] at distinct
    have later : ∀ e ∈ es, e.2.isTable = false := fun e mem => flat e (List.mem_cons_of_mem _ mem)
    rw [setAll, ih distinct.2 later, findFolded?_cons]
    by_cases found : lowercase key = name
    · -- no later entry has the key again
      have absent : findFolded? name es = none := findFolded?_eq_none (found ▸ distinct.1)
      rw [absent, if_pos found, set_eq_replace (flat _ List.mem_cons_self), lookup_replace,
        if_pos found]
      rfl
    · rw [if_neg found, lookup_set_of_ne found]

theorem isTable_set (root : Value) (key : Key) (value : Value) :
    (root.set key value).isTable = true := by
  cases value with
  | scalar => rw [set]; rfl
  | array => rw [set]; rfl
  | table => rw [set]; rfl

theorem isTable_setAll (h : target.isTable = true) (es : List (Key × Value)) :
    (setAll target es).isTable = true := by
  induction es generalizing target with
  | nil => exact h
  | cons e es ih =>
    rw [setAll]
    exact ih (isTable_set target e.1 e.2)

/-! ## Fields -/

/-- The value of a field in the tree. -/
def field? (root : Value) (field : Field) : Option Value :=
  (root.entries.lookup field.table).bind fun inner => inner.entries.lookup field.name

/-- The tables that a configuration is read from are there. -/
def HasMainTables (root : Value) : Prop :=
  ∀ name ∈ mainTables, ∃ inner, root.entries.lookup name = some inner ∧ inner.isTable = true

/-- The second tree is the first one with some fields given a value. -/
structure Writes (root root' : Value) (written : Field → Option Value) : Prop where
  tables : root'.HasMainTables
  field : ∀ field, field.table ∈ mainTables → root'.field? field =
    (written field).or (root.field? field)

theorem Writes.refl (tables : root.HasMainTables) : root.Writes root fun _ => none :=
  ⟨tables, fun _ _ => rfl⟩

/-- Of two values for a field the later one wins. -/
theorem Writes.trans {root' root'' : Value} {w w' : Field → Option Value}
    (h : root.Writes root' w) (h' : root'.Writes root'' w') :
    root.Writes root'' fun field => (w' field).or (w field) := by
  refine ⟨h'.tables, fun field mem => ?_⟩
  rw [h'.field field mem, h.field field mem, Option.or_assoc]

theorem Writes.congr {root' : Value} {w w' : Field → Option Value} (h : root.Writes root' w)
    (same : ∀ field, field.table ∈ mainTables → w field = w' field) : root.Writes root' w' :=
  ⟨h.tables, fun field mem => same field mem ▸ h.field field mem⟩

/-- A change that concerns none of the two tables writes no field. -/
theorem writes_of_lookup {root' : Value} (tables : root.HasMainTables)
    (same : ∀ name ∈ mainTables, root'.entries.lookup name = root.entries.lookup name) :
    root.Writes root' fun _ => none := by
  constructor
  · intro name mem
    rw [same name mem]
    exact tables name mem
  · intro field mem
    rw [field?, same field.table mem]
    rfl

/-- A change in one of the two tables writes the fields of that table. -/
theorem writes_replace {inner : Value} {w : Key → Option Value} (tables : root.HasMainTables)
    (table : inner.isTable = true)
    (values : ∀ name, inner.entries.lookup name = (w name).or
      (root.field? ⟨lowercase key, name⟩)) :
    root.Writes (root.replace key inner) fun field =>
      if lowercase key = field.table then w field.name else none := by
  constructor
  · intro name mem
    rw [lookup_replace]
    by_cases here : lowercase key = name
    · rw [if_pos here]
      exact ⟨inner, rfl, table⟩
    · rw [if_neg here]
      exact tables name mem
  · intro field mem
    rw [field?, lookup_replace]
    by_cases here : lowercase key = field.table
    · rw [if_pos here, if_pos here, Option.bind_some, values field.name, here]
    · rw [if_neg here, if_neg here]
      rfl

/-- A table merged into one of the two tables writes the fields that it has. -/
theorem writes_set_table {origin : Origin} (tables : root.HasMainTables)
    (mem : lowercase key ∈ mainTables) (distinct : (es.map fun e => lowercase e.1).Nodup)
    (flat : ∀ e ∈ es, e.2.isTable = false) :
    root.Writes (root.set key (.table origin es)) fun field =>
      if lowercase key = field.table then findFolded? field.name es else none := by
  obtain ⟨target, found, table⟩ := tables _ mem
  have values : ∀ name, (setAll target es).entries.lookup name =
      (findFolded? name es).or (root.field? ⟨lowercase key, name⟩) := by
    intro name
    rw [lookup_setAll distinct flat, field?, found, Option.bind_some]
  rw [set_table, found, Option.getD_some]
  exact writes_replace (w := (findFolded? · es)) tables (isTable_setAll table es) values

/-- Some changes in a row write what the last one of them to write a field writes to it. -/
theorem exists_foldlM_writes {m : Type → Type} [Monad m] [LawfulMonad m] {α : Type}
    (change : Value → α → m Value) {written : α → Field → Option Value} {l : List α}
    (each : ∀ a ∈ l, ∀ root : Value, root.HasMainTables →
      ∃ root', change root a = pure root' ∧ root.Writes root' (written a))
    {root : Value} (tables : root.HasMainTables) :
    ∃ root', l.foldlM change root = pure root' ∧
      root.Writes root' fun field => (l.filterMap (written · field)).getLast? := by
  induction l generalizing root with
  | nil => exact ⟨root, rfl, .refl tables⟩
  | cons a l ih =>
    obtain ⟨root₁, first, writes⟩ := each a List.mem_cons_self root tables
    obtain ⟨root₂, more, writes'⟩ :=
      ih (fun b mem => each b (List.mem_cons_of_mem a mem)) writes.tables
    refine ⟨root₂, by rw [List.foldlM_cons, first, pure_bind, more], writes'.tables, ?_⟩
    intro field mem
    rw [(writes.trans writes').field field mem, List.filterMap_cons]
    cases written a field with
    | none => simp
    | some value =>
      rw [List.getLast?_cons]
      cases (l.filterMap (written · field)).getLast? <;> rfl

end Value

end Settings
end FancyTokens
