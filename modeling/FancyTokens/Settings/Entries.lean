/-!
# Entries

A list of keys with their values. A value that is put under a key takes the place of the one that
the key has, and a new key comes last, so a key that there is only once stays so (`nodup_put`). What
is found under a key is the value that was put there last (`lookup_put`).
-/
namespace FancyTokens
namespace Settings
namespace Entries

variable {α β : Type} [DecidableEq α] {key k : α} {entries : List (α × β)} {e : α × β}

/-- The entries with another value for a key; a new key comes last. -/
def put (key : α) (value : β) : List (α × β) → List (α × β)
  | [] => [(key, value)]
  | (k, old) :: entries =>
    if k = key then (key, value) :: entries else (k, old) :: put key value entries

/-! ## Looking up -/

section Lookup

variable [BEq α] [LawfulBEq α]

theorem lookup_cons (k : α) (e : α × β) (entries : List (α × β)) :
    (e :: entries).lookup k = if e.1 = k then some e.2 else entries.lookup k := by
  rw [List.lookup_cons]
  by_cases here : e.1 = k
  · rw [if_pos here, beq_iff_eq.2 here.symm]
  · rw [if_neg here, beq_eq_false_iff_ne.2 (Ne.symm here)]

omit [DecidableEq α] in
theorem mem_of_lookup {value : β} (h : entries.lookup key = some value) :
    (key, value) ∈ entries := by
  obtain ⟨before, after, rfl, -⟩ := List.lookup_eq_some_iff.1 h
  exact List.mem_append_right before List.mem_cons_self

theorem lookup_put (key k : α) (value : β) (entries : List (α × β)) :
    (put key value entries).lookup k = if key = k then some value else entries.lookup k := by
  induction entries with
  | nil => exact lookup_cons k (key, value) []
  | cons e entries ih =>
    obtain ⟨k', old⟩ := e
    rw [put]
    by_cases same : k' = key
    · rw [if_pos same, lookup_cons, lookup_cons, same]
      split <;> rfl
    · rw [if_neg same, lookup_cons, lookup_cons, ih]
      by_cases here : k' = k
      · -- the key that has been put is another one
        rw [if_pos here, if_pos here, if_neg fun there => same (here.trans there.symm)]
      · rw [if_neg here, if_neg here]

end Lookup

/-! ## Entries and keys -/

theorem key_eq_or_mem_of_mem_put {value : β} (mem : e ∈ put key value entries) :
    e.1 = key ∨ e ∈ entries := by
  induction entries with
  | nil =>
    rw [put, List.mem_singleton] at mem
    exact .inl (mem ▸ rfl)
  | cons d entries ih =>
    obtain ⟨k, old⟩ := d
    rw [put] at mem
    by_cases same : k = key
    · rw [if_pos same, List.mem_cons] at mem
      obtain rfl | mem := mem
      · exact .inl rfl
      · exact .inr (List.mem_cons_of_mem _ mem)
    · rw [if_neg same, List.mem_cons] at mem
      obtain rfl | mem := mem
      · exact .inr List.mem_cons_self
      · exact (ih mem).imp_right (List.mem_cons_of_mem _)

theorem key_mem_put (key : α) (value : β) (entries : List (α × β)) :
    key ∈ (put key value entries).map Prod.fst := by
  induction entries with
  | nil => exact List.mem_cons_self
  | cons e entries ih =>
    rw [put]
    split
    · exact List.mem_cons_self
    · exact List.mem_cons_of_mem _ ih

/-- No key is lost. -/
theorem mem_keys_put (mem : k ∈ entries.map Prod.fst) (key : α) (value : β) :
    k ∈ (put key value entries).map Prod.fst := by
  induction entries with
  | nil => cases mem
  | cons e entries ih =>
    rw [put]
    rw [List.map_cons, List.mem_cons] at mem
    split
    · next here =>
      obtain rfl | mem := mem
      · rw [here]
        exact List.mem_cons_self
      · exact List.mem_cons_of_mem _ mem
    · exact List.mem_cons.2 (mem.imp_right ih)

theorem nodup_put (distinct : (entries.map Prod.fst).Nodup) (key : α) (value : β) :
    ((put key value entries).map Prod.fst).Nodup := by
  induction entries with
  | nil => exact List.nodup_cons.2 ⟨List.not_mem_nil, List.nodup_nil⟩
  | cons e entries ih =>
    rw [List.map_cons, List.nodup_cons] at distinct
    rw [put]
    split
    · next here =>
      rw [List.map_cons, List.nodup_cons, ← here]
      exact distinct
    · next other =>
      rw [List.map_cons, List.nodup_cons]
      refine ⟨fun mem => ?_, ih distinct.2⟩
      obtain ⟨d, mem, same⟩ := List.mem_map.1 mem
      obtain here | mem := key_eq_or_mem_of_mem_put mem
      · exact other (same.symm.trans here)
      · exact distinct.1 (same ▸ List.mem_map_of_mem mem)

/-! ## One value after another -/

/-- Of two values put under one key the later one is left. -/
theorem put_put (key : α) (old new : β) (entries : List (α × β)) :
    put key new (put key old entries) = put key new entries := by
  induction entries with
  | nil => exact if_pos rfl
  | cons e entries ih =>
    rw [put, put]
    split
    · exact if_pos rfl
    · next other => rw [put, if_neg other, ih]

/-- A value for a key that there is already does not move the others. -/
theorem put_comm_of_mem (mem : key ∈ entries.map Prod.fst) (other : k ≠ key) (v w : β) :
    put key v (put k w entries) = put k w (put key v entries) := by
  induction entries with
  | nil => cases mem
  | cons e entries ih =>
    obtain ⟨k', x⟩ := e
    by_cases here : k' = key
    · subst here
      simp only [put, if_neg other.symm, if_true]
    · have later := ih (List.mem_of_ne_of_mem (Ne.symm here) mem)
      by_cases there : k' = k
      · subst there
        simp only [put, if_neg here, if_true]
      · simp only [put, if_neg here, if_neg there, later]

end Entries
end Settings
end FancyTokens
