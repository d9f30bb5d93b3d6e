import Mathlib.Data.List.Basic

/-! # Tables

Registries and file trees are kept as tables: keys with their values, in the order they first came. A
value is set in the place of the one its key had, or behind all others. Looked up, only this key has
changed, and set twice, a key has its latest value.

* **`Table.put`** — a value set;
* **`Table.put_put`** — a value set twice;
* **`Table.lookup_put`** — what is found afterwards;
* **`Table.eq_of_lookup`** — tables with the same keys and values. -/

namespace ScriptBundle.Table

variable {α β : Type}

section Put

variable [DecidableEq α] {table : List (α × β)} {key : α} {value later : β}

/-- The entries of a key with another value. -/
def replace (table : List (α × β)) (key : α) (value : β) : List (α × β) :=
  table.map fun entry => if entry.1 = key then (key, value) else entry

/-- **A value set for a key**: in the place of the one it had, or behind all others. -/
def put (table : List (α × β)) (key : α) (value : β) : List (α × β) :=
  if key ∈ table.map (·.1) then replace table key value else table ++ [(key, value)]

/-- The keys of a replaced value stay. -/
theorem map_fst_replace : (replace table key value).map (·.1) = table.map (·.1) := by
  rw [replace, List.map_map]
  refine List.map_congr_left fun entry _ => ?_
  by_cases same : entry.1 = key
  · simp [same]
  · simp [same]

/-- Replaced twice, a value is the latest. -/
theorem replace_replace : replace (replace table key value) key later = replace table key later := by
  rw [replace, replace, replace, List.map_map]
  refine List.map_congr_left fun entry _ => ?_
  by_cases same : entry.1 = key
  · simp [same]
  · simp [same]

/-- A key that is missing has nothing to replace. -/
theorem replace_of_notMem (absent : key ∉ table.map (·.1)) : replace table key value = table := by
  rw [replace]
  refine (List.map_congr_left fun entry hentry => ?_).trans (List.map_id table)
  exact if_neg fun same => absent (List.mem_map.mpr ⟨entry, hentry, same⟩)

/-- **Set twice, a key has its latest value.** -/
theorem put_put (table : List (α × β)) (key : α) (value later : β) :
    put (put table key value) key later = put table key later := by
  by_cases present : key ∈ table.map (·.1)
  · have kept : key ∈ (replace table key value).map (·.1) := by rwa [map_fst_replace]
    rw [put, put, if_pos present, put, if_pos kept, if_pos present, replace_replace]
  · have last : key ∈ (table ++ [(key, value)]).map (·.1) := by simp
    rw [put, put, if_neg present, put, if_pos last, if_neg present, replace, List.map_append,
      ← replace, replace_of_notMem present]
    simp

end Put

section Lookup

variable [BEq α] [LawfulBEq α] [DecidableEq α] {table : List (α × β)} {key k : α} {value : β}

/-- A table with an entry in front. -/
theorem lookup_entry_cons (key : α) (value : β) (rest : List (α × β)) :
    ((key, value) :: rest).lookup k = if k = key then some value else rest.lookup k := by
  rw [List.lookup_cons]
  by_cases same : k = key
  · simp [same]
  · rw [beq_false_of_ne same, if_neg same]

/-- A `table` has a value exactly for its keys. -/
theorem lookup_ne_none_iff : table.lookup k ≠ none ↔ k ∈ table.map (·.1) := by
  induction table with
  | nil => simp
  | cons entry rest ih =>
      obtain ⟨key, value⟩ := entry
      rw [lookup_entry_cons, List.map_cons, List.mem_cons, ← ih]
      by_cases same : k = key
      · simp [same]
      · simp [same]

/-- A replaced value is found, and all others stay. -/
theorem lookup_replace : (replace table key value).lookup k =
    if k = key then (table.lookup k).map fun _ => value else table.lookup k := by
  unfold replace
  induction table with
  | nil => simp
  | cons entry rest ih =>
      obtain ⟨first, old⟩ := entry
      rw [List.map_cons, lookup_entry_cons]
      by_cases replaced : first = key
      · rw [if_pos replaced, lookup_entry_cons, ih, replaced]
        by_cases same : k = key
        · simp [same]
        · simp [same]
      · rw [if_neg replaced, lookup_entry_cons, ih]
        by_cases same : k = first
        · simp [same, replaced]
        · simp [same]

/-- **A value that was set** is found for its key, and all other keys have what they had. -/
theorem lookup_put (table : List (α × β)) (key : α) (value : β) (k : α) :
    (put table key value).lookup k = if k = key then some value else table.lookup k := by
  by_cases present : key ∈ table.map (·.1)
  · obtain ⟨old, found⟩ := Option.ne_none_iff_exists'.mp (lookup_ne_none_iff.mpr present)
    rw [put, if_pos present, lookup_replace]
    by_cases same : k = key
    · simp [same, found]
    · simp [same]
  · have free : table.lookup key = none := by
      by_contra found
      exact present (lookup_ne_none_iff.mp found)
    rw [put, if_neg present, List.lookup_append, lookup_entry_cons]
    by_cases same : k = key
    · simp [same, free]
    · simp [same]

/-- The keys of a `table` with a value set. -/
theorem mem_map_fst_put : k ∈ (put table key value).map (·.1) ↔ k = key ∨ k ∈ table.map (·.1) := by
  rw [← lookup_ne_none_iff, ← lookup_ne_none_iff, lookup_put]
  by_cases same : k = key
  · simp [same]
  · simp [same]

/-- **A `table` is told by its keys and its values**, if each key comes once. -/
theorem eq_of_lookup {other : List (α × β)} (distinct : (table.map (·.1)).Nodup)
    (keys : other.map (·.1) = table.map (·.1)) (values : ∀ k, other.lookup k = table.lookup k) :
    other = table := by
  induction table generalizing other with
  | nil => exact List.map_eq_nil_iff.mp keys
  | cons entry rest ih =>
      obtain ⟨key, value⟩ := entry
      obtain ⟨⟨first, changed⟩, others, rfl, same, follow⟩ := List.map_eq_cons_iff.mp keys
      obtain rfl : first = key := same
      obtain ⟨once, apart⟩ := List.nodup_cons.mp distinct
      have found := values first
      rw [lookup_entry_cons, lookup_entry_cons, if_pos rfl, if_pos rfl] at found
      obtain rfl := Option.some.inj found
      refine congrArg ((first, changed) :: ·) (ih apart follow fun k => ?_)
      by_cases same : k = first
      · -- this key comes in neither rest
        have absent (table : List (α × β)) (once : first ∉ table.map (·.1)) :
            table.lookup first = none := not_not.mp (mt lookup_ne_none_iff.mp once)
        rw [same, absent rest once, absent others (follow ▸ once)]
      · have later := values k
        rwa [lookup_entry_cons, lookup_entry_cons, if_neg same, if_neg same] at later

end Lookup

end ScriptBundle.Table
