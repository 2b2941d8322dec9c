import RecordQuery.Text.Basic

/-!
# Tables

A table gives a value to each of finitely many names. It keeps its entries in the order in which
their names were first given; a name that is given again takes the new value and keeps its place.

## Main results

* `Table.find?_insert`: what a table holds after an insertion
* `Table.keys_insert`: an insertion adds its name once
* `Table.find?_ofList`, `Table.keys_ofList`: what the table of a list holds, and its names, if no
  name is in the list twice
-/

namespace RecordQuery

/-- Values under names, no name twice. -/
structure Table (α : Type) where
  entries : List (Text × α)
  nodup : (entries.map Prod.fst).Nodup

namespace Table

variable {α : Type}

/-- The table without entries. -/
def empty : Table α := ⟨[], by simp⟩

instance : Inhabited (Table α) := ⟨empty⟩

/-- The names of a table. -/
def keys (t : Table α) : List Text := t.entries.map Prod.fst

/-- The number of names. -/
def size (t : Table α) : Nat := t.entries.length

/-- The value of a name. -/
def find? (t : Table α) (name : Text) : Option α := t.entries.lookup name

/-! ## Insertion -/

/-- Entries with a value put under a name. -/
def put (name : Text) (value : α) : List (Text × α) → List (Text × α)
  | [] => [(name, value)]
  | (n, v) :: later => if n = name then (name, value) :: later else (n, v) :: put name value later

theorem map_fst_put (name : Text) (value : α) (entries : List (Text × α)) :
    (put name value entries).map Prod.fst =
      if name ∈ entries.map Prod.fst then entries.map Prod.fst
      else entries.map Prod.fst ++ [name] := by
  induction entries with
  | nil => simp [put]
  | cons e later ih =>
    obtain ⟨n, v⟩ := e
    simp only [put]
    split
    · next h => simp [h]
    · next h =>
      have h' : ¬ name = n := fun e => h e.symm
      simp only [List.map_cons, ih, List.mem_cons, h', false_or]
      split <;> simp

theorem lookup_put (name : Text) (value : α) (entries : List (Text × α)) (other : Text) :
    (put name value entries).lookup other =
      if other = name then some value else entries.lookup other := by
  induction entries with
  | nil =>
    rw [put, List.lookup_cons]
    by_cases h : other = name
    · simp [h]
    · simp [h, show (other == name) = false by simpa using h]
  | cons e later ih =>
    obtain ⟨n, v⟩ := e
    simp only [put]
    split
    · next h =>
      rw [List.lookup_cons, List.lookup_cons, h]
      by_cases h' : other = name
      · simp [h']
      · simp [h', show (other == name) = false by simpa using h']
    · next h =>
      rw [List.lookup_cons, List.lookup_cons]
      by_cases h' : other = n
      · have : ¬ other = name := fun e => h (h'.symm.trans e)
        simp [h', h]
      · simp [show (other == n) = false by simpa using h', ih]

/-- The table with a value put under a name. -/
def insert (t : Table α) (name : Text) (value : α) : Table α where
  entries := put name value t.entries
  nodup := by
    rw [map_fst_put]
    split
    · exact t.nodup
    · next h =>
      rw [List.nodup_append]
      exact ⟨t.nodup, by simp, by
        intro a ha b hb hab
        rw [List.mem_singleton] at hb
        exact h (hb ▸ hab ▸ ha)⟩

/-- The table of a list of entries, the last one of each name. -/
def ofList (entries : List (Text × α)) : Table α :=
  entries.foldl (fun t e => t.insert e.1 e.2) empty

@[simp] theorem find?_empty (name : Text) : (empty : Table α).find? name = none := rfl

theorem find?_insert (t : Table α) (name : Text) (value : α) (other : Text) :
    (t.insert name value).find? other = if other = name then some value else t.find? other :=
  lookup_put name value t.entries other

theorem keys_insert (t : Table α) (name : Text) (value : α) :
    (t.insert name value).keys = if name ∈ t.keys then t.keys else t.keys ++ [name] :=
  map_fst_put name value t.entries

theorem keys_insert_of_not_mem {t : Table α} {name : Text} (h : name ∉ t.keys) (value : α) :
    (t.insert name value).keys = t.keys ++ [name] := by
  rw [keys_insert, if_neg h]

theorem isSome_find?_iff (t : Table α) (name : Text) :
    (t.find? name).isSome = true ↔ name ∈ t.keys := by
  rw [← Option.ne_none_iff_isSome, find?, keys, ne_eq, List.lookup_eq_none_iff, List.mem_map]
  simp

theorem find?_foldl_insert (entries : List (Text × α)) (t : Table α) (name : Text)
    (h : (entries.map Prod.fst).Nodup) :
    (entries.foldl (fun t e => t.insert e.1 e.2) t).find? name =
      (entries.lookup name).or (t.find? name) := by
  induction entries generalizing t with
  | nil => rfl
  | cons e later ih =>
    obtain ⟨n, v⟩ := e
    rw [List.map_cons, List.nodup_cons] at h
    rw [List.foldl_cons, ih _ h.2, find?_insert, List.lookup_cons]
    by_cases hn : name = n
    · subst hn
      have hnone : later.lookup name = none := by
        rw [List.lookup_eq_none_iff]
        intro e he
        have hne : name ≠ e.1 := fun heq => h.1 (List.mem_map.2 ⟨e, he, heq.symm⟩)
        simpa using hne
      simp [hnone]
    · simp [hn, show (name == n) = false by simpa using hn]

theorem find?_ofList {entries : List (Text × α)} (h : (entries.map Prod.fst).Nodup)
    (name : Text) : (ofList entries).find? name = entries.lookup name := by
  rw [ofList, find?_foldl_insert entries empty name h, find?_empty, Option.or_none]

theorem keys_foldl_insert (entries : List (Text × α)) (t : Table α)
    (h : (t.keys ++ entries.map Prod.fst).Nodup) :
    (entries.foldl (fun t e => t.insert e.1 e.2) t).keys = t.keys ++ entries.map Prod.fst := by
  induction entries generalizing t with
  | nil => simp
  | cons e later ih =>
    have hfresh : e.1 ∉ t.keys := fun hmem =>
      (List.nodup_append.1 h).2.2 _ hmem _ List.mem_cons_self rfl
    have hassoc : t.keys ++ (e :: later).map Prod.fst =
        (t.insert e.1 e.2).keys ++ later.map Prod.fst := by
      rw [keys_insert_of_not_mem hfresh, List.append_assoc]
      rfl
    rw [hassoc] at h ⊢
    exact ih _ h

theorem keys_ofList {entries : List (Text × α)} (h : (entries.map Prod.fst).Nodup) :
    (ofList entries).keys = entries.map Prod.fst :=
  keys_foldl_insert entries empty h

@[simp] theorem length_keys (t : Table α) : t.keys.length = t.size := by simp [keys, size]

end Table

end RecordQuery
