import Mathlib.Data.List.Nodup
import RecordQuery.Table

/-!
# Tables with the same entries

A table keeps its names in the order in which they came, and nothing that is asked of it depends on
that order. So tables are compared by their entries (`Table.SameEntries`), and this comes down to
comparing what they hold for each name.

## Main results

* `Table.sameEntries_iff`: tables have the same entries if they hold the same for each name
* `Table.mem_keys_ofList`: the table of a list has the names of the list
* `Table.find?_ofList_of_perm`: the order of a list does not matter if no name is in it twice
-/

namespace RecordQuery

namespace Table

variable {α : Type} {t u : Table α} {entries : List (Text × α)}

/-- Two tables hold the same entries, in whatever order the names were given. -/
def SameEntries (t u : Table α) : Prop := t.entries.Perm u.entries

theorem lookup_eq_some_iff_mem (h : (entries.map Prod.fst).Nodup) {name : Text} {value : α} :
    entries.lookup name = some value ↔ (name, value) ∈ entries := by
  induction entries with
  | nil => simp
  | cons e later ih =>
    obtain ⟨n, v⟩ := e
    obtain ⟨hn, hlater⟩ := List.nodup_cons.1 h
    rw [List.lookup_cons, List.mem_cons]
    by_cases heq : name = n
    · subst heq
      have hnot : (name, value) ∉ later := fun hmem => hn (List.mem_map.2 ⟨_, hmem, rfl⟩)
      simp [hnot, eq_comm]
    · simp [heq, show (name == n) = false by simpa using heq, ih hlater]

theorem find?_eq_some_iff_mem {name : Text} {value : α} :
    t.find? name = some value ↔ (name, value) ∈ t.entries :=
  lookup_eq_some_iff_mem t.nodup

/-- **Tables have the same entries if they hold the same for each name.** -/
theorem sameEntries_iff : t.SameEntries u ↔ ∀ name, t.find? name = u.find? name := by
  have hentries : t.SameEntries u ↔ ∀ e, e ∈ t.entries ↔ e ∈ u.entries :=
    List.perm_ext_iff_of_nodup t.nodup.of_map u.nodup.of_map
  rw [hentries]
  constructor
  · intro h name
    ext value
    rw [find?_eq_some_iff_mem, find?_eq_some_iff_mem]
    exact h (name, value)
  · rintro h ⟨name, value⟩
    rw [← find?_eq_some_iff_mem, ← find?_eq_some_iff_mem, h name]

theorem mem_keys_foldl_insert (entries : List (Text × α)) (t : Table α) (name : Text) :
    name ∈ (entries.foldl (fun t e => t.insert e.1 e.2) t).keys ↔
      name ∈ t.keys ∨ name ∈ entries.map Prod.fst := by
  induction entries generalizing t with
  | nil => simp
  | cons e later ih =>
    have hinsert : name ∈ (t.insert e.1 e.2).keys ↔ name ∈ t.keys ∨ name = e.1 := by
      rw [keys_insert]
      split
      · next h => exact ⟨.inl, fun hname => hname.elim id fun heq => heq ▸ h⟩
      · rw [List.mem_append, List.mem_singleton]
    rw [List.foldl_cons, ih, hinsert, List.map_cons, List.mem_cons, or_assoc]

/-- The table of a list has the names of the list. -/
theorem mem_keys_ofList {name : Text} :
    name ∈ (ofList entries).keys ↔ name ∈ entries.map Prod.fst := by
  rw [ofList, mem_keys_foldl_insert]
  simp [keys, empty]

theorem find?_ofList_eq_none_iff {name : Text} :
    (ofList entries).find? name = none ↔ name ∉ entries.map Prod.fst := by
  rw [← mem_keys_ofList, ← isSome_find?_iff, Option.not_isSome_iff_eq_none]

/-- For names that are not repeated, the order of a list does not matter to its table. -/
theorem find?_ofList_of_perm {entries' : List (Text × α)} (hperm : entries.Perm entries')
    (h : (entries'.map Prod.fst).Nodup) (name : Text) :
    (ofList entries).find? name = entries'.lookup name := by
  have hentries : (entries.map Prod.fst).Nodup := (hperm.map Prod.fst).nodup_iff.2 h
  ext value
  rw [find?_ofList hentries, lookup_eq_some_iff_mem hentries, lookup_eq_some_iff_mem h,
    hperm.mem_iff]

end Table

end RecordQuery
