import RecordQuery.Proofs.FirstError
import RecordQuery.Proofs.Value.Typing
import RecordQuery.Record.Basic
import RecordQuery.Sql.Names

/-!
# The tables of a schema

Three tables are made from the fields of a schema: of mappers, of getters, and of columns. Each is
made on its own, but they are asked for the same names. This file says what each of them holds for a
name in terms of the one field that the schema declares under it, if the schema has mappers at all.

## Main results

* `Schema.mappers_eq_ok_iff`: there are mappers if no two fields share a name
* `Schema.find?_mappers`, `Schema.find?_getters`, `Schema.find?_names`: what the tables hold
* `Schema.read_of_map`, `Schema.isReading_of_map`: how literals of fields are mapped
-/

namespace RecordQuery

/-! ## Making a table of readers -/

theorem Mappers.add_eq_ok_iff {table mappers : Mappers} {readers : List FieldReader} :
    Mappers.add table readers = .ok mappers ↔
      (∀ r ∈ readers, r.name ∉ table.keys) ∧ (readers.map FieldReader.name).Nodup ∧
        (readers.map fun r => (r.name, r)).foldl (fun t e => t.insert e.1 e.2) table = mappers := by
  induction readers generalizing table with
  | nil => simp [Mappers.add]
  | cons r later ih =>
    rw [Mappers.add]
    split
    · next h =>
      refine iff_of_false (by simp) fun ⟨hfresh, _⟩ => hfresh r List.mem_cons_self ?_
      exact (table.isSome_find?_iff r.name).1 h
    · next h =>
      rw [table.isSome_find?_iff] at h
      rw [ih, Table.keys_insert_of_not_mem h]
      simp only [List.mem_append, List.mem_singleton, not_or, List.forall_mem_cons, List.map_cons,
        List.nodup_cons, List.mem_map, List.foldl_cons]
      constructor
      · rintro ⟨hfresh, hnodup, heq⟩
        refine ⟨⟨h, fun x hx => (hfresh x hx).1⟩, ⟨?_, hnodup⟩, heq⟩
        rintro ⟨x, hx, hname⟩
        exact (hfresh x hx).2 hname
      · rintro ⟨⟨-, hfresh⟩, ⟨hname, hnodup⟩, heq⟩
        exact ⟨fun x hx => ⟨hfresh x hx, fun heq => hname ⟨x, hx, heq⟩⟩, hnodup, heq⟩

theorem Mappers.ofList_eq_ok_iff {mappers : Mappers} {readers : List FieldReader} :
    Mappers.ofList readers = .ok mappers ↔
      (readers.map FieldReader.name).Nodup ∧
        Table.ofList (readers.map fun r => (r.name, r)) = mappers := by
  rw [Mappers.ofList, Mappers.add_eq_ok_iff]
  simp [Table.ofList, Table.keys, Table.empty]

namespace Schema

variable {s : Schema}

/-- The backend in memory for the records of a schema. -/
abbrev memory (s : Schema) (engine : Wildcard.Engine := .unlimited) :
    Backend Id (Predicate Record) :=
  Memory.backend (Record.getters s) engine

/-- **There are mappers if no two fields share a name.** -/
theorem mappers_eq_ok_iff {mappers : Mappers} :
    s.mappers = .ok mappers ↔
      (s.fields.map FieldSpec.name).Nodup ∧
        Table.ofList (s.fields.map fun f => (f.name, (Mapper.mk f.name f.type).reader)) =
          mappers := by
  rw [Schema.mappers, Mappers.ofList_eq_ok_iff, List.map_map, List.map_map]
  rfl

theorem nodup_of_mappers {mappers : Mappers} (h : s.mappers = .ok mappers) :
    (s.fields.map FieldSpec.name).Nodup :=
  (mappers_eq_ok_iff.1 h).1

theorem exists_mappers_iff :
    (∃ mappers, s.mappers = .ok mappers) ↔ (s.fields.map FieldSpec.name).Nodup :=
  ⟨fun ⟨_, h⟩ => nodup_of_mappers h, fun h => ⟨_, mappers_eq_ok_iff.2 ⟨h, rfl⟩⟩⟩

/-! ## What the tables hold -/

theorem field?_of_mem (h : (s.fields.map FieldSpec.name).Nodup) {field : FieldSpec}
    (hmem : field ∈ s.fields) : s.field? field.name = some field := by
  unfold field?
  generalize s.fields = fields at h hmem
  induction fields with
  | nil => cases hmem
  | cons f later ih =>
    rw [List.map_cons, List.nodup_cons] at h
    rcases List.mem_cons.1 hmem with rfl | hmem
    · simp
    · have hne : f.name ≠ field.name := fun e => h.1 (e ▸ List.mem_map_of_mem hmem)
      rw [List.find?_cons_of_neg (by simpa using hne), ih h.2 hmem]

theorem lookup_map_fields {α : Type} (fields : List FieldSpec) (value : FieldSpec → α)
    (name : Text) :
    (fields.map fun f => (f.name, value f)).lookup name =
      (fields.find? fun f => f.name = name).map value := by
  induction fields with
  | nil => rfl
  | cons f later ih =>
    rw [List.map_cons, List.lookup_cons, List.find?_cons, ih]
    by_cases h : f.name = name
    · simp [h]
    · simp [h, show (name == f.name) = false by simpa using fun e => h e.symm]

theorem find?_ofList_map_fields {α : Type} (h : (s.fields.map FieldSpec.name).Nodup)
    (value : FieldSpec → α) (name : Text) :
    (Table.ofList (s.fields.map fun f => (f.name, value f))).find? name =
      (s.field? name).map value := by
  rw [Table.find?_ofList (by rwa [List.map_map]), lookup_map_fields, field?]

theorem find?_mappers {mappers : Mappers} (h : s.mappers = .ok mappers) (name : Text) :
    mappers.find? name = (s.field? name).map fun f => (Mapper.mk f.name f.type).reader := by
  obtain ⟨hnodup, rfl⟩ := mappers_eq_ok_iff.1 h
  exact find?_ofList_map_fields hnodup _ name

theorem find?_getters (h : (s.fields.map FieldSpec.name).Nodup) (name : Text) :
    (Record.getters s).find? name =
      (s.field? name).map fun _ record => Record.get record name := by
  rw [Record.getters, find?_ofList_map_fields h fun f record => Record.get record f.name]
  cases hf : s.field? name with
  | none => rfl
  | some f =>
    obtain rfl : f.name = name := by simpa using List.find?_some hf
    rfl

theorem find?_getters_of_field? (h : (s.fields.map FieldSpec.name).Nodup) {name : Text}
    {f : FieldSpec} (hf : s.field? name = some f) :
    (Record.getters s).find? name = some fun record => Record.get record name := by
  rw [find?_getters h, hf, Option.map_some]

theorem find?_getters_eq_none (h : (s.fields.map FieldSpec.name).Nodup) {name : Text}
    (hf : s.field? name = none) : (Record.getters s).find? name = none := by
  rw [find?_getters h, hf, Option.map_none]

theorem find?_names (h : (s.fields.map FieldSpec.name).Nodup) (name : Text) :
    (Sql.Names.ofSchema s).find? name =
      (s.field? name).map fun f => f.column.getD (Sql.columnName f.name) :=
  find?_ofList_map_fields h _ name

/-! ## Mapping literals -/

theorem map_of_field? {mappers : Mappers} (h : s.mappers = .ok mappers) {field : Text}
    {f : FieldSpec} (hf : s.field? field = some f) (literal : Text) :
    Mappers.map mappers field literal = (Mapper.mk field f.type).map literal := by
  obtain rfl : f.name = field := by simpa using List.find?_some hf
  rw [Mappers.map, find?_mappers h, hf]
  exact Mapper.map_reader _ literal

theorem map_of_field?_eq_none {mappers : Mappers} (h : s.mappers = .ok mappers) {field : Text}
    (hf : s.field? field = none) (literal : Text) :
    Mappers.map mappers field literal = .ok (.string literal) := by
  refine Mappers.map_of_find?_eq_none ?_ literal
  rw [find?_mappers h, hf]
  rfl

theorem read_of_map {mappers : Mappers} (h : s.mappers = .ok mappers) {field literal : Text}
    {f : FieldSpec} {v : Value} (hf : s.field? field = some f)
    (hmap : Mappers.map mappers field literal = .ok v) : f.type.read literal = .ok v := by
  rw [map_of_field? h hf, Mapper.map] at hmap
  split at hmap
  · next hread =>
    obtain rfl := Except.ok.inj hmap
    exact hread
  · cases hmap

theorem isReading_of_map {mappers : Mappers} (h : s.mappers = .ok mappers) {field literal : Text}
    {e : MappingError} (hmap : Mappers.map mappers field literal = .error e) :
    e.cause.IsReading := by
  cases hf : s.field? field with
  | none => simp [map_of_field?_eq_none h hf] at hmap
  | some f =>
    rw [map_of_field? h hf, Mapper.map] at hmap
    split at hmap
    · cases hmap
    · next hread =>
      obtain rfl := Except.error.inj hmap
      exact ValueType.isReading_of_read hread

theorem isReading_of_mapLiterals {mappers : Mappers} (h : s.mappers = .ok mappers) {field : Text}
    {literals : List Text} {e : MappingError}
    (hmap : mapLiterals mappers field literals = .error e) :
    e.cause.IsReading := by
  obtain ⟨i, ⟨literal, -, hliteral⟩, -⟩ := mapLiterals_eq_error_iff.1 hmap
  exact isReading_of_map h hliteral

end Schema

end RecordQuery
