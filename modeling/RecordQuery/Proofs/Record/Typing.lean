import RecordQuery.Proofs.Query.Grammar
import RecordQuery.Proofs.Record.Fields
import RecordQuery.Proofs.Schema.Tables

/-!
# Loaded records are of their schema

A row becomes a record field by field, in the order of the schema, and every field is put under its
own name. Since the schema names no field twice, nothing is put over a value that is there already,
so a record has the names of the schema in their order, and what was loaded last for a field is what
was loaded for it.

A value comes from a string, which is read as a literal, from a truth value, or from a number. On
each of these ways it is of the field's type; the only other value is `null`.

## Main results

* `FieldSpec.fits_of_load`: what is loaded for a field is `null` or of its type
* `Record.fits_of_ofRows`: loaded records are of their schema
-/

namespace RecordQuery

/-- A field of the type may hold the value, or the value is missing. -/
def Value.Fits (v : Value) (type : ValueType) : Prop := v = .null ∨ v.HasType type

/-- A record has the names of a schema, each with a value of the field's type or with `null`. -/
structure Record.Fits (s : Schema) (record : Record) : Prop where
  keys_eq : record.keys = s.fields.map FieldSpec.name
  value : ∀ field ∈ s.fields, ∃ v, record.find? field.name = some v ∧ v.Fits field.type

/-! ## One field -/

/-- **What is loaded for a field is `null` or of its type.** -/
theorem FieldSpec.fits_of_load {s : Schema} {mappers : Mappers} (h : s.mappers = .ok mappers)
    {field : FieldSpec} (hfield : field ∈ s.fields) {j : Json} {v : Value}
    (hload : field.load mappers j = .ok v) : v.Fits field.type := by
  cases load_eq_ok_iff.1 hload with
  | null => exact .inl rfl
  | string hmap =>
    have hf := Schema.field?_of_mem (Schema.nodup_of_mappers h) hfield
    exact .inr (ValueType.hasType_of_read (Schema.read_of_map h hf hmap))
  | boolean htype b => exact .inr (htype ▸ .boolean b)
  | integer htype hn => exact .inr (htype ▸ .integer _)
  | real htype n => exact .inr (htype ▸ .real _ _)

/-! ## Filling a record -/

namespace Record

variable {mappers : Mappers} {members : List (Text × Json)} {fields : List FieldSpec}
  {record result : Record}

theorem find?_of_fill (h : fill mappers members record fields = .ok result) {name : Text}
    (hname : name ∉ fields.map FieldSpec.name) : result.find? name = record.find? name := by
  induction fields generalizing record with
  | nil =>
    obtain rfl := Except.ok.inj h
    rfl
  | cons field later ih =>
    rw [List.map_cons, List.mem_cons, not_or] at hname
    obtain ⟨value, -, h⟩ := bind_eq_ok_iff.1 h
    rw [ih h hname.2, Table.find?_insert, if_neg hname.1]

theorem keys_of_fill (h : fill mappers members record fields = .ok result)
    (hnodup : (record.keys ++ fields.map FieldSpec.name).Nodup) :
    result.keys = record.keys ++ fields.map FieldSpec.name := by
  induction fields generalizing record with
  | nil =>
    obtain rfl := Except.ok.inj h
    simp
  | cons field later ih =>
    obtain ⟨value, -, h⟩ := bind_eq_ok_iff.1 h
    have hfresh : field.name ∉ record.keys := fun hmem =>
      (List.nodup_append.1 hnodup).2.2 _ hmem _ List.mem_cons_self rfl
    have hkeys := Table.keys_insert_of_not_mem hfresh value
    rw [ih h (by rwa [hkeys, List.append_assoc]), hkeys, List.append_assoc]
    rfl

theorem exists_load_of_fill (h : fill mappers members record fields = .ok result)
    (hnodup : (fields.map FieldSpec.name).Nodup) {field : FieldSpec} (hfield : field ∈ fields) :
    ∃ v, field.load mappers ((members.lookup field.name).getD .null) = .ok v ∧
      result.find? field.name = some v := by
  induction fields generalizing record with
  | nil => cases hfield
  | cons first later ih =>
    obtain ⟨value, hload, h⟩ := bind_eq_ok_iff.1 h
    rw [List.map_cons, List.nodup_cons] at hnodup
    rcases List.mem_cons.1 hfield with rfl | hfield
    · refine ⟨value, hload, ?_⟩
      rw [find?_of_fill h hnodup.1, Table.find?_insert, if_pos rfl]
    · exact ih h hnodup.2 hfield

/-! ## Loaded records -/

theorem fits_of_ofRow {s : Schema} (h : s.mappers = .ok mappers) {row : Json}
    (hrow : ofRow s mappers row = .ok record) : record.Fits s := by
  have hnodup := Schema.nodup_of_mappers h
  cases row with
  | object members =>
    refine ⟨keys_of_fill hrow hnodup, fun field hfield => ?_⟩
    obtain ⟨v, hload, hv⟩ := exists_load_of_fill hrow hnodup hfield
    exact ⟨v, hv, FieldSpec.fits_of_load h hfield hload⟩
  | _ => cases hrow

/-- **Loaded records are of their schema.** -/
theorem fits_of_ofRows {s : Schema} (h : s.mappers = .ok mappers) {rows : List Json}
    {records : List Record} (hrows : ofRows s mappers rows = .ok records) :
    ∀ record ∈ records, record.Fits s := by
  intro record hrecord
  have hmem : Except.ok record ∈ rows.map (ofRow s mappers) := by
    rw [ofRows_eq_ok_iff.1 hrows]
    exact List.mem_map_of_mem hrecord
  obtain ⟨row, -, hrow⟩ := List.mem_map.1 hmem
  exact fits_of_ofRow h hrow

theorem Fits.get {s : Schema} {record : Record} (h : record.Fits s) {field : Text} {f : FieldSpec}
    (hf : s.field? field = some f) : (record.get field).Fits f.type := by
  obtain rfl : f.name = field := by simpa using List.find?_some hf
  obtain ⟨v, hv, hfits⟩ := h.value f (List.mem_of_find?_eq_some hf)
  rwa [Record.get, hv]

end Record

end RecordQuery
