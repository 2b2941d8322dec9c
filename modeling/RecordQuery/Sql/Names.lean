import RecordQuery.Compile.Error
import RecordQuery.Schema.Basic
import RecordQuery.Text.Uppercase

/-!
# Columns of fields

A table says which column holds a field. Where nothing else is said, the column's name is derived
from the field's: an upper-case character becomes an underscore and its lower-case form, so
`createdAt` is held by `created_at`.

## Main results

* `Names.find?_ofFields`: fields without an override, and not ignored, take the derived name
-/

namespace RecordQuery.Sql

/-- The column derived from a field's name. -/
def columnName (field : Text) : Text :=
  field.flatMap fun c =>
    match lowered? c with
    | some lower => '_' :: lower
    | none => [c]

@[simp] theorem columnName_nil : columnName [] = [] := rfl

/-- Columns under the names of fields. -/
abbrev Names := Table Text

namespace Names

/-- Adds the derived column of a field that has none. -/
def addField (names : Names) (field : Text) : Names :=
  if (names.find? field).isSome then names else names.insert field (columnName field)

/-- The columns of fields, but for ignored ones. An override says which column holds its field,
whether the field is listed or not; the last override of a field counts. -/
def ofFields (fields ignored : List Text) (overrides : List (Text × Text)) : Names :=
  (fields.filter fun f => f ∉ ignored).foldl addField (Table.ofList overrides)

/-- The columns of the fields of a schema. The last declaration of a field counts. -/
def ofSchema (s : Schema) : Names :=
  Table.ofList (s.fields.map fun f => (f.name, f.column.getD (columnName f.name)))

/-- The column of a field. -/
def column (names : Names) (field : Text) : Except QueryError Text :=
  match names.find? field with
  | some column => .ok column
  | none => .error (.unknownField field)

theorem find?_addField (names : Names) (field other : Text) :
    (addField names field).find? other =
      (names.find? other).or (if other = field then some (columnName field) else none) := by
  unfold addField
  split
  · next h =>
    by_cases e : other = field
    · subst e
      obtain ⟨c, hc⟩ := Option.isSome_iff_exists.1 h
      simp [hc]
    · simp [e]
  · next h =>
    rw [Table.find?_insert]
    by_cases e : other = field
    · subst e
      simp only [Option.not_isSome_iff_eq_none] at h
      simp [h]
    · simp [e]

theorem find?_foldl_addField (fields : List Text) (names : Names) (other : Text) :
    (fields.foldl addField names).find? other =
      (names.find? other).or (if other ∈ fields then some (columnName other) else none) := by
  induction fields generalizing names with
  | nil => simp
  | cons field later ih =>
    rw [List.foldl_cons, ih, find?_addField]
    by_cases e : other = field
    · subst e
      cases names.find? other <;> simp
    · simp [e]

theorem find?_ofFields (fields ignored : List Text) (overrides : List (Text × Text))
    (other : Text) :
    (ofFields fields ignored overrides).find? other =
      ((Table.ofList overrides).find? other).or
        (if other ∈ fields ∧ other ∉ ignored then some (columnName other) else none) := by
  simp [ofFields, find?_foldl_addField]

end Names

end RecordQuery.Sql
