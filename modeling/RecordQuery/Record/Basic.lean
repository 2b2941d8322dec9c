import RecordQuery.Json.Printer
import RecordQuery.Memory.Backend
import RecordQuery.Schema.Basic
import RecordQuery.Value.Json

/-!
# Records

A record holds a value for each field of a schema. It is loaded from a JSON object: a string is
read as a literal of the field is read in a query, a truth value or a number becomes a value of the
field's type if it can, and a field that is missing or `null` is `Value.null`. Keys that the schema
does not declare are dropped.

Loading is all or nothing. The error names the first row that cannot be loaded, and of its fields
the first one in the order of the schema.

## Main results

* `Record.ofRows_eq_ok_iff`: every row of a loaded list was loaded on its own
-/

namespace RecordQuery

/-- The values of a record's fields. -/
abbrev Record := Table Value

/-- Why a row is no record. -/
inductive RowFault
  | notObject
  /-- A string is no literal of its field. -/
  | literal (error : MappingError)
  /-- A JSON value does not suit the type of its field. -/
  | mismatch (field : Text) (type : ValueType) (found : Json)

/-- The wording of a fault. -/
def RowFault.message : RowFault → Text
  | notObject => "expected a JSON object".toList
  | literal e => e.message
  | mismatch field type found =>
    "field ".toList ++ field ++ ": expected ".toList ++ type.name ++ ", got ".toList
      ++ found.compact

/-- A row that cannot be loaded. -/
structure RecordError where
  index : Nat
  fault : RowFault

/-- The wording of an error. -/
def RecordError.message (e : RecordError) : Text :=
  "Invalid record #".toList ++ Text.ofNat e.index ++ ": ".toList ++ e.fault.message

/-! ## Fields -/

/-- A number as a value of a type: an integer within the bounds of its width, or any number as a
floating-point number, by way of the double format. -/
def ValueType.ofNumber? : ValueType → Json.Number → Option Value
  | integer w, .integer n => (Integer.ofInt? w n).map .integer
  | real f, n => some (.real f ((Value.realOf .double n).convert f))
  | _, _ => none

/-- A JSON value as the value of a field. -/
def FieldSpec.load (mappers : Mappers) (field : FieldSpec) : Json → Except RowFault Value
  | .null => .ok .null
  | .string t =>
    match Mappers.map mappers field.name t with
    | .ok v => .ok v
    | .error e => .error (.literal e)
  | j =>
    let value? := match field.type, j with
      | .boolean, .bool b => some (.boolean b)
      | type, .number n => type.ofNumber? n
      | _, _ => none
    match value? with
    | some v => .ok v
    | none => .error (.mismatch field.name field.type j)

namespace Record

/-- Fills a record with the fields of a row, in order. -/
def fill (mappers : Mappers) (members : List (Text × Json)) (record : Record) :
    List FieldSpec → Except RowFault Record
  | [] => .ok record
  | field :: later => do
    let value ← field.load mappers ((members.lookup field.name).getD .null)
    fill mappers members (record.insert field.name value) later

/-- Loads one row. -/
def ofRow (schema : Schema) (mappers : Mappers) : Json → Except RowFault Record
  | .object members => fill mappers members .empty schema.fields
  | _ => .error .notObject

/-- Loads rows, the first of which has the given index. -/
def ofRowsFrom (schema : Schema) (mappers : Mappers) (index : Nat) :
    List Json → Except RecordError (List Record)
  | [] => .ok []
  | row :: later =>
    match ofRow schema mappers row with
    | .error fault => .error ⟨index, fault⟩
    | .ok record => do return record :: (← ofRowsFrom schema mappers (index + 1) later)

/-- Loads rows. -/
def ofRows (schema : Schema) (mappers : Mappers) (rows : List Json) :
    Except RecordError (List Record) :=
  ofRowsFrom schema mappers 0 rows

theorem ofRowsFrom_eq_ok_iff {schema : Schema} {mappers : Mappers} {index : Nat}
    {rows : List Json} {records : List Record} :
    ofRowsFrom schema mappers index rows = .ok records ↔
      rows.map (ofRow schema mappers) = records.map .ok := by
  induction rows generalizing index records with
  | nil => cases records <;> simp [ofRowsFrom]
  | cons row later ih =>
    specialize @ih (index + 1)
    simp only [ofRowsFrom, List.map_cons]
    cases hr : ofRow schema mappers row with
    | error fault => cases records <;> simp
    | ok record =>
      cases hl : ofRowsFrom schema mappers (index + 1) later with
      | error e =>
        have hne : ∀ rs : List Record, later.map (ofRow schema mappers) ≠ rs.map .ok := by
          intro rs h
          simpa [hl] using (@ih rs).2 h
        cases records with
        | nil => simp [bind, Except.bind]
        | cons r rs => simp [bind, Except.bind, hne rs]
      | ok rs' =>
        have h' := ih.1 hl
        cases records with
        | nil => simp [bind, Except.bind, pure, Except.pure]
        | cons r rs =>
          have inj : rs'.map (@Except.ok RowFault Record) = rs.map .ok ↔ rs' = rs :=
            List.map_inj_right fun a b => by simp
          simp [bind, Except.bind, pure, Except.pure, h', inj]

theorem ofRows_eq_ok_iff {schema : Schema} {mappers : Mappers} {rows : List Json}
    {records : List Record} :
    ofRows schema mappers rows = .ok records ↔
      rows.map (ofRow schema mappers) = records.map .ok :=
  ofRowsFrom_eq_ok_iff

/-- The value of a field, `null` if there is none. -/
def get (record : Record) (field : Text) : Value := (record.find? field).getD .null

/-- A getter for each field of a schema. -/
def getters (schema : Schema) : Getters Record :=
  Table.ofList (schema.fields.map fun f => (f.name, fun record => get record f.name))

end Record

end RecordQuery
