import RecordQuery.Mapping.Error
import RecordQuery.Table
import RecordQuery.Value.Basic

/-!
# Mapping literals to values

A mapper reads the literals of one field as values of the field's type. A table does so for all
fields; a field that is not in the table keeps its literals as strings.

## Callers' readings

What a table holds for a field is a `FieldReader`, and its reading may be a caller's own. Mappers
are the readers that come from a declared type. A reading may fail with an error of mapping, which
is passed on as it is, or with any other error, which is wrapped with the field and the literal.

## Main results

* `Mapper.map_reader`: the reader of a mapper maps as the mapper does
* `Mappers.map_of_find?_eq_none`: the literal of an unknown field is a string
-/

namespace RecordQuery

/-! ## Literals -/

/-- Drops one single quote and then one double quote, each from either end where it stands. -/
def unquote (t : Text) : Text :=
  dropLast '"' (dropFirst '"' (dropLast '\'' (dropFirst '\'' t)))
where
  /-- Drops one character from the front, if it stands there. -/
  dropFirst (c : Char) (t : Text) : Text := (Text.after? [c] t).getD t
  /-- Drops one character from the end, if it stands there. -/
  dropLast (c : Char) (t : Text) : Text :=
    ((Text.after? [c] t.reverse).map List.reverse).getD t

/-- A result of reading as a value, or as the cause of an error. -/
def ofReading {ε α : Type} (cause : ε → MappingCause) (value : α → Value) :
    Except ε α → Except MappingCause Value
  | .ok a => .ok (value a)
  | .error e => .error (cause e)

/-- Reads an integer of a width. -/
def readInteger (w : Width) (t : Text) : Except MappingCause Value := do
  match Text.readInt w.lower w.upper t with
  | .error e => throw (.foreign (.integer e))
  | .ok n =>
    match Integer.ofInt? w n with
    | some i => pure (.integer i)
    | none => throw (.foreign (.integer (if n < 0 then .tooSmall else .tooLarge)))

/-- Reads a literal as a value of a type. -/
def ValueType.read : ValueType → Text → Except MappingCause Value
  | boolean, t => .ok (.boolean (Text.sameLetters t "true".toList))
  | integer w, t => readInteger w t
  | real f, t => ofReading (fun e => .foreign (.float e)) (.real f) (Text.readFloat f t)
  | char, [c] => .ok (.char c)
  | char, _ => .error .notOneCharacter
  | string, t => .ok (.string (unquote t))
  | date, t => ofReading (fun e => .foreign (.instant e)) .timestamp (Instant.ofLiteral t)
  | localDate, t => ofReading (fun e => .foreign (.calendar e)) .date (Date.ofText t)
  | localDateTime, t =>
    ofReading (fun e => .foreign (.calendar e)) .dateTime (DateTime.ofText t)
  | enum name symbols, t =>
    if t ∈ symbols then .ok (.enum name t) else .error (.foreign (.symbol name t))

/-! ## Readers of fields -/

/-- What reads the literals of one field. -/
structure FieldReader where
  name : Text
  /-- The type that is shown for the field. -/
  type : ValueType
  coerce : Text → Except MappingError.Source Value

namespace FieldReader

/-- Maps a literal of the field. -/
def map (r : FieldReader) (literal : Text) : Except MappingError Value :=
  match r.coerce literal with
  | .ok v => .ok v
  | .error e => .error (.wrap r.name literal e)

/-- A reader as it is shown. -/
def display (r : FieldReader) : Text := r.name ++ ": ".toList ++ r.type.name

end FieldReader

/-! ## Mappers -/

/-- The name and type of one field. -/
structure Mapper where
  name : Text
  type : ValueType
  deriving DecidableEq, Repr

namespace Mapper

/-- Maps a literal of the field. -/
def map (m : Mapper) (literal : Text) : Except MappingError Value :=
  match m.type.read literal with
  | .ok v => .ok v
  | .error cause => .error ⟨m.name, literal, cause⟩

/-- Reads a literal as the type says. A cause that the mapping states itself is an error of mapping
already. -/
def coerce (m : Mapper) (literal : Text) : Except MappingError.Source Value :=
  match m.type.read literal with
  | .ok v => .ok v
  | .error (.foreign e) => .error (.foreign e)
  | .error cause => .error (.mapping ⟨m.name, literal, cause⟩)

/-- The reader of a field of a declared type. -/
def reader (m : Mapper) : FieldReader := ⟨m.name, m.type, m.coerce⟩

/-- A mapper as it is shown. -/
def display (m : Mapper) : Text := m.reader.display

theorem map_reader (m : Mapper) (literal : Text) : m.reader.map literal = m.map literal := by
  simp only [FieldReader.map, reader, coerce, map]
  rcases m.type.read literal with (_ | _ | _ | _ | _) | _ <;> rfl

end Mapper

/-- The readers of several fields. -/
abbrev Mappers := Table FieldReader

/-- The field that has two mappers. -/
structure DuplicateField where
  field : Text
  deriving DecidableEq, Repr

/-- The wording of the error. -/
def DuplicateField.message (e : DuplicateField) : Text :=
  "Duplicate mapper for field: ".toList ++ e.field

namespace Mappers

/-- Adds readers to a table. The first field that has one already is an error. -/
def add (table : Mappers) : List FieldReader → Except DuplicateField Mappers
  | [] => .ok table
  | r :: later =>
    if (table.find? r.name).isSome then .error ⟨r.name⟩
    else add (table.insert r.name r) later

/-- The table of a list of readers. -/
def ofList (readers : List FieldReader) : Except DuplicateField Mappers := add .empty readers

/-- Maps a literal of a field. -/
def map (table : Mappers) (field literal : Text) : Except MappingError Value :=
  match table.find? field with
  | some r => r.map literal
  | none => .ok (.string literal)

theorem map_of_find?_eq_none {table : Mappers} {field : Text} (h : table.find? field = none)
    (literal : Text) : map table field literal = .ok (.string literal) := by
  simp [map, h]

end Mappers

end RecordQuery
