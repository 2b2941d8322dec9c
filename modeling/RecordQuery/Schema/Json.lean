import RecordQuery.Json.Printer
import RecordQuery.Schema.Basic

/-!
# Schemas as JSON

A schema is an object with the list of its fields. A field is one object that holds its name, its
column if it has one, and the parts of its type: `type`, and for an enum also `enum_name` and
`symbols`. Unknown keys are skipped; a known key that is repeated is refused. A type that stands
alone, and a schema, may also be given as the list of their parts.

Where the object of a field holds a key that is neither `name` nor `column`, its value must be a
proper JSON value even if nobody asks for it, because the parts of the type are found among these
keys afterwards.
-/

namespace RecordQuery

open Json (Document)

/-! ## Types -/

namespace ValueType

/-- The names under which types are declared, in order. -/
def tags : List Text :=
  ["boolean".toList, "int8".toList, "int16".toList, "int32".toList, "int64".toList,
    "float32".toList, "float64".toList, "char".toList, "string".toList, "date".toList,
    "local_date".toList, "local_date_time".toList, "enum".toList]

/-- The types without parts, in the order of `tags`. -/
def simple : List ValueType :=
  [.boolean, .integer .w8, .integer .w16, .integer .w32, .integer .w64, .real .single,
    .real .double, .char, .string, .date, .localDate, .localDateTime]

/-- The place of a type among the declared ones. -/
def place? (tag : Text) : Option Nat := tags.findIdx? (· = tag)

/-- The type at a place, an enum with its parts among the members. -/
def atPlace? (place : Nat) (members : List (Text × Document)) : Option ValueType :=
  match simple[place]? with
  | some t => some t
  | none => do
    guard (place = simple.length)
    let name ← (← Json.required? "enum_name".toList members).text?
    let symbols ← (← Json.required? "symbols".toList members).items?
    return .enum name (← symbols.mapM Document.text?)

/-- The type that members declare. -/
def ofMembers? (members : List (Text × Document)) : Option ValueType := do
  let tag ← (← Json.required? "type".toList members).text?
  atPlace? (← place? tag) members

/-- The type that members of a field declare; there a type may also be given by its place. -/
def ofFieldMembers? (members : List (Text × Document)) : Option ValueType := do
  match ← Json.required? "type".toList members with
  | .number n =>
    match ← n.number? with
    | .integer place => if 0 ≤ place then atPlace? place.toNat members else none
    | .real .. => none
  | d => atPlace? (← place? (← d.text?)) members

/-- The type that a list declares: its name, and behind it the parts of an enum. -/
def ofItems? : List Document → Option ValueType
  | [] => none
  | tag :: parts => do
    match simple[← place? (← tag.text?)]?, parts with
    | some t, [] => some t
    | none, [name, symbols] => do
      return .enum (← name.text?) (← (← symbols.items?).mapM Document.text?)
    | _, _ => none

/-- Reads a type from an object or a list. -/
def ofDocument? : Document → Option ValueType
  | .array items => ofItems? items
  | d => d.members?.bind ofMembers?

/-- The members that declare a type. -/
def toMembers (t : ValueType) : List (Text × Json) :=
  match t with
  | .enum name symbols =>
    [("type".toList, .string "enum".toList), ("enum_name".toList, .string name),
      ("symbols".toList, .array (symbols.map .string))]
  | t => [("type".toList, .string t.name)]

end ValueType

/-! ## Fields -/

namespace FieldSpec

/-- The keys of a field's own parts. -/
def ownKeys : List Text := ["name".toList, "column".toList]

/-- Reads a field. Values under other keys may open at most `room` containers at once. -/
def ofDocument? (room : Nat) (d : Document) : Option FieldSpec := do
  let members ← d.members?
  let name ← (← Json.required? "name".toList members).text?
  let column ← match ← Json.member? "column".toList members with
    | none | some .null => pure none
    | some c => c.text?.map some
  let others := members.filter fun m => m.1 ∉ ownKeys
  guard (others.all fun m => (Json.ofDocument? room m.2).isSome)
  return ⟨name, column, ← ValueType.ofFieldMembers? others⟩

/-- A field as a JSON value. -/
def toJson (f : FieldSpec) : Json :=
  .object (("name".toList, .string f.name) ::
    ((f.column.map fun c => ("column".toList, Json.string c)).toList ++ f.type.toMembers))

end FieldSpec

/-! ## Schemas -/

namespace Schema

/-- Containers that are open where a value stands in the object of a field. -/
def fieldDepth : Nat := 3

/-- Reads a schema: an object with the key `fields`, or a list that holds the fields alone. -/
def ofDocument? (d : Document) : Option Schema := do
  let fields ← match d with
    | .array [fields] => pure fields
    | d => do Json.required? "fields".toList (← d.members?)
  let specs ← (← fields.items?).mapM (FieldSpec.ofDocument? (Json.maxDepth - fieldDepth))
  return ⟨specs⟩

/-- Reads a schema from JSON text. -/
def ofJsonText? (t : Text) : Option Schema := (Document.ofText? t).bind ofDocument?

/-- A schema as a JSON value. -/
def toJson (s : Schema) : Json :=
  .object [("fields".toList, .array (s.fields.map FieldSpec.toJson))]

end Schema

end RecordQuery
