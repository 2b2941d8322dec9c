import RecordQuery.Calendar.Instant
import RecordQuery.Json.Printer
import RecordQuery.Value.Basic

/-!
# Values as JSON

Two forms. The tagged form keeps the kind: an object with the name of the kind as its only key, or
the name alone for `null`. The plain form is what a reader who only wants the value expects: a
number, a truth value, `null`, or a text.
-/

namespace RecordQuery

open Json (Document Number)

/-! ## Names of kinds -/

/-- The name of a kind in the tagged form. -/
def Kind.tag : Kind → Text
  | boolean => "Boolean".toList
  | integer .w8 => "Byte".toList
  | integer .w16 => "Short".toList
  | integer .w32 => "Int".toList
  | integer .w64 => "Long".toList
  | real .single => "Float".toList
  | real .double => "Double".toList
  | char => "Char".toList
  | string => "String".toList
  | timestamp => "Timestamp".toList
  | date => "Date".toList
  | dateTime => "DateTime".toList
  | enum => "Enum".toList
  | null => "Null".toList

/-- All kinds. -/
def Kind.all : List Kind :=
  [boolean, integer .w8, integer .w16, integer .w32, integer .w64, real .single, real .double,
    char, string, timestamp, date, dateTime, enum, null]

/-- The kind of a name. -/
def Kind.ofTag? (tag : Text) : Option Kind := Kind.all.find? fun k => k.tag = tag

theorem Kind.mem_all (k : Kind) : k ∈ Kind.all := by
  cases k with
  | integer w => cases w <;> decide
  | real f => cases f <;> decide
  | _ => decide

namespace Value

/-! ## Tagged form -/

/-- What stands under the name of the kind. -/
def payload : Value → Json
  | boolean b => .bool b
  | integer i => .number (.integer i.value)
  | real f x => .number (.real f x)
  | char c => .string [c]
  | string t => .string t
  | timestamp t => .string t.zonedText
  | date d => .string d.text
  | dateTime t => .string t.text
  | enum name symbol => .array [.string name, .string symbol]
  | null => .null

/-- A value in the tagged form. -/
def toJson : Value → Json
  | null => .string Kind.null.tag
  | v => .object [(v.kind.tag, v.payload)]

/-- A number of a format: an integer is rounded once, a floating-point number again. -/
def realOf (f : FloatFormat) : Number → Binary
  | .integer n => f.ofInt n
  | .real _ x => x.convert f

/-- The number of a document. -/
def number? : Document → Option Number
  | .number n => n.number?
  | _ => none

/-- A value of a kind from what stands under the kind's name. -/
def ofPayload? : Kind → Document → Option Value
  | .boolean, .bool b => some (.boolean b)
  | .integer w, d => do
    match ← number? d with
    | .integer n => (Integer.ofInt? w n).map .integer
    | .real .. => none
  | .real f, d => (number? d).map fun n => .real f (realOf f n)
  | .char, d => do
    match ← d.text? with
    | [c] => some (.char c)
    | _ => none
  | .string, d => d.text?.map .string
  | .timestamp, d => do (Instant.ofWritten (← d.text?)).toOption.map .timestamp
  | .date, d => do (Date.ofWritten (← d.text?)).toOption.map .date
  | .dateTime, d => do (DateTime.ofWritten (← d.text?)).toOption.map .dateTime
  | .enum, .array [name, symbol] => do return .enum (← name.text?) (← symbol.text?)
  | .null, .null => some .null
  | _, _ => none

/-- Reads a value in the tagged form. -/
def ofDocument? (d : Document) : Option Value := do
  let (tag, payload) ← d.variant?
  let kind ← Kind.ofTag? tag
  match payload with
  | some payload => ofPayload? kind payload
  | none => if kind = .null then some .null else none

/-- Reads a value in the tagged form from JSON text. -/
def ofJsonText? (t : Text) : Option Value := (Document.ofText? t).bind ofDocument?

/-! ## Plain form -/

/-- A value in the plain form. A number of the single format is written as one of the double
format. -/
def toPlainJson : Value → Json
  | boolean b => .bool b
  | integer i => .number (.integer i.value)
  | real _ x => if x.isFinite then .number (.real .double (x.convert .double)) else .null
  | null => .null
  | v => .string v.display

end Value

end RecordQuery
