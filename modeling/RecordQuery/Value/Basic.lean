import RecordQuery.Calendar.Printing
import RecordQuery.Number.Decimal
import RecordQuery.Number.Lexicographic
import RecordQuery.Value.Integer

/-!
# Values

A value is a literal after its type is known, or what a record holds in a field. Values are of
kinds, and only values of one kind are compared with each other.

## Order

Values of a kind that has an order are ordered by a key, a list of integers: `false` before `true`,
texts by code points, dates and times by their parts. Floating-point numbers have an order of their
own, in which a NaN has no place. Enum symbols and `null` have no order.

## Equality

`Value.equals` is the equality that comparisons use: structural but for floating-point numbers,
where a NaN equals nothing and the zeros of both signs are equal.

## Main results

* `Value.isOrderable_of_key?`: what has a key has an order
* `Value.compare?_eq_none_of_kind_ne`: values of different kinds are not compared
-/

namespace RecordQuery

/-- A typed value. -/
inductive Value
  | boolean (value : Bool)
  | integer (value : Integer)
  | real (format : FloatFormat) (value : Binary)
  | char (value : Char)
  | string (value : Text)
  /-- A date-time in UTC. -/
  | timestamp (utc : DateTime)
  | date (value : Date)
  /-- A date-time of no zone. -/
  | dateTime (value : DateTime)
  /-- A symbol of an enum, with the name of the enum. -/
  | enum (name symbol : Text)
  | null
  deriving DecidableEq, Repr

/-- The kinds of values. -/
inductive Kind
  | boolean
  | integer (width : Width)
  | real (format : FloatFormat)
  | char
  | string
  | timestamp
  | date
  | dateTime
  | enum
  | null
  deriving DecidableEq, Repr

/-- The declared type of a field. -/
inductive ValueType
  | boolean
  | integer (width : Width)
  | real (format : FloatFormat)
  | char
  | string
  /-- A date or date-time that is resolved to an instant. -/
  | date
  | localDate
  | localDateTime
  | enum (name : Text) (symbols : List Text)
  deriving DecidableEq, Repr

/-- The name of a type; the one of an enum type is the enum's own. -/
def ValueType.name : ValueType → Text
  | boolean => "boolean".toList
  | integer .w8 => "int8".toList
  | integer .w16 => "int16".toList
  | integer .w32 => "int32".toList
  | integer .w64 => "int64".toList
  | real .single => "float32".toList
  | real .double => "float64".toList
  | char => "char".toList
  | string => "string".toList
  | date => "date".toList
  | localDate => "local_date".toList
  | localDateTime => "local_date_time".toList
  | enum name _ => name

namespace Value

/-- The kind of a value. -/
def kind : Value → Kind
  | boolean _ => .boolean
  | integer i => .integer i.width
  | real f _ => .real f
  | char _ => .char
  | string _ => .string
  | timestamp _ => .timestamp
  | date _ => .date
  | dateTime _ => .dateTime
  | enum .. => .enum
  | null => .null

/-- The type that a value shows. An enum value does not know the other symbols of its enum. -/
def type? : Value → Option ValueType
  | boolean _ => some .boolean
  | integer i => some (.integer i.width)
  | real f _ => some (.real f)
  | char _ => some .char
  | string _ => some .string
  | timestamp _ => some .date
  | date _ => some .localDate
  | dateTime _ => some .localDateTime
  | enum name _ => some (.enum name [])
  | null => none

/-- The name of the type that a value shows. -/
def typeName (v : Value) : Text :=
  match v.type? with
  | some t => t.name
  | none => "null".toList

/-- The text of a string. -/
def asString? : Value → Option Text
  | string t => some t
  | _ => none

/-- A value as it is shown. -/
def display : Value → Text
  | boolean true => "true".toList
  | boolean false => "false".toList
  | integer i => Text.ofInt i.value
  | real f x => Binary.plain f x
  | char c => [c]
  | string t => t
  | timestamp t => t.millisText
  | date d => d.text
  | dateTime t => t.text
  | enum _ symbol => symbol
  | null => "null".toList

/-! ## Order -/

/-- Whether values of this kind have an order at all. -/
def isOrderable : Value → Bool
  | enum .. => false
  | null => false
  | _ => true

/-- The list of integers that orders a value among those of its kind. -/
def key? : Value → Option (List Int)
  | boolean b => some [if b then 1 else 0]
  | integer i => some [i.value]
  | char c => some [(c.toNat : Int)]
  | string t => some t.codes
  | timestamp t => some t.key
  | date d => some d.key
  | dateTime t => some t.key
  | real .. | enum .. | null => none

/-- The order of two values, if they are of one kind and have one. -/
def compare? (a b : Value) : Option Ordering :=
  match a, b with
  | real f x, real g y => if f = g then Binary.compare? x y else none
  | a, b =>
    if a.kind = b.kind then
      match a.key?, b.key? with
      | some j, some k => some (lexicographic j k)
      | _, _ => none
    else none

theorem isOrderable_of_key? {v : Value} {k : List Int} (h : v.key? = some k) :
    v.isOrderable = true := by
  cases v <;> simp_all [key?, isOrderable]

theorem compare?_eq_none_of_kind_ne {a b : Value} (h : a.kind ≠ b.kind) : compare? a b = none := by
  unfold compare?
  split
  · next f x g y =>
    have : ¬ f = g := fun e => h (by simp [kind, e])
    simp [this]
  · simp [h]

/-- Whether two values are equal as comparisons see it. -/
def equals : Value → Value → Bool
  | real f x, real g y => f = g && Binary.equals x y
  | a, b => a = b

end Value

end RecordQuery
