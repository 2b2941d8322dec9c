import RecordQuery.Compile.Backend
import RecordQuery.Memory.Inequality
import RecordQuery.Memory.Predicate
import RecordQuery.Memory.Wildcard

/-!
# Queries in memory

The backend whose predicates test records directly. What a record holds in a field is found by a
table of getters; a field without one is unknown.

An inequality with a value that has no order, a pattern that is no string, and one that the engine
for patterns does not take, are refused when the query is compiled. What the record holds is known
only when it is tested: an inequality then fails if the two values have no order, and a pattern
fails on a value that is no string. Equality and membership never fail. Groups mean what is inside
them.
-/

namespace RecordQuery

/-- Ways to read the fields of records. -/
abbrev Getters (R : Type) := Table (R → Value)

namespace Memory

variable {R : Type}

/-- The getter of a field. -/
def getter (getters : Getters R) (field : Text) : Except QueryError (R → Value) :=
  match getters.find? field with
  | some get => .ok get
  | none => .error (.unknownField field)

/-- The predicate that a field equals a value. -/
def equal (getters : Getters R) (field : Text) (value : Value) :
    Except QueryError (Predicate R) := do
  let get ← getter getters field
  return fun r => .ok (Value.equals (get r) value)

/-- The predicate that an inequality holds between a field and a value. -/
def ordered (getters : Getters R) (i : Inequality) (field : Text) (value : Value) :
    Except QueryError (Predicate R) := do
  let get ← getter getters field
  if !value.isOrderable then throw (.ofNotComparable field value.display)
  return fun r => i.test field (get r) value

/-- The error that a value is no string. -/
def notString (field : Text) (value : Value) : QueryError :=
  .ofTypeMismatch field value.display ValueType.string.name

/-- The error that a pattern is refused by the engine. -/
def refusedPattern (field pattern reason : Text) : QueryError :=
  .mapping ⟨field, pattern, .stated reason⟩

/-- The predicate that a field matches a pattern. -/
def like (getters : Getters R) (engine : Wildcard.Engine) (field : Text) (value : Value) :
    Except QueryError (Predicate R) := do
  let get ← getter getters field
  match value with
  | .string pattern =>
    match engine.refusal? pattern with
    | some reason => throw (refusedPattern field pattern reason)
    | none =>
      return fun r =>
        match get r with
        | .string t => .ok (Wildcard.accepts pattern t)
        | other => .error (notString field other)
  | other => throw (notString field other)

/-- The predicate that a field equals one of several values. -/
def member (getters : Getters R) (field : Text) (values : List Value) :
    Except QueryError (Predicate R) := do
  let get ← getter getters field
  return fun r => .ok (values.any fun v => Value.equals v (get r))

/-- The predicate of a relation. -/
def scalar (getters : Getters R) (engine : Wildcard.Engine) (relation : Relation) (field : Text)
    (value : Value) : Except QueryError (Predicate R) :=
  match relation with
  | .equal => equal getters field value
  | .notEqual => return (← equal getters field value).negate
  | .greater => ordered getters .greater field value
  | .greaterOrEqual => ordered getters .greaterOrEqual field value
  | .less => ordered getters .less field value
  | .lessOrEqual => ordered getters .lessOrEqual field value
  | .like => like getters engine field value
  | .notLike => return (← like getters engine field value).negate

/-- The backend that tests records in memory. -/
def backend (getters : Getters R) (engine : Wildcard.Engine := .unlimited) :
    Backend Id (Predicate R) where
  scalar := scalar getters engine
  member := member getters
  join := Predicate.join
  group := id

end Memory

end RecordQuery
