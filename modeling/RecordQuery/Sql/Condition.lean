import RecordQuery.Compile.Backend
import RecordQuery.Sql.Names

/-!
# SQL conditions

What a query becomes for a database: comparisons of columns with values that are bound later,
joined and grouped as in the query. The backend finds the column of each field and turns the stars
of a pattern into the wildcards of `LIKE`.
-/

namespace RecordQuery.Sql

/-- A condition on the columns of a row. -/
inductive Condition
  | comparison (column : Text) (relation : Relation) (value : Value)
  | member (column : Text) (values : List Value)
  | joined (connective : Connective) (left right : Condition)
  | group (inner : Condition)
  deriving DecidableEq, Repr

namespace Condition

/-- The values of a condition from left to right. -/
def values : Condition → List Value
  | comparison _ _ value => [value]
  | member _ vs => vs
  | joined _ left right => left.values ++ right.values
  | group inner => inner.values

end Condition

/-! ## The backend -/

/-- The pattern of `LIKE` that means what a pattern of a query means. -/
def likePattern (pattern : Text) : Text := Text.replace '*' ['%'] pattern

/-- The value that a relation is rendered with: for patterns a string in the form of `LIKE`, for
everything else the value itself. -/
def operand (relation : Relation) (field : Text) (value : Value) : Except QueryError Value :=
  match relation, value with
  | .like, .string pattern | .notLike, .string pattern => .ok (.string (likePattern pattern))
  | .like, other | .notLike, other =>
    .error (.ofTypeMismatch field other.display ValueType.string.name)
  | _, value => .ok value

/-- The condition of a relation. -/
def scalar (names : Names) (relation : Relation) (field : Text) (value : Value) :
    Except QueryError Condition := do
  let value ← operand relation field value
  return .comparison (← Names.column names field) relation value

/-- The condition that a field is among values. -/
def member (names : Names) (field : Text) (values : List Value) :
    Except QueryError Condition := do
  return .member (← Names.column names field) values

/-- The backend that builds conditions. -/
def backend (names : Names) : Backend Id Condition where
  scalar := scalar names
  member := member names
  join := .joined
  group := .group

end RecordQuery.Sql
