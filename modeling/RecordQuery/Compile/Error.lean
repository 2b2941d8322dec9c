import RecordQuery.Mapping.Error
import RecordQuery.Query.Error

/-!
# Errors of compiling and testing queries

Between the text of a query and the truth value of a record there is one type of errors. A text may
not parse; a list may be malformed; a backend may not know a field; a tree that was built by hand
may still wait for an operand; and a literal or a value may not suit its field.
-/

namespace RecordQuery

/-- Why a query has no predicate, or a predicate no truth value. -/
inductive QueryError
  | parse (error : ParseError)
  /-- The literal of a membership test is not a list. -/
  | malformedList (field literal : Text)
  | unknownField (name : Text)
  /-- A node of the tree waits for its right operand. It is held as text. -/
  | incomplete (node : Text)
  | mapping (error : MappingError)
  deriving DecidableEq, Repr

namespace QueryError

/-- The wording of an error. -/
def message : QueryError → Text
  | parse e => e.message
  | malformedList field literal =>
    "Invalid set literal for '".toList ++ field ++ "': ".toList ++ literal
  | unknownField name => "Unknown name: ".toList ++ name
  | incomplete node => "Incomplete logical expression: ".toList ++ node
  | mapping e => e.message

/-- The text that an error points at. -/
def fragment : QueryError → Text
  | parse e => e.fragment
  | malformedList _ literal => literal
  | unknownField name => name
  | incomplete node => node
  | mapping e => e.literal

/-- The error that the kind of a value is not the expected one. -/
def ofTypeMismatch (field shown expected : Text) : QueryError :=
  mapping (.ofTypeMismatch field shown expected)

/-- The error that a value has no place in the order. -/
def ofNotComparable (field shown : Text) : QueryError := mapping (.ofNotComparable field shown)

end QueryError

end RecordQuery
