import RecordQuery.Calendar.Instant
import RecordQuery.Number.Reading

/-!
# Errors of mapping

A literal may not be the text of a value of its field's type, or a value may not suit the operator
it is used with. Either way the error names the field and the text, and holds the cause.

Causes are of two sorts. Those that come from reading a number, a date or a symbol, or from a
caller's own coercion, are foreign; the others are stated by the mapping itself.
-/

namespace RecordQuery

/-- An error met while a text was read as a value. -/
inductive ForeignError
  | integer (error : IntegerError)
  | float (error : FloatError)
  | calendar (error : CalendarError)
  | instant (error : InstantError)
  /-- The text is no symbol of the enum. -/
  | symbol (enumName text : Text)
  /-- An error that is only described. -/
  | described (text : Text)
  deriving DecidableEq, Repr

/-- Why a text or a value cannot be used. -/
inductive MappingCause
  | notComparable
  | typeMismatch (expected : Text)
  | notOneCharacter
  /-- A reason in a caller's words. -/
  | stated (reason : Text)
  | foreign (error : ForeignError)
  deriving DecidableEq, Repr

/-- A text that cannot be used as a value of a field. -/
structure MappingError where
  field : Text
  literal : Text
  cause : MappingCause
  deriving DecidableEq, Repr

/-- The wording of a foreign error. -/
def ForeignError.message : ForeignError → Text
  | integer e => e.message
  | float e => e.message
  | calendar e => e.message
  | instant e => e.message
  | symbol enumName text =>
    "Unable to parse enum: ".toList ++ enumName ++ ", value: ".toList ++ text
  | described text => text

namespace MappingCause

/-- The wording of a cause. -/
def reason : MappingCause → Text
  | notComparable => "Cannot compare".toList
  | typeMismatch expected => "Type mismatch, expected ".toList ++ expected
  | notOneCharacter => "expected a single character".toList
  | stated reason => reason
  | foreign e => e.message

/-- Whether the cause is an error of something else than the mapping. -/
def isForeign : MappingCause → Bool
  | foreign _ => true
  | _ => false

end MappingCause

namespace MappingError

/-- The wording of an error. -/
def message (e : MappingError) : Text :=
  "Failed to map: ".toList ++ e.field ++ ", value: ".toList ++ e.literal ++ " (".toList
    ++ e.cause.reason ++ [')']

/-- An error that a coercion may end with. -/
inductive Source
  | mapping (error : MappingError)
  | foreign (error : ForeignError)

/-- Names the field and the text of a coercion's error. An error of mapping names its own. -/
def wrap (field literal : Text) : Source → MappingError
  | .mapping e => e
  | .foreign e => ⟨field, literal, .foreign e⟩

/-- The error that the kind of a value is not the expected one. -/
def ofTypeMismatch (field literal expected : Text) : MappingError :=
  ⟨field, literal, .typeMismatch expected⟩

/-- The error that a value has no place in the order. -/
def ofNotComparable (field literal : Text) : MappingError := ⟨field, literal, .notComparable⟩

end MappingError

end RecordQuery
