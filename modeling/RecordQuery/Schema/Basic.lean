import RecordQuery.Mapping.Basic

/-!
# Schemas

A schema declares the fields that a query may name, in order, each with its type and possibly with
the column that holds it. A schema may name a field twice; only a table of mappers refuses that.
-/

namespace RecordQuery

/-- The declaration of one field. -/
structure FieldSpec where
  name : Text
  /-- The column that holds the field, if it is not the one derived from the name. -/
  column : Option Text
  type : ValueType
  deriving DecidableEq, Repr

/-- The declared fields, in order. -/
structure Schema where
  fields : List FieldSpec
  deriving DecidableEq, Repr

namespace Schema

/-- The first field of a name. -/
def field? (s : Schema) (name : Text) : Option FieldSpec := s.fields.find? fun f => f.name = name

/-- The mappers of the fields. -/
def mappers (s : Schema) : Except DuplicateField Mappers :=
  Mappers.ofList (s.fields.map fun f => (Mapper.mk f.name f.type).reader)

end Schema

end RecordQuery
