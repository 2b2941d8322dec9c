import RecordQuery.Compile.Backend

/-!
# Traces of compilations

The tracing backend builds nothing; it keeps a list of what it was asked for. A predicate is the
place of its call in the list. After a failed compilation the list holds the calls that were made
until then, so two ways of compiling can be compared call by call.
-/

namespace RecordQuery

/-- What a backend was asked for. Operands are the places of earlier calls. -/
inductive Call
  | scalar (relation : Relation) (field : Text) (value : Value)
  | member (field : Text) (values : List Value)
  | join (connective : Connective) (left right : Nat)
  | group (inner : Nat)
  deriving DecidableEq, Repr

namespace Trace

/-- Adds a call to the list; its place stands for the predicate. -/
def record (call : Call) : StateM (List Call) Nat := fun calls =>
  (calls.length, calls ++ [call])

/-- Adds the call for a comparison of a field, unless only other fields are known. -/
def recordOn (known : Option (List Text)) (field : Text) (call : Call) :
    ExceptT QueryError (StateM (List Call)) Nat :=
  match known with
  | some fields => if field ∈ fields then record call else throw (.unknownField field)
  | none => record call

/-- The tracing backend. If `known` is given, other fields are unknown. -/
def backend (known : Option (List Text)) : Backend (StateM (List Call)) Nat where
  scalar relation field value := recordOn known field (.scalar relation field value)
  member field values := recordOn known field (.member field values)
  join connective left right := record (.join connective left right)
  group inner := record (.group inner)

end Trace

end RecordQuery
