import RecordQuery.Compile.Error
import RecordQuery.Value.Basic

/-!
# Inequalities of values

The value of a record is compared with the value of a query. If the two have no order, the error
says why, and the first of these that applies is named: the record's value has no order at all, the
query's has none, the two are of different kinds, or, among floating-point numbers, one of them is
a NaN.
-/

namespace RecordQuery

/-- The relations that ask for an order. -/
inductive Inequality
  | greater
  | greaterOrEqual
  | less
  | lessOrEqual
  deriving DecidableEq, Repr

namespace Inequality

/-- Whether an inequality holds of two values that are ordered so. -/
def accepts : Inequality → Ordering → Bool
  | greater, o => o.isGT
  | greaterOrEqual, o => o.isGE
  | less, o => o.isLT
  | lessOrEqual, o => o.isLE

/-- Why two values have no order. -/
def incomparable (field : Text) (left right : Value) : QueryError :=
  let both := left.display ++ " and ".toList ++ right.display
  if !left.isOrderable then .ofNotComparable field left.display
  else if !right.isOrderable then .ofNotComparable field right.display
  else if left.kind ≠ right.kind then .ofTypeMismatch field both right.typeName
  else .ofNotComparable field both

/-- Whether an inequality holds between the values of a record and of a query. -/
def test (i : Inequality) (field : Text) (left right : Value) : Except QueryError Bool :=
  match Value.compare? left right with
  | some o => .ok (i.accepts o)
  | none => .error (incomparable field left right)

theorem test_of_compare? {i : Inequality} {left right : Value} {o : Ordering}
    (h : Value.compare? left right = some o) (field : Text) :
    i.test field left right = .ok (i.accepts o) := by
  simp [test, h]

end Inequality

end RecordQuery
