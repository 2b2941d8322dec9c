import RecordQuery.Compile.Error

/-!
# Predicates on records

A predicate says of a record whether it is accepted, or why that cannot be said. Connectives test
their right operand only if the left one leaves the question open, so an error of the right operand
is not met before.

## Main results

* `Predicate.filter_eq_ok`: without errors, filtering is the filter of lists
-/

namespace RecordQuery

/-- A test of records, which may fail. -/
abbrev Predicate (R : Type) := R → Except QueryError Bool

namespace Predicate

variable {R : Type}

/-- Both predicates; the second is tested if the first accepts. -/
def and (p q : Predicate R) : Predicate R := fun r => do
  if ← p r then q r else return false

/-- One of two predicates; the second is tested if the first refuses. -/
def or (p q : Predicate R) : Predicate R := fun r => do
  if ← p r then return true else q r

/-- The predicate that accepts what another one refuses. -/
def negate (p : Predicate R) : Predicate R := fun r => do
  return !(← p r)

/-- Two predicates joined by a connective. -/
def join : Connective → Predicate R → Predicate R → Predicate R
  | .and => and
  | .or => or

/-- The items whose records are accepted, in order, up to the first error. -/
def filterOn {α : Type} (record : α → R) (p : Predicate R) :
    List α → Except QueryError (List α)
  | [] => .ok []
  | a :: later => do
    let accepted ← p (record a)
    let kept ← filterOn record p later
    return if accepted then a :: kept else kept

/-- The records that are accepted, in order, up to the first error. -/
def filter (p : Predicate R) (records : List R) : Except QueryError (List R) :=
  p.filterOn id records

/-! ## Equations -/

theorem and_eq (p q : Predicate R) (r : R) :
    p.and q r = match p r with
      | .ok true => q r
      | .ok false => .ok false
      | .error e => .error e := by
  unfold and
  rcases p r with e | _ | _ <;> rfl

theorem or_eq (p q : Predicate R) (r : R) :
    p.or q r = match p r with
      | .ok true => .ok true
      | .ok false => q r
      | .error e => .error e := by
  unfold or
  rcases p r with e | _ | _ <;> rfl

theorem negate_eq (p : Predicate R) (r : R) :
    p.negate r = match p r with
      | .ok b => .ok !b
      | .error e => .error e := by
  unfold negate
  rcases p r with e | b <;> rfl

theorem filter_eq_ok (p : Predicate R) (accepts : R → Bool) {records : List R}
    (h : ∀ r ∈ records, p r = .ok (accepts r)) :
    p.filter records = .ok (records.filter accepts) := by
  unfold filter
  induction records with
  | nil => rfl
  | cons r later ih =>
    have hr := h r List.mem_cons_self
    have hl := ih fun r hr => h r (List.mem_cons_of_mem _ hr)
    simp only [filterOn, id, hr, hl, bind, Except.bind, List.filter_cons]
    rfl

end Predicate

end RecordQuery
