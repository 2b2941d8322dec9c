import Mathlib.Data.List.Basic
import RecordQuery.Proofs.FirstError
import RecordQuery.Proofs.Memory.Comparisons

/-!
# Opposite operators

Every operator between a field and a value has an opposite: of two opposite queries each record is
found by exactly one. That is plain for `=` and `!=`, and for `≈` and `!≈`, since one of each pair
is made from the other. The inequalities are four tests of their own on values that may have no
order, and there it rests on two facts: an order that is not `>` is `<=`, and the error for values
without an order does not say which inequality was asked for.

So a value without an order is in neither part. It stops both queries, and with the same error.

## Main results

* `Relation.test_opposite`, `Relation.refusal?_opposite`: opposite relations on values
* `Predicate.Opposed.filter`: opposed predicates split a list, or fail alike on it
* `Memory.scalar_opposite`: opposite comparisons, for every field and value
-/

namespace RecordQuery

/-! ## Opposites on values -/

/-- The inequality that holds of ordered values exactly if another one does not. -/
def Inequality.opposite : Inequality → Inequality
  | greater => .lessOrEqual
  | greaterOrEqual => .less
  | less => .greaterOrEqual
  | lessOrEqual => .greater

theorem Inequality.accepts_opposite (i : Inequality) (o : Ordering) :
    i.opposite.accepts o = !i.accepts o := by
  cases i <;> cases o <;> rfl

theorem Inequality.test_opposite (i : Inequality) (field : Text) (left right : Value) :
    i.opposite.test field left right = (i.test field left right).map not := by
  unfold test
  cases Value.compare? left right with
  | none => rfl
  | some o => exact congrArg Except.ok (i.accepts_opposite o)

namespace Relation

/-- The relation that holds exactly if another one does not. -/
def opposite : Relation → Relation
  | equal => .notEqual
  | notEqual => .equal
  | like => .notLike
  | notLike => .like
  | greater => .lessOrEqual
  | greaterOrEqual => .less
  | less => .greaterOrEqual
  | lessOrEqual => .greater

theorem opposite_relation (i : Inequality) : i.relation.opposite = i.opposite.relation := by
  cases i <;> rfl

/-- **Opposite relations refuse the same values**, with the same error. -/
theorem refusal?_opposite (relation : Relation) (engine : Wildcard.Engine) (field : Text)
    (value : Value) :
    relation.opposite.refusal? engine field value = relation.refusal? engine field value := by
  cases relation <;> rfl

/-- **Opposite relations say the opposite of the same values**, or fail with the same error. -/
theorem test_opposite (relation : Relation) (field : Text) (held value : Value) :
    relation.opposite.test field held value = (relation.test field held value).map not := by
  rcases relation.cases_inequality with ⟨i, rfl⟩ | (rfl | rfl) | rfl | rfl
  · rw [opposite_relation, test_inequality, test_inequality, i.test_opposite]
  · rfl
  · exact congrArg Except.ok (Bool.not_not _).symm
  · rfl
  · simp only [opposite, test]
    cases matchTest field held value with
    | error e => rfl
    | ok b => exact congrArg Except.ok (Bool.not_not b).symm

end Relation

/-! ## Opposed predicates -/

namespace Predicate

variable {R : Type} {p p' : Predicate R}

/-- Two predicates give opposite answers on each record, or the same error. -/
def Opposed (p p' : Predicate R) : Prop := ∀ r, p' r = (p r).map not

/-- Two lists are the two parts of a list: both are in its order, no record is in both, and together
they have every record as often as it has. -/
structure Splits (records kept kept' : List R) : Prop where
  left : kept.Sublist records
  right : kept'.Sublist records
  disjoint : kept.Disjoint kept'
  perm : (kept ++ kept').Perm records

theorem splits_filter (accepts : R → Bool) (records : List R) :
    Splits records (records.filter accepts) (records.filter fun r => !accepts r) where
  left := List.filter_sublist
  right := List.filter_sublist
  disjoint := by
    intro r hr hr'
    have haccepts := (List.mem_filter.1 hr).2
    have hrefuses := (List.mem_filter.1 hr').2
    rw [haccepts] at hrefuses
    cases hrefuses
  perm := List.filter_append_perm accepts records

/-- **Opposed predicates split every list of records**, unless a record cannot be tested: then both
stop at the first such record. -/
theorem Opposed.filter (h : Opposed p p') (records : List R) :
    (∃ e, p.filter records = .error e ∧ p'.filter records = .error e) ∨
      ∃ kept kept', p.filter records = .ok kept ∧ p'.filter records = .ok kept' ∧
        Splits records kept kept' := by
  obtain rfl : p' = fun r => (p r).map not := funext h
  rcases FirstError.exists_or_forall p records with ⟨i, e, hfirst⟩ | hall
  · refine .inl ⟨e, filterOn_eq_error_iff.2 ⟨i, ?_⟩, filterOn_eq_error_iff.2 ⟨i, ?_⟩⟩
    · rwa [List.map_id]
    · rwa [List.map_id, FirstError.map_iff]
  · let accepts : R → Bool := fun r => p r = .ok true
    have haccepts : ∀ r ∈ records, p r = .ok (accepts r) := by
      intro r hr
      obtain ⟨b, hb⟩ := hall r hr
      cases b <;> simp [accepts, hb]
    have hrefuses : ∀ r ∈ records, (p r).map not = .ok !accepts r := by
      intro r hr
      rw [haccepts r hr]
      rfl
    exact .inr ⟨_, _, filter_eq_ok p accepts haccepts, filter_eq_ok _ _ hrefuses,
      splits_filter accepts records⟩

end Predicate

namespace Memory

/-- **Opposite operators share the records out.** For every table of getters, engine for patterns,
field and value, both comparisons are refused with the same error; or both become predicates that
give opposite answers or the same error on each record, so that each list of records is split by the
two, or neither can filter it and both report the same error. -/
theorem scalar_opposite {R : Type} (getters : Getters R) (engine : Wildcard.Engine)
    (relation : Relation) (field : Text) (value : Value) :
    (∃ e, scalar getters engine relation field value = .error e ∧
      scalar getters engine relation.opposite field value = .error e) ∨
    ∃ p p', scalar getters engine relation field value = .ok p ∧
      scalar getters engine relation.opposite field value = .ok p' ∧ p.Opposed p' ∧
      ∀ records,
        (∃ e, p.filter records = .error e ∧ p'.filter records = .error e) ∨
        ∃ kept kept', p.filter records = .ok kept ∧ p'.filter records = .ok kept' ∧
          Predicate.Splits records kept kept' := by
  cases hfind : getters.find? field with
  | none =>
    exact .inl ⟨_, scalar_of_find?_eq_none hfind relation value,
      scalar_of_find?_eq_none hfind relation.opposite value⟩
  | some get =>
    have hopposite := relation.refusal?_opposite engine field value
    cases hrefusal : relation.refusal? engine field value with
    | some e =>
      exact .inl ⟨e, (scalar_eq_error_iff hfind).2 hrefusal,
        (scalar_eq_error_iff hfind).2 (hopposite.trans hrefusal)⟩
    | none =>
      have hopposed : Predicate.Opposed (fun r => relation.test field (get r) value)
          (fun r => relation.opposite.test field (get r) value) :=
        fun r => relation.test_opposite field (get r) value
      exact .inr ⟨_, _, (scalar_eq_ok_iff hfind).2 ⟨hrefusal, rfl⟩,
        (scalar_eq_ok_iff hfind).2 ⟨hopposite.trans hrefusal, rfl⟩, hopposed, hopposed.filter⟩

end Memory

end RecordQuery
