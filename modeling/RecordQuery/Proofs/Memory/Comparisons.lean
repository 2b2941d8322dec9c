import RecordQuery.Memory.Backend

/-!
# Comparisons in memory

The backend in memory asks three things of a comparison: whether its field has a getter, whether the
relation can use the value of the query, and, with each record, what the relation says of the two
values. This file states the last two without getters and records, so that facts on values say
everything about comparisons. The engine for patterns has a say in the second one only.

The four inequalities are refused and tested by one rule, and so are the two relations to patterns.

## Main results

* `Memory.scalar_of_find?`, `Memory.member_of_find?`: what becomes of a comparison of a known field
* `Memory.scalar_of_find?_eq_none`, `Memory.member_of_find?_eq_none`: and of an unknown one
-/

namespace RecordQuery

/-- The relation of an inequality. -/
def Inequality.relation : Inequality → Relation
  | greater => .greater
  | greaterOrEqual => .greaterOrEqual
  | less => .less
  | lessOrEqual => .lessOrEqual

namespace Relation

/-- A relation asks for an order, for equality, or for a pattern. -/
theorem cases_inequality (relation : Relation) :
    (∃ i : Inequality, relation = i.relation) ∨ (relation = .equal ∨ relation = .notEqual) ∨
      relation = .like ∨ relation = .notLike := by
  cases relation with
  | greater => exact .inl ⟨.greater, rfl⟩
  | greaterOrEqual => exact .inl ⟨.greaterOrEqual, rfl⟩
  | less => exact .inl ⟨.less, rfl⟩
  | lessOrEqual => exact .inl ⟨.lessOrEqual, rfl⟩
  | equal | notEqual | like | notLike => simp

/-- Why a value of a query cannot be used as a pattern. -/
def patternRefusal? (engine : Wildcard.Engine) (field : Text) : Value → Option QueryError
  | .string pattern => (engine.refusal? pattern).map (Memory.refusedPattern field pattern)
  | other => some (Memory.notString field other)

/-- Why a relation cannot use a value of a query. -/
def refusal? (relation : Relation) (engine : Wildcard.Engine) (field : Text) (value : Value) :
    Option QueryError :=
  match relation with
  | .equal | .notEqual => none
  | .greater | .greaterOrEqual | .less | .lessOrEqual =>
    if value.isOrderable then none else some (.ofNotComparable field value.display)
  | .like | .notLike => patternRefusal? engine field value

/-- Whether a text matches a pattern. What is no string, pattern or text, is an error. -/
def matchTest (field : Text) (held value : Value) : Except QueryError Bool :=
  match value with
  | .string pattern =>
    match held with
    | .string t => .ok (Wildcard.accepts pattern t)
    | other => .error (Memory.notString field other)
  | other => .error (Memory.notString field other)

/-- What a relation says of the values of a record and of a query. -/
def test (relation : Relation) (field : Text) (held value : Value) : Except QueryError Bool :=
  match relation with
  | .equal => .ok (Value.equals held value)
  | .notEqual => .ok !Value.equals held value
  | .greater => Inequality.greater.test field held value
  | .greaterOrEqual => Inequality.greaterOrEqual.test field held value
  | .less => Inequality.less.test field held value
  | .lessOrEqual => Inequality.lessOrEqual.test field held value
  | .like => matchTest field held value
  | .notLike => (matchTest field held value).map not

variable {engine : Wildcard.Engine}

theorem refusal?_inequality (i : Inequality) (field : Text) (value : Value) :
    i.relation.refusal? engine field value =
      if value.isOrderable then none else some (.ofNotComparable field value.display) := by
  cases i <;> rfl

theorem refusal?_pattern {relation : Relation} (h : relation = .like ∨ relation = .notLike)
    (field : Text) (value : Value) :
    relation.refusal? engine field value = patternRefusal? engine field value := by
  rcases h with rfl | rfl <;> rfl

theorem isOrderable_of_refusal?_eq_none {i : Inequality} {field : Text} {value : Value}
    (h : i.relation.refusal? engine field value = none) : value.isOrderable = true := by
  rw [refusal?_inequality] at h
  split at h
  · assumption
  · cases h

theorem exists_string_of_refusal?_eq_none {relation : Relation} {field : Text} {value : Value}
    (hpattern : relation = .like ∨ relation = .notLike)
    (h : relation.refusal? engine field value = none) :
    ∃ pattern, value = .string pattern ∧ engine.refusal? pattern = none := by
  rw [refusal?_pattern hpattern] at h
  cases value with
  | string pattern => exact ⟨pattern, rfl, Option.map_eq_none_iff.1 h⟩
  | _ => cases h

/-- What is refused is a value without an order, a pattern that is no string, or one that the
engine does not take. -/
theorem exists_of_refusal? {relation : Relation} {field : Text} {value : Value} {e : QueryError}
    (h : relation.refusal? engine field value = some e) :
    (∃ i : Inequality, relation = i.relation ∧ value.isOrderable = false ∧
        e = .ofNotComparable field value.display) ∨
      e = Memory.notString field value ∨
      ∃ pattern reason, value = .string pattern ∧ engine.refusal? pattern = some reason ∧
        e = Memory.refusedPattern field pattern reason := by
  rcases relation.cases_inequality with ⟨i, rfl⟩ | hequality | hpattern
  · rw [refusal?_inequality] at h
    split at h
    · cases h
    · next ho => exact .inl ⟨i, rfl, by simpa using ho, (Option.some.inj h).symm⟩
  · rcases hequality with rfl | rfl <;> cases h
  · rw [refusal?_pattern hpattern] at h
    cases value with
    | string pattern =>
      obtain ⟨reason, hreason, rfl⟩ := Option.map_eq_some_iff.1 h
      exact .inr (.inr ⟨pattern, reason, rfl, hreason, rfl⟩)
    | _ => exact .inr (.inl (Option.some.inj h).symm)

theorem test_inequality (i : Inequality) (field : Text) (held value : Value) :
    i.relation.test field held value = i.test field held value := by
  cases i <;> rfl

end Relation

namespace Memory

variable {R : Type} {getters : Getters R} {engine : Wildcard.Engine} {field : Text}
  {get : R → Value}

theorem ordered_of_find? (h : getters.find? field = some get) (i : Inequality) (value : Value) :
    ordered getters i field value =
      if value.isOrderable then .ok fun r => i.test field (get r) value
      else .error (.ofNotComparable field value.display) := by
  rw [ordered, getter, h]
  cases value.isOrderable <;> rfl

theorem like_of_find? (h : getters.find? field = some get) (value : Value) :
    like getters engine field value =
      match Relation.patternRefusal? engine field value with
      | some e => .error e
      | none => .ok fun r => Relation.matchTest field (get r) value := by
  rw [like, getter, h]
  cases value with
  | string pattern =>
    rw [Relation.patternRefusal?]
    cases hreason : engine.refusal? pattern with
    | some reason => simp only [bind, Except.bind, hreason]; rfl
    | none =>
      simp only [bind, Except.bind, hreason]
      refine congrArg Except.ok (funext fun r => ?_)
      cases get r <;> rfl
  | _ => rfl

/-- **A known field is compared if the relation can use the value.** -/
theorem scalar_of_find? (h : getters.find? field = some get) (relation : Relation)
    (value : Value) :
    scalar getters engine relation field value =
      match relation.refusal? engine field value with
      | some e => .error e
      | none => .ok fun r => relation.test field (get r) value := by
  cases relation with
  | equal | notEqual => simp only [scalar, equal, getter, h]; rfl
  | greater | greaterOrEqual | less | lessOrEqual =>
    simp only [scalar, ordered_of_find? h, Relation.refusal?]
    cases value.isOrderable <;> rfl
  | like => exact like_of_find? h value
  | notLike =>
    simp only [scalar, like_of_find? h, Relation.refusal?]
    cases Relation.patternRefusal? engine field value with
    | some e => rfl
    | none =>
      refine congrArg Except.ok (funext fun r => ?_)
      rw [Predicate.negate_eq, Relation.test]
      cases Relation.matchTest field (get r) value <;> rfl

theorem scalar_eq_ok_iff (h : getters.find? field = some get) {relation : Relation} {value : Value}
    {p : Predicate R} :
    scalar getters engine relation field value = .ok p ↔
      relation.refusal? engine field value = none ∧
        (fun r => relation.test field (get r) value) = p := by
  rw [scalar_of_find? h]
  cases relation.refusal? engine field value <;> simp

theorem scalar_eq_error_iff (h : getters.find? field = some get) {relation : Relation}
    {value : Value} {e : QueryError} :
    scalar getters engine relation field value = .error e ↔
      relation.refusal? engine field value = some e := by
  rw [scalar_of_find? h]
  cases relation.refusal? engine field value <;> simp

theorem member_of_find? (h : getters.find? field = some get) (values : List Value) :
    member getters field values =
      .ok fun r => .ok (values.any fun v => Value.equals v (get r)) := by
  rw [member, getter, h]
  rfl

theorem scalar_of_find?_eq_none (h : getters.find? field = none) (relation : Relation)
    (value : Value) :
    scalar getters engine relation field value = .error (.unknownField field) := by
  cases relation <;> simp only [scalar, equal, ordered, like, getter, h] <;> rfl

theorem member_of_find?_eq_none (h : getters.find? field = none) (values : List Value) :
    member getters field values = .error (.unknownField field) := by
  rw [member, getter, h]
  rfl

end Memory

end RecordQuery
