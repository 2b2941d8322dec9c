import RecordQuery.Proofs.Memory.Comparisons
import RecordQuery.Proofs.Value.Order

/-!
# Smaller, equal, greater

Six relations ask how two values are ordered, and the backend answers them by two ways of its own:
equality is structural, the inequalities go through the order. On values that can be compared the
two agree, so that of `<`, `=` and `>` one says yes, and the other three relations say nothing new.
`Trichotomy` is this agreement, stated of answers only.

Values that cannot be compared are a matter of the values alone. The error does not know which
inequality was asked for.

## Main results

* `Relation.trichotomy_answer`: the answers that an order gives
* `Relation.test_of_compare?`: compared values give these answers
* `Memory.scalar_trichotomy`: the order is lawful, and comparisons in memory are read off it
-/

namespace RecordQuery

/-! ## Answers -/

namespace Relation

/-- What a relation says of two values that are ordered so. Patterns do not ask for the order. -/
def answer (o : Ordering) : Relation → Bool
  | equal => o == .eq
  | notEqual => o != .eq
  | greater => o.isGT
  | greaterOrEqual => o.isGE
  | less => o.isLT
  | lessOrEqual => o.isLE
  | like | notLike => false

/-- Exactly one of `<`, `=` and `>` holds, and it decides about the others. -/
structure Trichotomy (holds : Relation → Bool) : Prop where
  one : [holds .less, holds .equal, holds .greater].count true = 1
  lessOrEqual : holds .lessOrEqual = (holds .less || holds .equal)
  greaterOrEqual : holds .greaterOrEqual = (holds .greater || holds .equal)
  notEqual : holds .notEqual = (holds .less || holds .greater)

theorem trichotomy_answer (o : Ordering) : Trichotomy (answer o) := by
  cases o <;> exact ⟨rfl, rfl, rfl, rfl⟩

/-- A relation that is no matter of patterns uses every value that can be compared. -/
theorem refusal?_of_isOrderable {relation : Relation} (hlike : relation ≠ .like)
    (hnotLike : relation ≠ .notLike) {value : Value} (h : value.isOrderable = true)
    (engine : Wildcard.Engine) (field : Text) : relation.refusal? engine field value = none := by
  rcases relation.cases_inequality with ⟨i, rfl⟩ | (rfl | rfl) | rfl | rfl
  · rw [refusal?_inequality, if_pos h]
  · rfl
  · rfl
  · exact absurd rfl hlike
  · exact absurd rfl hnotLike

/-- **Compared values give the answers of their order.** -/
theorem test_of_compare? {relation : Relation} (hlike : relation ≠ .like)
    (hnotLike : relation ≠ .notLike) {held value : Value} {o : Ordering}
    (h : Value.compare? held value = some o) (field : Text) :
    relation.test field held value = .ok (relation.answer o) := by
  have hequals : Value.equals held value = (o == .eq) := Value.equals_eq_of_compare? h
  cases relation with
  | equal | notEqual => simp [test, answer, hequals, bne]
  | greater | greaterOrEqual | less | lessOrEqual => exact Inequality.test_of_compare? h field
  | like => exact absurd rfl hlike
  | notLike => exact absurd rfl hnotLike

end Relation

/-! ## Values that cannot be compared -/

/-- **The error of an inequality does not know which one it is.** -/
theorem Inequality.exists_test_of_compare?_eq_none {held value : Value}
    (h : Value.compare? held value = none) (field : Text) :
    ∃ e : MappingError, e.field = field ∧
      ∀ i : Inequality, i.test field held value = .error (.mapping e) := by
  have htest : ∀ i : Inequality,
      i.test field held value = .error (incomparable field held value) := by
    intro i
    rw [test, h]
  have hmapping : ∃ e : MappingError,
      e.field = field ∧ incomparable field held value = .mapping e := by
    unfold incomparable
    split_ifs <;> exact ⟨_, rfl, rfl⟩
  obtain ⟨e, hfield, he⟩ := hmapping
  exact ⟨e, hfield, fun i => by rw [htest i, he]⟩

namespace Memory

open Value

/-- **Comparisons in memory are read off a lawful order.** Values that are no floating-point numbers
are compared exactly if they are of one kind and it is neither that of symbols nor that of `null`;
the comparison can be read from either side, it is transitive, and it calls equal what equality
does. If the value of a record and that of a query are compared, the six relations compile and agree
with the order on the record; if they are not, all inequalities fail with one error about the field.
-/
theorem scalar_trichotomy {a b : Value} (ha : ¬ a.IsReal) (hb : ¬ b.IsReal) (c : Value) :
    ((compare? a b).isSome = true ↔ a.kind = b.kind ∧ a.kind ≠ .enum ∧ a.kind ≠ .null) ∧
    compare? b a = (compare? a b).map Ordering.swap ∧
    (∀ o p, compare? a b = some o → compare? b c = some p → o = p ∨ o = .eq ∨ p = .eq →
      compare? a c = some (o.then p)) ∧
    ((compare? a b).isSome = true → (compare? a b = some .eq ↔ equals a b = true)) ∧
    ∀ {R : Type} (getters : Getters R) (engine : Wildcard.Engine) (field : Text) (get : R → Value),
      getters.find? field = some get → ∀ (r : R) (value : Value),
        ((compare? (get r) value).isSome = true →
          ∃ holds, Relation.Trichotomy holds ∧
            ∀ relation : Relation, relation ≠ .like → relation ≠ .notLike →
              ∃ p, scalar getters engine relation field value = .ok p ∧
                p r = .ok (holds relation)) ∧
        (compare? (get r) value = none →
          ∃ e : MappingError, e.field = field ∧
            ∀ i : Inequality, i.test field (get r) value = .error (.mapping e)) := by
  refine ⟨isSome_compare?_iff ha hb, compare?_swap ha hb,
    fun o p hab hbc => compare?_trans ha hb hab hbc, fun hsome => ?_,
    fun getters engine field get hfind r value => ⟨fun hsome => ?_, fun hnone => ?_⟩⟩
  · rw [compare?_eq_some_eq_iff ha hsome, equals_iff fun hboth => ha hboth.1]
  · obtain ⟨o, ho⟩ := Option.isSome_iff_exists.1 hsome
    refine ⟨Relation.answer o, Relation.trichotomy_answer o, fun relation hlike hnotLike => ?_⟩
    have hrefusal : relation.refusal? engine field value = none :=
      Relation.refusal?_of_isOrderable hlike hnotLike (isOrderable_of_compare? ho) engine field
    exact ⟨_, (scalar_eq_ok_iff hfind).2 ⟨hrefusal, rfl⟩,
      Relation.test_of_compare? hlike hnotLike ho field⟩
  · exact Inequality.exists_test_of_compare?_eq_none hnone field

/-- A leap second is smaller than the second after it, which is the first of a year. -/
theorem scalar_trichotomy_leapSecond :
    let leap : Value := .dateTime ⟨⟨2016, 12, 31, by decide, by decide, by decide⟩,
      ⟨23, 59, 60, 0, by decide, by decide, by decide, by decide⟩⟩
    let year : Value := .dateTime ⟨⟨2017, 1, 1, by decide, by decide, by decide⟩, .midnight⟩
    let getters : Getters Value := Table.empty.insert ['t'] id
    (¬ leap.IsReal ∧ ¬ year.IsReal ∧ getters.find? ['t'] = some id) ∧
      compare? leap year = some .lt ∧ compare? year leap = some .gt ∧
      (∃ holds, Relation.Trichotomy holds ∧
        ∀ relation : Relation, relation ≠ .like → relation ≠ .notLike →
          ∃ p, scalar getters .unlimited relation ['t'] year = .ok p ∧
            p leap = .ok (holds relation)) ∧
      ∃ e : MappingError, e.field = ['t'] ∧
        ∀ i : Inequality, i.test ['t'] .null year = .error (.mapping e) := by
  intro leap year getters
  have hleap : ¬ leap.IsReal := nofun
  have hyear : ¬ year.IsReal := nofun
  have hlt : compare? leap year = some .lt := by decide
  obtain ⟨-, hswap, -, -, h⟩ := scalar_trichotomy hleap hyear .null
  have hfind : getters.find? ['t'] = some id := rfl
  have hsome : (compare? (id leap) year).isSome = true := by rw [id, hlt, Option.isSome_some]
  refine ⟨⟨hleap, hyear, hfind⟩, hlt, ?_, (h getters .unlimited _ id hfind leap year).1 hsome,
    (h getters .unlimited _ id hfind .null year).2 rfl⟩
  rw [hswap, hlt]
  rfl

end Memory

end RecordQuery
