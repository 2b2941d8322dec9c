import RecordQuery.Proofs.Compile.Comparisons
import RecordQuery.Proofs.Memory.Chain
import RecordQuery.Proofs.Memory.Comparisons
import RecordQuery.Proofs.Record.Typing

/-!
# Filtering is sound for the types of a schema

Types are looked at when a query is compiled and when rows are loaded, and not when a record is
tested. This file says what is left to go wrong then. A record holds a value of the field's type, as
the query does, so the two are of one kind; what has no order has been refused before. There remain
`null`, for which no type stands, and NaN, which has its type but no place in the order.

`Relation.Untestable` lists these cases with their errors. Equality and membership are not among
them, and no error says that kinds differ.

## From comparisons to queries

What is tested of a query are its comparisons, though not all of them on every record. So an error
of the whole is the error of one of them.

## Main results

* `Relation.test_eq_error_iff`: when a relation of values of one type cannot be tested
* `Memory.exists_comparison_of_error`: an error of a predicate comes from one of its comparisons
* `Memory.exists_pattern_of_compile`: the patterns of a query that compiles are taken by the engine
* `Schema.test_of_ofRows`: loaded records are of their schema, and what tests on them can end with
-/

namespace RecordQuery

/-! ## Values of one type -/

theorem Value.compare?_null (value : Value) : compare? .null value = none := by
  cases value <;> rfl

/-- Why a relation of the values of a record and of a query cannot be tested: the record has no
value for an inequality or for a pattern, or an inequality meets a NaN. -/
inductive Relation.Untestable (field : Text) (held value : Value) : Relation → QueryError → Prop
  | null (i : Inequality) (h : held = .null) :
    Untestable field held value i.relation (.ofNotComparable field "null".toList)
  | nan (i : Inequality) (h : held ≠ .null) (hnan : held.IsNan ∨ value.IsNan) :
    Untestable field held value i.relation
      (.ofNotComparable field (held.display ++ " and ".toList ++ value.display))
  | like (h : held = .null) :
    Untestable field held value .like (.ofTypeMismatch field "null".toList "string".toList)
  | notLike (h : held = .null) :
    Untestable field held value .notLike (.ofTypeMismatch field "null".toList "string".toList)

section Values

variable {engine : Wildcard.Engine} {type : ValueType} {held value : Value} {field : Text}
  {e : QueryError}

theorem Inequality.test_null (i : Inequality) (field : Text) (value : Value) :
    i.test field .null value = .error (.ofNotComparable field "null".toList) := by
  rw [test, Value.compare?_null]
  rfl

/-- Between values of one type, only a NaN keeps an inequality from being tested. -/
theorem Inequality.test_eq_error_iff (hheld : held.HasType type) (hvalue : value.HasType type)
    (ho : value.isOrderable = true) (i : Inequality) :
    i.test field held value = .error e ↔
      (held.IsNan ∨ value.IsNan) ∧
        .ofNotComparable field (held.display ++ " and ".toList ++ value.display) = e := by
  have hkind : held.kind = value.kind := hheld.kind_eq.trans hvalue.kind_eq.symm
  have hheldo : held.isOrderable = true := by
    rw [← Bool.not_eq_false, hheld.isOrderable_eq_false_iff, ← hvalue.isOrderable_eq_false_iff, ho]
    decide
  rw [← Value.compare?_eq_none_iff hkind ho, test]
  cases Value.compare? held value with
  | some o => simp
  | none => simp [incomparable, hheldo, ho, hkind]

theorem Relation.Untestable.test_eq {relation : Relation} (hheld : held.Fits type)
    (hvalue : value.HasType type) (hr : relation.refusal? engine field value = none)
    (h : Untestable field held value relation e) :
    relation.test field held value = .error e := by
  cases h with
  | null i h =>
    rw [test_inequality, h, Inequality.test_null]
  | nan i h hnan =>
    rw [test_inequality]
    have ho := isOrderable_of_refusal?_eq_none hr
    exact (Inequality.test_eq_error_iff (hheld.resolve_left h) hvalue ho i).2 ⟨hnan, rfl⟩
  | like h =>
    obtain ⟨pattern, rfl, -⟩ := exists_string_of_refusal?_eq_none (.inl rfl) hr
    rw [h]
    rfl
  | notLike h =>
    obtain ⟨pattern, rfl, -⟩ := exists_string_of_refusal?_eq_none (.inr rfl) hr
    rw [h]
    rfl

/-- **A relation of values of one type can be tested, but for `null` and NaN.** -/
theorem Relation.test_eq_error_iff {relation : Relation} (hheld : held.Fits type)
    (hvalue : value.HasType type) (hr : relation.refusal? engine field value = none) :
    relation.test field held value = .error e ↔ Untestable field held value relation e := by
  refine ⟨fun h => ?_, Relation.Untestable.test_eq hheld hvalue hr⟩
  rcases relation.cases_inequality with ⟨i, rfl⟩ | hequality | hpattern
  · rw [test_inequality] at h
    rcases hheld with rfl | hheld
    · rw [Inequality.test_null] at h
      cases h
      exact .null i rfl
    · have ho := isOrderable_of_refusal?_eq_none hr
      obtain ⟨hnan, rfl⟩ := (Inequality.test_eq_error_iff hheld hvalue ho i).1 h
      exact .nan i hheld.ne_null hnan
  · rcases hequality with rfl | rfl <;> cases h
  · obtain ⟨pattern, rfl, -⟩ := exists_string_of_refusal?_eq_none hpattern hr
    rcases hheld with rfl | hheld
    · rcases hpattern with rfl | rfl <;> cases h
      · exact .like rfl
      · exact .notLike rfl
    · obtain ⟨t, rfl⟩ := Value.exists_string_of_kind (hheld.kind_eq.trans hvalue.kind_eq.symm)
      rcases hpattern with rfl | rfl <;> cases h

end Values

/-! ## Comparisons of a query -/

/-- Why a comparison cannot be tested on a record. -/
def Comparison.Untestable (mappers : Mappers) (record : Record) (c : Comparison)
    (e : QueryError) : Prop :=
  ∃ relation value, c.operator = .relation relation ∧
    Mappers.map mappers c.field c.literal = .ok value ∧
    Relation.Untestable c.field (record.get c.field) value relation e

namespace Schema

variable {s : Schema} {engine : Wildcard.Engine} {mappers : Mappers} {record : Record}

theorem scalar_eq_error_iff (h : s.mappers = .ok mappers) (hrecord : record.Fits s)
    {relation : Relation} {field literal : Text} {value : Value} {p : Predicate Record}
    (hmap : Mappers.map mappers field literal = .ok value)
    (hp : (s.memory engine).scalar relation field value = .ok p) (e : QueryError) :
    p record = .error e ↔ Relation.Untestable field (record.get field) value relation e := by
  have hnodup := nodup_of_mappers h
  cases hf : s.field? field with
  | none =>
    have hget := find?_getters_eq_none hnodup hf
    cases (Memory.scalar_of_find?_eq_none hget relation value).symm.trans hp
  | some f =>
    have hget := find?_getters_of_field? hnodup hf
    obtain ⟨hr, rfl⟩ := (Memory.scalar_eq_ok_iff hget).1 hp
    have hvalue := ValueType.hasType_of_read (read_of_map h hf hmap)
    exact Relation.test_eq_error_iff (hrecord.get hf) hvalue hr

theorem member_ne_error (h : s.mappers = .ok mappers) {field : Text} {values : List Value}
    {p : Predicate Record} (hp : (s.memory engine).member field values = .ok p) (e : QueryError) :
    p record ≠ .error e := by
  have hnodup := nodup_of_mappers h
  cases hf : s.field? field with
  | none =>
    have hget := find?_getters_eq_none hnodup hf
    cases (Memory.member_of_find?_eq_none hget values).symm.trans hp
  | some f =>
    have hget := find?_getters_of_field? hnodup hf
    cases (Memory.member_of_find? hget values).symm.trans hp
    exact nofun

/-- **When a compiled comparison cannot be tested.** -/
theorem comparison_eq_error_iff (h : s.mappers = .ok mappers) (hrecord : record.Fits s)
    {c : Comparison} {p : Predicate Record}
    (hp : (s.memory engine).comparison mappers c.operator c.field c.literal = .ok p)
    (e : QueryError) :
    p record = .error e ↔ c.Untestable mappers record e := by
  obtain ⟨operator, field, literal⟩ := c
  cases operator with
  | relation relation =>
    obtain ⟨value, hmap, hp⟩ := Backend.comparison_relation_eq_ok_iff.1 hp
    rw [scalar_eq_error_iff h hrecord hmap hp]
    constructor
    · intro hu
      exact ⟨relation, value, rfl, hmap, hu⟩
    · rintro ⟨relation', value', hrelation, hmap', hu⟩
      obtain rfl := Comparator.relation.inj hrelation
      obtain rfl := Except.ok.inj (hmap.symm.trans hmap')
      exact hu
  | member =>
    obtain ⟨elements, values, -, -, hp⟩ := Backend.comparison_member_eq_ok_iff.1 hp
    refine iff_of_false (member_ne_error h hp e) ?_
    rintro ⟨relation, value, hrelation, -⟩
    cases hrelation

end Schema

/-! ## Queries -/

theorem Connective.step_eq_error {ε : Type} {c : Connective} {value operand : Except ε Bool} {e : ε}
    (h : c.step value operand = .error e) : value = .error e ∨ operand = .error e := by
  cases value with
  | error e' => cases c <;> exact .inl h
  | ok accepted => cases c <;> cases accepted <;> first | exact .inr h | cases h

/-- **An error of a predicate comes from one of its comparisons.** -/
theorem Memory.exists_comparison_of_error {R : Type} {getters : Getters R}
    {engine : Wildcard.Engine} {mappers : Mappers} {q : Query} {p : Predicate R}
    (hp : (backend getters engine).compile mappers q = .ok p) {r : R}
    {e : QueryError} (he : p r = .error e) :
    ∃ c ∈ q.comparisons, ∃ pc,
      (backend getters engine).comparison mappers c.operator c.field c.literal = .ok pc ∧
        pc r = .error e := by
  induction q generalizing p with
  | comparison operator field literal =>
    rw [Backend.compile_comparison] at hp
    exact ⟨⟨operator, field, literal⟩, List.mem_singleton_self _, p, hp, he⟩
  | joined c left right ihl ihr =>
    obtain ⟨pl, pr, hl, hr, rfl⟩ := Backend.compile_joined_eq_ok_iff.1 hp
    rcases Connective.step_eq_error ((join_apply c pl pr r).symm.trans he) with he | he
    · obtain ⟨c', hmem, hc'⟩ := ihl hl he
      exact ⟨c', List.mem_append_left _ hmem, hc'⟩
    · obtain ⟨c', hmem, hc'⟩ := ihr hr he
      exact ⟨c', List.mem_append_right _ hmem, hc'⟩
  | dangling c left => cases hp
  | group inner ih =>
    obtain ⟨pi, hi, rfl⟩ := Backend.compile_group_eq_ok_iff.1 hp
    exact ih hi he

/-- **A query that compiles asks for no pattern that the engine refuses.** -/
theorem Memory.exists_pattern_of_compile {R : Type} {getters : Getters R}
    {engine : Wildcard.Engine} {mappers : Mappers} {q : Query} {p : Predicate R}
    (hp : (backend getters engine).compile mappers q = .ok p) {relation : Relation}
    {field literal : Text} (hc : ⟨.relation relation, field, literal⟩ ∈ q.comparisons)
    (hpattern : relation = .like ∨ relation = .notLike) :
    ∃ pattern, Mappers.map mappers field literal = .ok (.string pattern) ∧
      engine.refusal? pattern = none := by
  obtain ⟨pc, hpc⟩ := Backend.exists_comparison_of_compile hp hc
  obtain ⟨value, hmap, hscalar⟩ := Backend.comparison_relation_eq_ok_iff.1 hpc
  cases hget : getters.find? field with
  | none => cases (scalar_of_find?_eq_none hget relation value).symm.trans hscalar
  | some get =>
    obtain ⟨hr, -⟩ := (scalar_eq_ok_iff hget).1 hscalar
    obtain ⟨pattern, rfl, htaken⟩ := Relation.exists_string_of_refusal?_eq_none hpattern hr
    exact ⟨pattern, hmap, htaken⟩

/-- An engine that takes no pattern has its reason reported. -/
example :
    let getters : Getters Text := Table.empty.insert ['a'] Value.string
    let engine : Wildcard.Engine := ⟨fun _ => some "too large".toList⟩
    (Memory.backend getters engine).compile .empty (.comparison (.relation .like) ['a'] ['*']) =
      .error (.mapping ⟨['a'], ['*'], .stated "too large".toList⟩) := rfl

/-- **Filtering is sound for the types of a schema.** Loaded records have the fields of the schema
with values of their types, or with `null`. A query that compiles, whatever its tree, has
comparisons that compile, and each of them can be tested on each record but for the listed reasons:
a record without a value for an inequality or a pattern, and an inequality with a NaN. A test of the
query gives a truth value, or one of its comparisons has such a reason and this is the error. -/
theorem Schema.test_of_ofRows {s : Schema} {engine : Wildcard.Engine} {mappers : Mappers}
    (h : s.mappers = .ok mappers) {rows : List Json} {records : List Record}
    (hrows : Record.ofRows s mappers rows = .ok records) {q : Query} {p : Predicate Record}
    (hp : (s.memory engine).compile mappers q = .ok p) :
    ∀ record ∈ records, record.Fits s ∧
      (∀ c ∈ q.comparisons, ∃ pc,
        (s.memory engine).comparison mappers c.operator c.field c.literal = .ok pc ∧
          ∀ e, pc record = .error e ↔ c.Untestable mappers record e) ∧
      ((∃ accepted, p record = .ok accepted) ∨
        ∃ e, p record = .error e ∧ ∃ c ∈ q.comparisons, c.Untestable mappers record e) := by
  intro record hmem
  have hrecord := Record.fits_of_ofRows h hrows record hmem
  refine ⟨hrecord, fun c hc => ?_, ?_⟩
  · obtain ⟨pc, hpc⟩ := Backend.exists_comparison_of_compile hp hc
    exact ⟨pc, hpc, comparison_eq_error_iff h hrecord hpc⟩
  · cases hresult : p record with
    | ok accepted => exact .inl ⟨accepted, rfl⟩
    | error e =>
      obtain ⟨c, hc, pc, hpc, he⟩ := Memory.exists_comparison_of_error hp hresult
      exact .inr ⟨e, rfl, c, hc, (comparison_eq_error_iff h hrecord hpc e).1 he⟩

/-- A record with a NaN, read from a row: it differs from a number, but whether it is greater cannot
be tested. -/
theorem Schema.test_of_ofRows_nan :
    let s : Schema := ⟨[⟨['x'], none, .real .double⟩]⟩
    let q : Query := .joined .and (.comparison (.relation .notEqual) ['x'] ['1'])
      (.comparison (.relation .greater) ['x'] ['1'])
    ∃ mappers record p, s.mappers = .ok mappers ∧
      Record.ofRows s mappers [.object [(['x'], .string "NaN".toList)]] = .ok [record] ∧
      s.memory.compile mappers q = .ok p ∧
      record.Fits s ∧ record.get ['x'] = .real .double .nan ∧
      ∃ e, p record = .error e ∧ ∃ c ∈ q.comparisons, c.Untestable mappers record e := by
  intro s q
  obtain ⟨mappers, h⟩ : ∃ mappers, s.mappers = .ok mappers := ⟨_, rfl⟩
  obtain ⟨record, p, hrows, hp, hget, hresult⟩ : ∃ record p,
      Record.ofRows s mappers [.object [(['x'], .string "NaN".toList)]] = .ok [record] ∧
      s.memory.compile mappers q = .ok p ∧ record.get ['x'] = .real .double .nan ∧
      ∀ accepted, p record ≠ .ok accepted := by
    obtain rfl := Except.ok.inj h
    exact ⟨_, _, rfl, rfl, rfl, nofun⟩
  obtain ⟨hfits, -, hout⟩ := test_of_ofRows h hrows hp record (List.mem_singleton_self _)
  exact ⟨mappers, record, p, h, hrows, hp, hfits, hget,
    hout.resolve_left fun ⟨accepted, ha⟩ => hresult accepted ha⟩

end RecordQuery
