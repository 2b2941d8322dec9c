import Mathlib.Data.List.Basic
import RecordQuery.Proofs.Compile.Comparisons
import RecordQuery.Proofs.Memory.Comparisons
import RecordQuery.Proofs.Schema.Tables
import RecordQuery.Sql.Condition

/-!
# One schema, two backends

A schema gives the getters and the mappers of the backend in memory, and the columns of the one for
SQL. This file compares what the two make of the same text.

## One comparison

The backends look at a comparison in different orders: SQL first looks at the pattern, and then for
the column; in memory the getter comes first. That they still refuse it for the same reason has two
causes. The tables of a schema have the same names. And the literal of a field that none of them has
is a string, so its pattern is one that SQL has nothing against.

Only in memory is an inequality refused with a value that has no order. Mapped literals have one,
but for the symbols of enums.

## Main results

* `Schema.follows_comparison`: on each comparison, SQL follows the backend in memory
* `Schema.refusedOrder_of_comparison`: which comparisons only the backend in memory refuses
* `Schema.compileText_memory_sql`: how the two compare on every text
-/

namespace RecordQuery

/-! ## Refusing an order -/

namespace QueryError

/-- The error says that a value has no order. -/
def RefusesOrder (e : QueryError) : Prop :=
  ∃ error, e = .mapping error ∧ error.cause.reason = "Cannot compare".toList

theorem refusesOrder_ofNotComparable (field shown : Text) :
    (ofNotComparable field shown).RefusesOrder := ⟨_, rfl, rfl⟩

theorem not_refusesOrder_of_isReading {error : MappingError} (h : error.cause.IsReading) :
    ¬ (mapping error).RefusesOrder := by
  rintro ⟨error', heq, hreason⟩
  obtain rfl := mapping.inj heq
  exact h.reason_ne hreason

theorem not_refusesOrder_of_ne {e : QueryError} (h : ∀ error, e ≠ mapping error) :
    ¬ e.RefusesOrder := by
  rintro ⟨error, heq, -⟩
  exact h error heq

theorem not_refusesOrder_ofTypeMismatch (field shown expected : Text) :
    ¬ (ofTypeMismatch field shown expected).RefusesOrder := by
  rintro ⟨error, heq, hreason⟩
  obtain rfl := mapping.inj heq
  cases congrArg List.head? hreason

end QueryError

/-! ## Comparisons for SQL -/

namespace Sql

variable {names : Names} {field : Text}

theorem exists_scalar_of_operand {column : Text} (h : names.find? field = some column)
    {relation : Relation} {value bound : Value} (ho : operand relation field value = .ok bound) :
    ∃ condition, scalar names relation field value = .ok condition := by
  rw [scalar, ho, Names.column, h]
  exact ⟨_, rfl⟩

theorem scalar_of_find?_eq_none (h : names.find? field = none) (relation : Relation)
    (pattern : Text) :
    scalar names relation field (.string pattern) = .error (.unknownField field) := by
  cases relation <;> simp only [scalar, operand, Names.column, h] <;> rfl

end Sql

namespace Schema

variable {s : Schema} {mappers : Mappers}

/-- The backend for the columns of a schema. -/
abbrev sql (s : Schema) : Backend Id Sql.Condition := Sql.backend (Sql.Names.ofSchema s)

/-! ## One comparison -/

/-- Behind a column, SQL accepts what a relation does not refuse, and refuses what it does for the
same reason, but for the order of the value. -/
theorem follows_refusal? {P : Type} {names : Sql.Names} {field column : Text}
    (h : names.find? field = some column) (relation : Relation) (value : Value) (p : P) :
    Follows QueryError.RefusesOrder
      (match relation.refusal? .unlimited field value with
        | some e => .error e
        | none => .ok p)
      (Sql.scalar names relation field value) := by
  rcases relation.cases_inequality with ⟨i, rfl⟩ | hequality | hpattern
  · have hoperand : Sql.operand i.relation field value = .ok value := by cases i <;> rfl
    obtain ⟨condition, hsql⟩ := Sql.exists_scalar_of_operand h hoperand
    rw [hsql, Relation.refusal?_inequality]
    cases value.isOrderable with
    | true => exact .ok _ _
    | false => exact .excused (QueryError.refusesOrder_ofNotComparable _ _) _
  · have hoperand : Sql.operand relation field value = .ok value := by
      rcases hequality with rfl | rfl <;> rfl
    obtain ⟨condition, hsql⟩ := Sql.exists_scalar_of_operand h hoperand
    rw [hsql]
    rcases hequality with rfl | rfl <;> exact .ok _ _
  · cases value with
    | string pattern =>
      have hoperand : Sql.operand relation field (.string pattern) =
          .ok (.string (Sql.likePattern pattern)) := by
        rcases hpattern with rfl | rfl <;> rfl
      obtain ⟨condition, hsql⟩ := Sql.exists_scalar_of_operand h hoperand
      rw [hsql]
      rcases hpattern with rfl | rfl <;> exact .ok _ _
    | _ => rcases hpattern with rfl | rfl <;> exact .error _

theorem follows_scalar (hnodup : (s.fields.map FieldSpec.name).Nodup) {field : Text} {f : FieldSpec}
    (hf : s.field? field = some f) (relation : Relation) (value : Value) :
    Follows QueryError.RefusesOrder (s.memory.scalar relation field value)
      (s.sql.scalar relation field value) := by
  have hcolumn : (Sql.Names.ofSchema s).find? field =
      some (f.column.getD (Sql.columnName f.name)) := by
    rw [find?_names hnodup, hf, Option.map_some]
  show Follows _ (Memory.scalar _ .unlimited _ _ _) (Sql.scalar _ _ _ _)
  rw [Memory.scalar_of_find? (find?_getters_of_field? hnodup hf)]
  exact follows_refusal? hcolumn relation value _

theorem follows_member (hnodup : (s.fields.map FieldSpec.name).Nodup) (field : Text)
    (values : List Value) :
    Follows QueryError.RefusesOrder (s.memory.member field values) (s.sql.member field values) := by
  show Follows _ (Memory.member _ _ _) (Sql.member _ _ _)
  rw [Sql.member, Sql.Names.column, find?_names hnodup]
  cases hf : s.field? field with
  | none =>
    rw [Memory.member_of_find?_eq_none (find?_getters_eq_none hnodup hf)]
    exact .error _
  | some f =>
    rw [Memory.member_of_find? (find?_getters_of_field? hnodup hf)]
    exact .ok _ _

/-- **On each comparison, SQL follows the backend in memory.** -/
theorem follows_comparison (h : s.mappers = .ok mappers) (operator : Comparator)
    (field literal : Text) :
    Follows QueryError.RefusesOrder (s.memory.comparison mappers operator field literal)
      (s.sql.comparison mappers operator field literal) := by
  have hnodup := nodup_of_mappers h
  cases operator with
  | relation relation =>
    rw [Backend.comparison, Backend.comparison]
    cases hf : s.field? field with
    | none =>
      have hcolumn : (Sql.Names.ofSchema s).find? field = none := by
        rw [find?_names hnodup, hf, Option.map_none]
      rw [map_of_field?_eq_none h hf]
      show Follows _ (Memory.scalar _ .unlimited _ _ _) (Sql.scalar _ _ _ _)
      rw [Memory.scalar_of_find?_eq_none (find?_getters_eq_none hnodup hf),
        Sql.scalar_of_find?_eq_none hcolumn]
      exact .error _
    | some f =>
      cases Mappers.map mappers field literal with
      | ok value => exact follows_scalar hnodup hf relation value
      | error e => exact .error _
  | member =>
    rw [Backend.comparison, Backend.comparison]
    cases listElements? literal with
    | none => exact .error _
    | some elements =>
      dsimp only
      cases mapLiterals mappers field elements with
      | ok values => exact follows_member hnodup field values
      | error e => exact .error _

/-- Why the backend in memory refuses a comparison that SQL may accept: it asks for the order of a
field that is declared as an enum. -/
inductive RefusedOrder (s : Schema) : Comparator → Text → Text → QueryError → Prop
  | intro {field : Text} {f : FieldSpec} {name : Text} {symbols : List Text} (i : Inequality)
    (literal : Text) (hf : s.field? field = some f) (htype : f.type = .enum name symbols) :
    RefusedOrder s (.relation i.relation) field literal (.ofNotComparable field literal)

theorem refusedOrder_of_scalar (h : s.mappers = .ok mappers) {relation : Relation}
    {field literal : Text} {value : Value} {e : QueryError}
    (hmap : Mappers.map mappers field literal = .ok value)
    (he : s.memory.scalar relation field value = .error e) (horder : e.RefusesOrder) :
    s.RefusedOrder (.relation relation) field literal e := by
  have hnodup := nodup_of_mappers h
  cases hf : s.field? field with
  | none =>
    have hget := find?_getters_eq_none hnodup hf
    cases (Memory.scalar_of_find?_eq_none hget relation value).symm.trans he
    exact absurd horder (QueryError.not_refusesOrder_of_ne nofun)
  | some f =>
    have hget := find?_getters_of_field? hnodup hf
    rcases Relation.exists_of_refusal? ((Memory.scalar_eq_error_iff hget).1 he) with
      ⟨i, rfl, ho, rfl⟩ | rfl | ⟨pattern, reason, -, hreason, -⟩
    · have hread := read_of_map h hf hmap
      obtain ⟨name, symbols, htype⟩ :=
        (ValueType.hasType_of_read hread).isOrderable_eq_false_iff.1 ho
      rw [htype] at hread
      obtain rfl := ValueType.eq_of_read_enum hread
      exact .intro i literal hf htype
    · exact absurd horder (QueryError.not_refusesOrder_ofTypeMismatch _ _ _)
    · cases hreason

/-- **Only inequalities of enums are refused for their order.** -/
theorem refusedOrder_of_comparison (h : s.mappers = .ok mappers) {operator : Comparator}
    {field literal : Text} {e : QueryError}
    (he : s.memory.comparison mappers operator field literal = .error e) (horder : e.RefusesOrder) :
    s.RefusedOrder operator field literal e := by
  cases operator with
  | relation relation =>
    rcases Backend.comparison_relation_eq_error_iff.1 he with ⟨error, hmap, rfl⟩ | ⟨value, hmap, he⟩
    · exact absurd horder (QueryError.not_refusesOrder_of_isReading (isReading_of_map h hmap))
    · exact refusedOrder_of_scalar h hmap he horder
  | member =>
    have hnodup := nodup_of_mappers h
    rcases Backend.comparison_member_eq_error_iff.1 he with
      ⟨-, rfl⟩ | ⟨elements, -, ⟨error, hmap, rfl⟩ | ⟨values, -, he⟩⟩
    · exact absurd horder (QueryError.not_refusesOrder_of_ne nofun)
    · have hreading := isReading_of_mapLiterals h hmap
      exact absurd horder (QueryError.not_refusesOrder_of_isReading hreading)
    · cases hf : s.field? field with
      | none =>
        have hget := find?_getters_eq_none hnodup hf
        cases (Memory.member_of_find?_eq_none hget values).symm.trans he
        exact absurd horder (QueryError.not_refusesOrder_of_ne nofun)
      | some f =>
        have hget := find?_getters_of_field? hnodup hf
        cases (Memory.member_of_find? hget values).symm.trans he

/-! ## Queries -/

/-- **The two backends of a schema accept the same queries**, but for inequalities of enums, if the
engine for patterns takes every pattern. A text that compiles in memory compiles for SQL. An error
in memory is the error for SQL, unless it says that a value has no order; and that is said only of a
symbol that an inequality compares with a field of an enum. -/
theorem compileText_memory_sql (h : s.mappers = .ok mappers) {engine : Wildcard.Engine}
    (hengine : ∀ pattern, engine.refusal? pattern = none) (limits : Limits) (text : Text) :
    (∀ p, (s.memory engine).compileText mappers limits text = .ok p →
      ∃ condition, s.sql.compileText mappers limits text = .ok condition) ∧
    (∀ e, (s.memory engine).compileText mappers limits text = .error e → ¬ e.RefusesOrder →
      s.sql.compileText mappers limits text = .error e) ∧
    ∀ e, (s.memory engine).compileText mappers limits text = .error e → e.RefusesOrder →
      ∃ q, Query.parse limits text = .ok q ∧
        ∃ c ∈ q.comparisons, s.RefusedOrder c.operator c.field c.literal e := by
  obtain rfl := Wildcard.Engine.eq_unlimited hengine
  have hfollows := Backend.compileText_follows (follows_comparison h) limits text
  refine ⟨fun p hp => hfollows.exists_ok hp, fun e he hne => hfollows.eq_error he hne, ?_⟩
  intro e he horder
  rw [Backend.compileText] at he
  cases hq : Query.parse limits text with
  | error error =>
    rw [hq] at he
    cases he
    exact absurd horder (QueryError.not_refusesOrder_of_ne nofun)
  | ok q =>
    rw [hq] at he
    rcases Backend.exists_comparison_of_compile_error he with ⟨c, hc, he⟩ | ⟨node, rfl⟩
    · exact ⟨q, rfl, c, hc, refusedOrder_of_comparison h he horder⟩
    · exact absurd horder (QueryError.not_refusesOrder_of_ne nofun)

/-- An inequality of an enum, behind an equality that both backends accept. -/
theorem compileText_memory_sql_enum :
    let s : Schema := ⟨[⟨['r'], none, .enum "Rank".toList [['A'], ['B']]⟩]⟩
    ∃ mappers, s.mappers = .ok mappers ∧
      s.memory.compileText mappers {} "r = A || r >= B".toList =
        .error (.ofNotComparable ['r'] ['B']) ∧
      (∃ condition, s.sql.compileText mappers {} "r = A || r >= B".toList = .ok condition) ∧
      ∃ q, Query.parse {} "r = A || r >= B".toList = .ok q ∧ ∃ c ∈ q.comparisons,
        s.RefusedOrder c.operator c.field c.literal (.ofNotComparable ['r'] ['B']) := by
  intro s
  have hparse : Query.parse {} "r = A || r >= B".toList = .ok (.joined .or
      (.comparison (.relation .equal) ['r'] ['A'])
      (.comparison (.relation .greaterOrEqual) ['r'] ['B'])) := by
    decide +kernel
  obtain ⟨mappers, h⟩ : ∃ mappers, s.mappers = .ok mappers := ⟨_, rfl⟩
  have hmemory : s.memory.compileText mappers {} "r = A || r >= B".toList =
      .error (.ofNotComparable ['r'] ['B']) := by
    obtain rfl := Except.ok.inj h
    rw [Backend.compileText, hparse]
    rfl
  have hsql : ∃ condition,
      s.sql.compileText mappers {} "r = A || r >= B".toList = .ok condition := by
    obtain rfl := Except.ok.inj h
    rw [Backend.compileText, hparse]
    exact ⟨_, rfl⟩
  exact ⟨mappers, h, hmemory, hsql, (compileText_memory_sql h (fun _ => rfl) {} _).2.2 _ hmemory
    (QueryError.refusesOrder_ofNotComparable _ _)⟩

end Schema

end RecordQuery
