import RecordQuery.Proofs.Compile.Nodes

/-!
# From comparisons to queries

A backend may refuse a comparison; it cannot refuse to join or to group. So what two backends make
of a query is decided by what they make of its comparisons. If the second one succeeds wherever the
first does, and refuses what the first refuses for the same reason, then both do so for every query,
whichever of its comparisons is met first. Some reasons of the first backend can be excused: behind
them the second one goes on as it will.

## Main results

* `Backend.comparison_relation_eq_ok_iff`, `Backend.comparison_member_eq_ok_iff` and the ones on
  errors: when a comparison compiles, and why not
* `Backend.compileText_follows`: what holds of comparisons holds of the texts of queries
* `Backend.exists_comparison_of_compile`: the comparisons of a query that compiles do so
* `Backend.exists_comparison_of_compile_error`: an error that is not about the tree comes from a
  comparison in it
-/

namespace RecordQuery

/-! ## The comparisons of a query -/

/-- A field compared with a literal. -/
structure Comparison where
  operator : Comparator
  field : Text
  literal : Text
  deriving DecidableEq, Repr

/-- The comparisons of a query from left to right. -/
def Query.comparisons : Query → List Comparison
  | comparison operator field literal => [⟨operator, field, literal⟩]
  | joined _ left right => left.comparisons ++ right.comparisons
  | dangling _ left => left.comparisons
  | group inner => inner.comparisons

namespace Backend

variable {P : Type} {backend : Backend Id P} {mappers : Mappers} {field literal : Text}

theorem comparison_relation_eq_ok_iff {relation : Relation} {p : P} :
    backend.comparison mappers (.relation relation) field literal = .ok p ↔
      ∃ value, Mappers.map mappers field literal = .ok value ∧
        backend.scalar relation field value = .ok p := by
  simp only [comparison_relation, bind_id_eq_ok_iff, ofMapping_eq_ok_iff]

theorem comparison_relation_eq_error_iff {relation : Relation} {e : QueryError} :
    backend.comparison mappers (.relation relation) field literal = .error e ↔
      (∃ error, Mappers.map mappers field literal = .error error ∧ .mapping error = e) ∨
        ∃ value, Mappers.map mappers field literal = .ok value ∧
          backend.scalar relation field value = .error e := by
  simp only [comparison_relation, bind_id_eq_error_iff, ofMapping_eq_ok_iff,
    ofMapping_eq_error_iff]

theorem comparison_member_eq_ok_iff {p : P} :
    backend.comparison mappers .member field literal = .ok p ↔
      ∃ elements values, listElements? literal = some elements ∧
        mapLiterals mappers field elements = .ok values ∧ backend.member field values = .ok p := by
  rw [comparison_member]
  cases listElements? literal with
  | none => exact iff_of_false nofun nofun
  | some elements => simp [bind_id_eq_ok_iff, ofMapping_eq_ok_iff]

theorem comparison_member_eq_error_iff {e : QueryError} :
    backend.comparison mappers .member field literal = .error e ↔
      listElements? literal = none ∧ .malformedList field literal = e ∨
        ∃ elements, listElements? literal = some elements ∧
          ((∃ error, mapLiterals mappers field elements = .error error ∧ .mapping error = e) ∨
            ∃ values, mapLiterals mappers field elements = .ok values ∧
              backend.member field values = .error e) := by
  rw [comparison_member]
  cases listElements? literal with
  | none =>
    constructor
    · intro h
      exact .inl ⟨rfl, Except.error.inj h⟩
    · rintro (⟨-, rfl⟩ | ⟨_, h, _⟩)
      · rfl
      · cases h
  | some elements => simp [bind_id_eq_error_iff, ofMapping_eq_ok_iff, ofMapping_eq_error_iff]

end Backend

/-! ## Following -/

/-- A second compilation succeeds if the first does, and fails with the error of the first one
unless that error is excused. -/
inductive Follows {P Q : Type} (excused : QueryError → Prop) :
    Except QueryError P → Except QueryError Q → Prop
  | ok (p : P) (q : Q) : Follows excused (.ok p) (.ok q)
  | error (e : QueryError) : Follows excused (.error e) (.error e)
  | excused {e : QueryError} (h : excused e) (y : Except QueryError Q) :
    Follows excused (.error e) y

section Follows

variable {P Q P' Q' : Type} {excused : QueryError → Prop}

theorem Follows.bind {x : ExceptT QueryError Id P} {y : ExceptT QueryError Id Q}
    {f : P → ExceptT QueryError Id P'} {g : Q → ExceptT QueryError Id Q'}
    (h : Follows excused x y) (hf : ∀ p q, Follows excused (f p) (g q)) :
    Follows excused (x >>= f : ExceptT QueryError Id P')
      (y >>= g : ExceptT QueryError Id Q') := by
  cases h with
  | ok p q => exact hf p q
  | error e => exact .error e
  | excused he y => exact .excused he _

theorem Follows.exists_ok {x : Except QueryError P} {y : Except QueryError Q}
    (h : Follows excused x y) {p : P} (hx : x = .ok p) : ∃ q, y = .ok q := by
  cases h with
  | ok p' q => exact ⟨q, rfl⟩
  | error e => cases hx
  | excused he y => cases hx

theorem Follows.eq_error {x : Except QueryError P} {y : Except QueryError Q}
    (h : Follows excused x y) {e : QueryError} (hx : x = .error e) (he : ¬ excused e) :
    y = .error e := by
  cases h with
  | ok p q => cases hx
  | error e' => cases hx; rfl
  | excused he' y => cases hx; exact absurd he' he

end Follows

namespace Backend

variable {P Q : Type} {first : Backend Id P} {second : Backend Id Q} {mappers : Mappers}
  {excused : QueryError → Prop}

theorem compile_follows
    (h : ∀ operator field literal, Follows excused
      (first.comparison mappers operator field literal)
      (second.comparison mappers operator field literal)) (q : Query) :
    Follows excused (first.compile mappers q) (second.compile mappers q) := by
  induction q with
  | comparison operator field literal =>
    rw [compile_comparison, compile_comparison]
    exact h operator field literal
  | joined c l r ihl ihr =>
    rw [compile_joined, compile_joined]
    refine ihl.bind fun pl ql => ?_
    refine ihr.bind fun pr qr => ?_
    exact .ok _ _
  | dangling c l => exact .error _
  | group inner ih =>
    rw [compile_group, compile_group]
    refine ih.bind fun p q => ?_
    exact .ok _ _

/-- **One backend follows another on every query if it does so on every comparison.** -/
theorem compileText_follows
    (h : ∀ operator field literal, Follows excused
      (first.comparison mappers operator field literal)
      (second.comparison mappers operator field literal)) (limits : Limits) (text : Text) :
    Follows excused (first.compileText mappers limits text)
      (second.compileText mappers limits text) := by
  rw [compileText, compileText]
  cases Query.parse limits text with
  | ok q => exact compile_follows h q
  | error e => exact .error _

/-! ## From the query to its comparisons -/

/-- A tree that compiles has comparisons that compile. -/
theorem exists_comparison_of_compile {q : Query} {p : P} (h : first.compile mappers q = .ok p)
    {c : Comparison} (hc : c ∈ q.comparisons) :
    ∃ pc, first.comparison mappers c.operator c.field c.literal = .ok pc := by
  induction q generalizing p with
  | comparison operator field literal =>
    obtain rfl := List.mem_singleton.1 hc
    rw [compile_comparison] at h
    exact ⟨p, h⟩
  | joined connective l r ihl ihr =>
    obtain ⟨pl, pr, hl, hr, -⟩ := compile_joined_eq_ok_iff.1 h
    rcases List.mem_append.1 hc with hc | hc
    · exact ihl hl hc
    · exact ihr hr hc
  | dangling connective l => cases h
  | group inner ih =>
    obtain ⟨pi, hi, -⟩ := compile_group_eq_ok_iff.1 h
    exact ih hi hc

/-- An error of compiling a tree comes from one of its comparisons, or a connective dangles. -/
theorem exists_comparison_of_compile_error {q : Query} {e : QueryError}
    (h : first.compile mappers q = .error e) :
    (∃ c ∈ q.comparisons, first.comparison mappers c.operator c.field c.literal = .error e) ∨
      ∃ node, e = .incomplete node := by
  induction q with
  | comparison operator field literal =>
    rw [compile_comparison] at h
    exact .inl ⟨⟨operator, field, literal⟩, List.mem_singleton_self _, h⟩
  | joined c l r ihl ihr =>
    rcases compile_joined_eq_error_iff.1 h with h | ⟨-, h⟩
    · rcases ihl h with ⟨c', hmem, hc'⟩ | hnode
      · exact .inl ⟨c', List.mem_append_left _ hmem, hc'⟩
      · exact .inr hnode
    · rcases ihr h with ⟨c', hmem, hc'⟩ | hnode
      · exact .inl ⟨c', List.mem_append_right _ hmem, hc'⟩
      · exact .inr hnode
  | dangling c l =>
    cases h
    exact .inr ⟨_, rfl⟩
  | group inner ih => exact ih (compile_group_eq_error_iff.1 h)

end Backend

end RecordQuery
