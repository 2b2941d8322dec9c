import RecordQuery.Proofs.Compile.Lists
import RecordQuery.Proofs.Memory.Comparisons
import RecordQuery.Proofs.Value.Order

/-!
# Membership as a choice of equalities

A field is a member of a list if it equals the first element, or the second, and so on. The backend
answers the two queries by two ways that have little in common. Of a list, all elements are mapped
before the backend is asked once, and one test runs through the values. Of the chain, each element
is mapped when its comparison is compiled, and each connective joins one more test to those before
it.

Both ways come to the same two steps: the elements are mapped in order up to the first error, and
the values are made into a predicate. `compile_foldl_orEqual` is the first step for any chain, and
then only predicates are left: short circuits leave nothing out, since equality never fails.

## Main results

* `Memory.compile_foldl_orEqual`: comparisons added to a chain are compiled as a list is mapped
* `Memory.memberOf_apply`, `Memory.choiceOf_apply`: what the two predicates say of a record
* `Memory.compile_member_anyEqual`: membership and the chain of equalities cannot be told apart
-/

namespace RecordQuery

/-! ## The chain -/

/-- One more way for a field to be found: it equals a literal. -/
def Query.orEqual (field : Text) (q : Query) (literal : Text) : Query :=
  .joined .or q (.comparison (.relation .equal) field literal)

/-- The query that a field equals one of several literals, leaning to the left. -/
def Query.anyEqual (field first : Text) (later : List Text) : Query :=
  later.foldl (orEqual field) (.comparison (.relation .equal) field first)

namespace Memory

open Backend

variable {R : Type} {getters : Getters R} {engine : Wildcard.Engine} {field : Text}
  {get : R → Value} {mappers : Mappers}

/-! ## Predicates -/

/-- The test that a field equals a value. -/
def equalTo (get : R → Value) (value : Value) : Predicate R :=
  fun r => .ok (Value.equals (get r) value)

/-- The test for one of several values that looks for the record's value among them. -/
def memberOf (get : R → Value) (values : List Value) : Predicate R :=
  fun r => .ok (values.any fun v => Value.equals v (get r))

/-- The test for one of several values that is joined from a test for each. -/
def choiceOf (get : R → Value) : List Value → Predicate R
  | [] => fun _ => .ok false
  | first :: later => later.foldl (fun p value => p.or (equalTo get value)) (equalTo get first)

theorem memberOf_apply (get : R → Value) (values : List Value) (r : R) :
    memberOf get values r = .ok (values.any (Value.equals (get r))) := by
  have hcomm : (fun v => Value.equals v (get r)) = Value.equals (get r) :=
    funext fun v => Value.equals_comm v (get r)
  rw [memberOf, hcomm]

theorem or_equalTo {p : Predicate R} {r : R} {b : Bool} (hp : p r = .ok b) (value : Value) :
    p.or (equalTo get value) r = .ok (b || Value.equals (get r) value) := by
  rw [Predicate.or_eq, hp]
  cases b <;> rfl

/-- **Tests that are joined one after the other run through the values.** -/
theorem foldl_or_equalTo {p : Predicate R} {r : R} {b : Bool} (hp : p r = .ok b)
    (values : List Value) :
    values.foldl (fun p value => p.or (equalTo get value)) p r =
      .ok (b || values.any (Value.equals (get r))) := by
  induction values generalizing p b with
  | nil => simp [hp]
  | cons value later ih =>
    rw [List.foldl_cons, ih (or_equalTo hp value), List.any_cons, Bool.or_assoc]

theorem choiceOf_apply (get : R → Value) (values : List Value) (r : R) :
    choiceOf get values r = .ok (values.any (Value.equals (get r))) := by
  cases values with
  | nil => rfl
  | cons first later =>
    have hfirst : equalTo get first r = .ok (Value.equals (get r) first) := rfl
    rw [choiceOf, foldl_or_equalTo hfirst, List.any_cons]

/-! ## Compilation -/

theorem compile_equal (h : getters.find? field = some get) (literal : Text) :
    (backend getters engine).compile mappers (.comparison (.relation .equal) field literal) =
      ofMapping (Mappers.map mappers field literal) >>= fun value => pure (equalTo get value) := by
  have hequal : ∀ value,
      (backend getters engine).scalar .equal field value = pure (equalTo get value) := by
    intro value
    show scalar getters engine .equal field value = _
    exact scalar_of_find? h .equal value
  rw [compile_comparison, comparison_relation]
  exact bind_congr hequal

theorem compile_member (h : getters.find? field = some get) {elements : List Text} {literal : Text}
    (hlist : IsList elements literal) :
    (backend getters engine).compile mappers (.comparison .member field literal) =
      ofMapping (mapLiterals mappers field elements) >>= fun values =>
        pure (memberOf get values) := by
  have hmember : ∀ values,
      (backend getters engine).member field values = pure (memberOf get values) :=
    fun values => member_of_find? h values
  rw [compile_comparison, comparison_member, listElements?_eq_some_iff_isList.2 hlist]
  exact bind_congr hmember

theorem compile_orEqual (h : getters.find? field = some get) (q : Query) (literal : Text) :
    (backend getters engine).compile mappers (q.orEqual field literal) = (do
      let p ← (backend getters engine).compile mappers q
      let value ← ofMapping (Mappers.map mappers field literal)
      pure (p.or (equalTo get value))) := by
  rw [Query.orEqual, compile_joined, compile_equal h]
  simp only [bind_assoc, pure_bind]
  rfl

/-- **Comparisons added to a chain are compiled as a list is mapped**, behind what was there. -/
theorem compile_foldl_orEqual (h : getters.find? field = some get) (q : Query)
    (literals : List Text) :
    (backend getters engine).compile mappers (literals.foldl (Query.orEqual field) q) = (do
      let p ← (backend getters engine).compile mappers q
      let values ← ofMapping (mapLiterals mappers field literals)
      pure (values.foldl (fun p value => p.or (equalTo get value)) p)) := by
  induction literals generalizing q with
  | nil => simp [mapLiterals, ofMapping]
  | cons literal later ih =>
    rw [List.foldl_cons, ih, compile_orEqual h, mapLiterals, ofMapping_bind]
    simp only [bind_assoc, pure_bind, ofMapping_bind]
    rfl

theorem compile_anyEqual (h : getters.find? field = some get) (first : Text) (later : List Text) :
    (backend getters engine).compile mappers (.anyEqual field first later) =
      ofMapping (mapLiterals mappers field (first :: later)) >>= fun values =>
        pure (choiceOf get values) := by
  rw [Query.anyEqual, compile_foldl_orEqual h, compile_equal h, mapLiterals, ofMapping_bind]
  simp only [bind_assoc, pure_bind, ofMapping_bind]
  rfl

/-- **Membership in a list is the choice of its equalities.** If an element cannot be mapped, both
queries fail with the error of the first such element. Otherwise both compile, neither predicate
fails, and on every record both say whether its value equals one of those of the list. -/
theorem compile_member_anyEqual (engine : Wildcard.Engine) (mappers : Mappers)
    (h : getters.find? field = some get) {first : Text} {later : List Text} {literal : Text}
    (hlist : IsList (first :: later) literal) :
    let member : Except QueryError (Predicate R) :=
      (backend getters engine).compile mappers (.comparison .member field literal)
    let choice : Except QueryError (Predicate R) :=
      (backend getters engine).compile mappers (.anyEqual field first later)
    (∃ i e, FirstError (Mappers.map mappers field) (first :: later) i e ∧
        member = .error (.mapping e) ∧ choice = .error (.mapping e)) ∨
      ∃ (values : List Value) (p q : Predicate R),
        (first :: later).map (Mappers.map mappers field) = values.map .ok ∧ member = .ok p ∧
        choice = .ok q ∧ ∀ r, p r = .ok (values.any (Value.equals (get r))) ∧ q r = p r := by
  intro member choice
  have hmember : member = _ := compile_member h hlist
  have hchoice : choice = _ := compile_anyEqual h first later
  cases hmap : mapLiterals mappers field (first :: later) with
  | error e =>
    obtain ⟨i, hfirst⟩ := mapLiterals_eq_error_iff.1 hmap
    rw [hmap] at hmember hchoice
    exact .inl ⟨i, e, hfirst, hmember, hchoice⟩
  | ok values =>
    rw [hmap] at hmember hchoice
    refine .inr ⟨values, _, _, mapLiterals_eq_ok_iff.1 hmap, hmember, hchoice, fun r => ?_⟩
    exact ⟨memberOf_apply get values r, by rw [memberOf_apply, choiceOf_apply]⟩

/-- A list with an element twice, tested on a record that holds nothing; and one whose second
element is the empty text, which is no number, in front of a number that is too large. -/
theorem compile_member_anyEqual_numbers :
    let age : Text := "age".toList
    let mappers : Mappers := Table.empty.insert age (Mapper.reader ⟨age, .integer .w8⟩)
    let getters : Getters Value := Table.empty.insert age id
    let compile : Query → Except QueryError (Predicate Value) := (backend getters).compile mappers
    getters.find? age = some id ∧
    (IsList [['2'], ['1'], ['2']] "[ 2,1 , 2]".toList ∧
      ∃ p q, compile (.comparison .member age "[ 2,1 , 2]".toList) = .ok p ∧
        compile (.anyEqual age ['2'] [['1'], ['2']]) = .ok q ∧
        p .null = .ok false ∧ q .null = .ok false) ∧
    IsList [['1'], [], "300".toList] "[1,, 300]".toList ∧
      ∃ e, compile (.comparison .member age "[1,, 300]".toList) = .error (.mapping e) ∧
        compile (.anyEqual age ['1'] [[], "300".toList]) = .error (.mapping e) := by
  intro age mappers getters compile
  have hfind : getters.find? age = some id := rfl
  have hnumbers : IsList [['2'], ['1'], ['2']] "[ 2,1 , 2]".toList :=
    listElements?_eq_some_iff_isList.1 (by decide)
  have hempty : IsList [['1'], [], "300".toList] "[1,, 300]".toList :=
    listElements?_eq_some_iff_isList.1 (by decide)
  refine ⟨hfind, ⟨hnumbers, ?_⟩, hempty, ?_⟩
  · rcases compile_member_anyEqual .unlimited mappers hfind hnumbers with
      ⟨i, e, -, hmember, -⟩ | ⟨values, p, q, hvalues, hmember, hchoice, hsays⟩
    · cases hmember
    · have hmap : Except.ok [.integer ⟨.w8, 2, by decide⟩, .integer ⟨.w8, 1, by decide⟩,
          .integer ⟨.w8, 2, by decide⟩] = Except.ok values := mapLiterals_eq_ok_iff.2 hvalues
      obtain rfl := Except.ok.inj hmap
      obtain ⟨hp, hq⟩ := hsays .null
      exact ⟨p, q, hmember, hchoice, hp, hq.trans hp⟩
  · rcases compile_member_anyEqual .unlimited mappers hfind hempty with
      ⟨i, e, -, herrors⟩ | ⟨values, p, q, -, hmember, -⟩
    · exact ⟨e, herrors⟩
    · cases hmember

end Memory

end RecordQuery
