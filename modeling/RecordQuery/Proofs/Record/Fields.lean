import Mathlib.Data.List.Forall2
import RecordQuery.Proofs.Compile.Nodes
import RecordQuery.Proofs.FirstError
import RecordQuery.Proofs.Value.Integers

/-!
# Loading fields

Which JSON values a field converts, and to what, is said here as a relation, with one case for each
way. What is not converted is refused, with a fault that names the field. Loading a field has just
these two outcomes, so what is to be known of loaded values is drawn from the relation.

The texts of a row are read by the same mappers as the literals of a query, so they become the same
values, or fail with the same error.

## Main results

* `FieldSpec.load_eq_ok_iff`, `FieldSpec.load_eq_error_iff`: what a field converts, and its faults
* `FieldSpec.exists_loadFrom_iff`, `FieldSpec.loadFrom_eq_error_iff`: the same among the members of
  a row
* `FieldSpec.mapLiterals_eq_ok_iff_load`, `FieldSpec.comparison_of_load`: the texts of rows and the
  literals of queries
-/

namespace RecordQuery

namespace FieldSpec

/-- A field converts a JSON value to a value. -/
inductive Converts (mappers : Mappers) (field : FieldSpec) : Json → Value → Prop
  | null : Converts mappers field .null .null
  /-- A text is mapped like a literal of the field, whatever its type. -/
  | string {t : Text} {v : Value} (h : Mappers.map mappers field.name t = .ok v) :
    Converts mappers field (.string t) v
  | boolean (htype : field.type = .boolean) (b : Bool) :
    Converts mappers field (.bool b) (.boolean b)
  | integer {w : Width} {n : Int} (htype : field.type = .integer w) (h : w.Contains n) :
    Converts mappers field (.number (.integer n)) (.integer ⟨w, n, h⟩)
  | real {f : FloatFormat} (htype : field.type = .real f) (n : Json.Number) :
    Converts mappers field (.number n) (.real f ((Value.realOf .double n).convert f))

/-- A field refuses a JSON value, with a fault that names the field. -/
inductive Refuses (mappers : Mappers) (field : FieldSpec) : Json → RowFault → Prop
  | literal {t : Text} {e : MappingError} (h : Mappers.map mappers field.name t = .error e) :
    Refuses mappers field (.string t) (.literal e)
  | mismatch {j : Json} (hstring : ∀ t, j ≠ .string t) (h : ∀ v, ¬ field.Converts mappers j v) :
    Refuses mappers field j (.mismatch field.name field.type j)

/-- A row has nothing for the field, or something that the field converts. -/
def Suits (mappers : Mappers) (row : Json) (field : FieldSpec) : Prop :=
  ∀ j, row.field? field.name = some j → ∃ v, field.Converts mappers j v

variable {mappers : Mappers} {field : FieldSpec} {j : Json} {v : Value} {fault : RowFault}

theorem converts_of_ofNumber? {n : Json.Number} (h : field.type.ofNumber? n = some v) :
    field.Converts mappers (.number n) v := by
  unfold ValueType.ofNumber? at h
  split at h
  · next htype =>
    obtain ⟨i, hi, rfl⟩ := Option.map_eq_some_iff.1 h
    obtain ⟨rfl, rfl⟩ := Integer.ofInt?_eq_some_iff.1 hi
    exact .integer htype i.fits
  · next htype =>
    obtain rfl := Option.some.inj h
    exact .real htype _
  · cases h

/-- **A field has the value that it converts the JSON value to.** -/
theorem load_eq_ok_iff : field.load mappers j = .ok v ↔ field.Converts mappers j v := by
  constructor
  · intro h
    unfold load at h
    split at h
    · obtain rfl := Except.ok.inj h
      exact .null
    · split at h
      · next hmap =>
        obtain rfl := Except.ok.inj h
        exact .string hmap
      · cases h
    · dsimp only at h
      split at h
      · next hvalue =>
        obtain rfl := Except.ok.inj h
        split at hvalue
        · next htype _ _ =>
          obtain rfl := Option.some.inj hvalue
          exact .boolean htype _
        · exact converts_of_ofNumber? hvalue
        · cases hvalue
      · cases h
  · rintro (_ | hmap | ⟨htype, b⟩ | ⟨htype, hn⟩ | ⟨htype, n⟩)
    · rfl
    · simp only [load, hmap]
    · simp only [load, htype]
    · simp only [load, htype, ValueType.ofNumber?, Integer.ofInt?_of_contains hn, Option.map_some]
    · simp only [load, htype, ValueType.ofNumber?]

/-- **What a field does not convert it refuses.** -/
theorem load_eq_error_iff :
    field.load mappers j = .error fault ↔ field.Refuses mappers j fault := by
  have hrefuses {fault' : RowFault} (h : field.load mappers j = .error fault') :
      field.Refuses mappers j fault' := by
    have hnot : ∀ v, ¬ field.Converts mappers j v := fun v hv => by
      cases (load_eq_ok_iff.2 hv).symm.trans h
    unfold load at h
    split at h
    · cases h
    · split at h
      · cases h
      · next hmap =>
        obtain rfl := Except.error.inj h
        exact .literal hmap
    · next hstring =>
      dsimp only at h
      split at h
      · cases h
      · obtain rfl := Except.error.inj h
        exact .mismatch hstring hnot
  refine ⟨hrefuses, ?_⟩
  rintro (hmap | ⟨hstring, hnot⟩)
  · simp only [load, hmap]
  · cases h : field.load mappers j with
    | ok v => exact absurd (load_eq_ok_iff.1 h) (hnot v)
    | error fault' =>
      cases hrefuses h with
      | literal hmap => exact absurd rfl (hstring _)
      | mismatch _ _ => rfl

/-! ## Among the members of a row -/

variable {members : List (Text × Json)}

theorem loadFrom_of_none (h : members.lookup field.name = none) :
    field.loadFrom mappers members = .ok .null := by
  rw [loadFrom, h]
  rfl

theorem loadFrom_of_some (h : members.lookup field.name = some j) :
    field.loadFrom mappers members = field.load mappers j := by
  rw [loadFrom, h, Option.getD_some]

theorem exists_loadFrom_iff :
    (∃ v, field.loadFrom mappers members = .ok v) ↔ field.Suits mappers (.object members) := by
  cases h : members.lookup field.name with
  | none =>
    refine iff_of_true ⟨_, loadFrom_of_none h⟩ fun j hj => ?_
    cases h.symm.trans hj
  | some j =>
    simp only [loadFrom_of_some h, load_eq_ok_iff]
    constructor
    · intro hconverts j' hj'
      obtain rfl := Option.some.inj (h.symm.trans hj')
      exact hconverts
    · exact fun hsuits => hsuits j h

theorem loadFrom_eq_error_iff :
    field.loadFrom mappers members = .error fault ↔
      ∃ j, members.lookup field.name = some j ∧ field.Refuses mappers j fault := by
  cases h : members.lookup field.name with
  | none => simp [loadFrom_of_none h]
  | some j => simp [loadFrom_of_some h, load_eq_error_iff]

/-! ## Texts and literals -/

theorem load_string_eq_ok_iff {t : Text} :
    field.load mappers (.string t) = .ok v ↔ Mappers.map mappers field.name t = .ok v := by
  rw [load_eq_ok_iff]
  exact ⟨fun | .string h => h, .string⟩

/-- **The literals of a list are converted as the texts of rows.** -/
theorem mapLiterals_eq_ok_iff_load {ts : List Text} {vs : List Value} :
    mapLiterals mappers field.name ts = .ok vs ↔
      List.Forall₂ (fun t v => field.load mappers (.string t) = .ok v) ts vs := by
  rw [mapLiterals_eq_ok_iff]
  simp only [load_string_eq_ok_iff]
  induction ts generalizing vs with
  | nil => cases vs <;> simp
  | cons t ts ih =>
    cases vs with
    | nil => simp
    | cons v vs => rw [List.map_cons, List.map_cons, List.cons.injEq, ih, List.forall₂_cons]

variable {m : Type → Type} [Monad m] {P : Type}

/-- **A literal that is compared is converted as the text of a row**, and fails with its fault. -/
theorem comparison_of_load (backend : Backend m P) (relation : Relation) (t : Text) :
    (∀ v, field.load mappers (.string t) = .ok v →
      backend.comparison mappers (.relation relation) field.name t =
        backend.scalar relation field.name v) ∧
    (∀ fault, field.load mappers (.string t) = .error fault →
      ∃ e, fault = .literal e ∧
        backend.comparison mappers (.relation relation) field.name t = throw (.mapping e)) := by
  refine ⟨fun v h => ?_, fun fault h => ?_⟩
  · simp only [Backend.comparison, load_string_eq_ok_iff.1 h]
  · cases load_eq_error_iff.1 h with
    | literal hmap => exact ⟨_, rfl, by simp only [Backend.comparison, hmap]⟩
    | mismatch hstring _ => exact absurd rfl (hstring t)

end FieldSpec

end RecordQuery
