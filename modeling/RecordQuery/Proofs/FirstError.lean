import Mathlib.Data.List.Basic
import RecordQuery.Compile.Backend
import RecordQuery.Memory.Predicate
import RecordQuery.Record.Basic

/-!
# The first error

Four things are done to lists one element after the other, up to the first error: the literals of a
list are mapped, the fields of a row and the rows of a file are loaded, and the records are tested.
`FirstError` says of a list, and of what is done to one element, where the first error is and which
one it is. Each of the four recursions then has a law in these words, and nothing else is said about
how it recurs.

## Main results

* `FirstError.exists_or_forall`: there is a first error, or every element succeeds
* `mapLiterals_eq_error_iff`, `Record.fill_eq_error_iff`, `Record.ofRows_eq_error_iff`,
  `Predicate.filterOn_eq_error_iff`: the recursions fail with the first error
* `Predicate.filterOn_eq_ok`: what is kept if there is none
-/

namespace RecordQuery

/-- Where a function fails first on a list, and its error there. -/
structure FirstError {α β ε : Type} (f : α → Except ε β) (as : List α) (i : Nat) (e : ε) :
    Prop where
  fails : ∃ a, as[i]? = some a ∧ f a = .error e
  before : ∀ j < i, ∀ a, as[j]? = some a → ∃ b, f a = .ok b

namespace FirstError

variable {α β ε : Type} {f : α → Except ε β} {a : α} {as : List α} {i : Nat} {e : ε}

theorem not_nil : ¬ FirstError f [] i e := by
  rintro ⟨⟨a, ha, -⟩, -⟩
  simp at ha

/-- The head fails: there it is. -/
theorem cons_iff_of_error {e' : ε} (h : f a = .error e') :
    FirstError f (a :: as) i e ↔ i = 0 ∧ e' = e := by
  constructor
  · rintro ⟨⟨a', ha', he⟩, hbefore⟩
    cases i with
    | zero =>
      obtain rfl : a = a' := by simpa using ha'
      exact ⟨rfl, Except.error.inj (h.symm.trans he)⟩
    | succ i =>
      obtain ⟨b, hb⟩ := hbefore 0 (Nat.zero_lt_succ i) a rfl
      cases h.symm.trans hb
  · rintro ⟨rfl, rfl⟩
    exact ⟨⟨a, rfl, h⟩, fun j hj => absurd hj (Nat.not_lt_zero j)⟩

/-- The head succeeds: it is in the tail. -/
theorem cons_iff_of_ok {b : β} (h : f a = .ok b) :
    FirstError f (a :: as) i e ↔ ∃ j, i = j + 1 ∧ FirstError f as j e := by
  constructor
  · rintro ⟨⟨a', ha', he⟩, hbefore⟩
    cases i with
    | zero =>
      obtain rfl : a = a' := by simpa using ha'
      cases h.symm.trans he
    | succ i =>
      exact ⟨i, rfl, ⟨a', by simpa using ha', he⟩, fun j hj a'' ha'' =>
        hbefore (j + 1) (Nat.succ_lt_succ hj) a'' (by simpa using ha'')⟩
  · rintro ⟨i, rfl, ⟨a', ha', he⟩, hbefore⟩
    refine ⟨⟨a', by simpa using ha', he⟩, fun j hj a'' ha'' => ?_⟩
    cases j with
    | zero =>
      obtain rfl : a = a'' := by simpa using ha''
      exact ⟨b, h⟩
    | succ j => exact hbefore j (Nat.lt_of_succ_lt_succ hj) a'' (by simpa using ha'')

theorem exists_cons_iff_of_ok {b : β} (h : f a = .ok b) :
    (∃ i, FirstError f (a :: as) i e) ↔ ∃ i, FirstError f as i e := by
  simp only [cons_iff_of_ok h]
  exact ⟨fun ⟨_, j, _, hj⟩ => ⟨j, hj⟩, fun ⟨j, hj⟩ => ⟨j + 1, j, rfl, hj⟩⟩

/-- What comes behind does not move the first error. -/
theorem append_left (h : FirstError f as i e) (bs : List α) : FirstError f (as ++ bs) i e := by
  obtain ⟨⟨a, ha, he⟩, hbefore⟩ := h
  have hi : i < as.length := (List.getElem?_eq_some_iff.1 ha).1
  refine ⟨⟨a, by rwa [List.getElem?_append_left hi], he⟩, fun j hj b hb => ?_⟩
  rw [List.getElem?_append_left (Nat.lt_trans hj hi)] at hb
  exact hbefore j hj b hb

/-- What succeeds in front moves the first error by its length. -/
theorem append_right (hall : ∀ a ∈ as, ∃ b, f a = .ok b) {bs : List α} (h : FirstError f bs i e) :
    FirstError f (as ++ bs) (as.length + i) e := by
  induction as with
  | nil => simpa using h
  | cons a as ih =>
    obtain ⟨⟨b, hb⟩, hlater⟩ := List.forall_mem_cons.1 hall
    rw [List.cons_append, cons_iff_of_ok hb]
    exact ⟨as.length + i, by rw [List.length_cons]; omega, ih hlater⟩

theorem exists_or_forall (f : α → Except ε β) (as : List α) :
    (∃ i e, FirstError f as i e) ∨ ∀ a ∈ as, ∃ b, f a = .ok b := by
  induction as with
  | nil => exact .inr nofun
  | cons a as ih =>
    cases h : f a with
    | error e => exact .inl ⟨0, e, (cons_iff_of_error h).2 ⟨rfl, rfl⟩⟩
    | ok b =>
      rcases ih with ⟨i, e, hi⟩ | hall
      · exact .inl ⟨i + 1, e, (cons_iff_of_ok h).2 ⟨i, rfl, hi⟩⟩
      · exact .inr (List.forall_mem_cons.2 ⟨⟨b, h⟩, hall⟩)

/-- The first error is one that no element in front of it has. -/
theorem iff_take :
    FirstError f as i e ↔
      ∃ a, as[i]? = some a ∧ f a = .error e ∧ ∀ b ∈ as.take i, ∃ c, f b = .ok c := by
  have hfront : (∀ j < i, ∀ a, as[j]? = some a → ∃ b, f a = .ok b) ↔
      ∀ b ∈ as.take i, ∃ c, f b = .ok c := by
    simp only [List.mem_iff_getElem?, List.getElem?_take]
    constructor
    · rintro h b ⟨j, hj⟩
      split at hj
      · next hlt => exact h j hlt b hj
      · cases hj
    · exact fun h j hlt a ha => h a ⟨j, by rwa [if_pos hlt]⟩
  constructor
  · rintro ⟨⟨a, ha, he⟩, hbefore⟩
    exact ⟨a, ha, he, hfront.1 hbefore⟩
  · rintro ⟨a, ha, he, hbefore⟩
    exact ⟨⟨a, ha, he⟩, hfront.2 hbefore⟩

/-- There is no first error just if every element succeeds. -/
theorem forall_not_iff : (∀ i e, ¬ FirstError f as i e) ↔ ∀ a ∈ as, ∃ b, f a = .ok b := by
  constructor
  · intro h
    rcases exists_or_forall f as with ⟨i, e, hfirst⟩ | hall
    · exact absurd hfirst (h i e)
    · exact hall
  · rintro h i e ⟨⟨a, ha, he⟩, -⟩
    obtain ⟨b, hb⟩ := h a (List.mem_of_getElem? ha)
    cases hb.symm.trans he

/-- What fails just if there is a first error succeeds just if every element does. -/
theorem exists_ok_iff {γ δ : Type} {x : Except δ γ}
    (h : (∃ d, x = .error d) ↔ ∃ i e, FirstError f as i e) :
    (∃ c, x = .ok c) ↔ ∀ a ∈ as, ∃ b, f a = .ok b := by
  have hx : (∃ c, x = .ok c) ↔ ¬ ∃ d, x = .error d := by cases x <;> simp
  rw [hx, h, ← forall_not_iff]
  simp only [not_exists]

/-- What is made of successes does not move the first error. -/
theorem map_iff {γ : Type} (g : β → γ) :
    FirstError (fun a => (f a).map g) as i e ↔ FirstError f as i e := by
  have herror : ∀ a e, (f a).map g = .error e ↔ f a = .error e := by
    intro a e
    cases f a <;> simp [Except.map]
  have hok : ∀ a, (∃ c, (f a).map g = .ok c) ↔ ∃ b, f a = .ok b := by
    intro a
    cases f a <;> simp [Except.map]
  constructor
  · rintro ⟨⟨a, ha, he⟩, hbefore⟩
    exact ⟨⟨a, ha, (herror a e).1 he⟩, fun j hj a ha => (hok a).1 (hbefore j hj a ha)⟩
  · rintro ⟨⟨a, ha, he⟩, hbefore⟩
    exact ⟨⟨a, ha, (herror a e).2 he⟩, fun j hj a ha => (hok a).2 (hbefore j hj a ha)⟩

end FirstError

/-! ## Literals -/

theorem mapLiterals_eq_error_iff {mappers : Mappers} {field : Text} {literals : List Text}
    {e : MappingError} :
    mapLiterals mappers field literals = .error e ↔
      ∃ i, FirstError (Mappers.map mappers field) literals i e := by
  induction literals with
  | nil => exact iff_of_false nofun fun ⟨i, h⟩ => FirstError.not_nil h
  | cons literal later ih =>
    cases h : Mappers.map mappers field literal with
    | error e' => simp [mapLiterals, h, FirstError.cons_iff_of_error h, bind, Except.bind]
    | ok value =>
      have htail : mapLiterals mappers field (literal :: later) = .error e ↔
          mapLiterals mappers field later = .error e := by
        cases hl : mapLiterals mappers field later <;>
          simp [mapLiterals, h, hl, bind, Except.bind, pure, Except.pure]
      rw [htail, ih, FirstError.exists_cons_iff_of_ok h]

/-! ## Rows -/

/-- The value of a field among the members of a row. -/
def FieldSpec.loadFrom (mappers : Mappers) (members : List (Text × Json)) (field : FieldSpec) :
    Except RowFault Value :=
  field.load mappers ((members.lookup field.name).getD .null)

namespace Record

variable {schema : Schema} {mappers : Mappers} {rows : List Json} {e : RecordError}

/-- **The first field that cannot be loaded is the fault of its row.** -/
theorem fill_eq_error_iff {members : List (Text × Json)} {record : Record}
    {fields : List FieldSpec} {fault : RowFault} :
    fill mappers members record fields = .error fault ↔
      ∃ i, FirstError (FieldSpec.loadFrom mappers members) fields i fault := by
  induction fields generalizing record with
  | nil => exact iff_of_false nofun fun ⟨i, h⟩ => FirstError.not_nil h
  | cons field later ih =>
    have hcons : fill mappers members record (field :: later) =
        field.loadFrom mappers members >>= fun value =>
          fill mappers members (record.insert field.name value) later := rfl
    rw [hcons]
    cases h : field.loadFrom mappers members with
    | error fault' => simp [FirstError.cons_iff_of_error h, bind, Except.bind]
    | ok value =>
      rw [FirstError.exists_cons_iff_of_ok h, ← ih]
      rfl

theorem ofRowsFrom_eq_error_iff {index : Nat} :
    ofRowsFrom schema mappers index rows = .error e ↔
      ∃ i, e.index = index + i ∧ FirstError (ofRow schema mappers) rows i e.fault := by
  induction rows generalizing index with
  | nil => exact iff_of_false nofun fun ⟨i, _, h⟩ => FirstError.not_nil h
  | cons row later ih =>
    cases h : ofRow schema mappers row with
    | error fault =>
      simp only [ofRowsFrom, h, FirstError.cons_iff_of_error h]
      constructor
      · intro he
        obtain rfl := Except.error.inj he
        exact ⟨0, rfl, rfl, rfl⟩
      · rintro ⟨i, hi, rfl, rfl⟩
        rw [Nat.add_zero] at hi
        rw [← hi]
    | ok record =>
      have htail : ofRowsFrom schema mappers index (row :: later) = .error e ↔
          ofRowsFrom schema mappers (index + 1) later = .error e := by
        cases hl : ofRowsFrom schema mappers (index + 1) later <;>
          simp [ofRowsFrom, h, hl, bind, Except.bind, pure, Except.pure]
      simp only [htail, ih, FirstError.cons_iff_of_ok h]
      constructor
      · rintro ⟨i, hi, hfirst⟩
        exact ⟨i + 1, by omega, i, rfl, hfirst⟩
      · rintro ⟨_, hi, j, rfl, hfirst⟩
        exact ⟨j, by omega, hfirst⟩

/-- **The first row that cannot be loaded is the error.** -/
theorem ofRows_eq_error_iff :
    ofRows schema mappers rows = .error e ↔
      FirstError (ofRow schema mappers) rows e.index e.fault := by
  rw [ofRows, ofRowsFrom_eq_error_iff]
  simp

end Record

/-! ## Records -/

namespace Predicate

variable {R α : Type} {p : Predicate R} {record : α → R} {as : List α}

theorem filterOn_cons (p : Predicate R) (record : α → R) (a : α) (as : List α) :
    p.filterOn record (a :: as) = match p (record a), p.filterOn record as with
      | .error e, _ => .error e
      | .ok _, .error e => .error e
      | .ok b, .ok kept => .ok (if b then a :: kept else kept) := by
  rw [filterOn]
  cases p (record a) with
  | error e => rfl
  | ok b => cases p.filterOn record as <;> rfl

/-- **The first record that cannot be tested is the error.** -/
theorem filterOn_eq_error_iff {e : QueryError} :
    p.filterOn record as = .error e ↔ ∃ i, FirstError p (as.map record) i e := by
  induction as with
  | nil => exact iff_of_false nofun fun ⟨i, h⟩ => FirstError.not_nil h
  | cons a as ih =>
    rw [filterOn_cons, List.map_cons]
    cases h : p (record a) with
    | error e' => simp [FirstError.cons_iff_of_error h]
    | ok b =>
      rw [FirstError.exists_cons_iff_of_ok h, ← ih]
      cases p.filterOn record as <;> simp

/-- **If every record can be tested, those that are accepted are kept.** -/
theorem filterOn_eq_ok (h : ∀ a ∈ as, ∃ b, p (record a) = .ok b) :
    p.filterOn record as = .ok (as.filter fun a => p (record a) = .ok true) := by
  induction as with
  | nil => rfl
  | cons a as ih =>
    obtain ⟨⟨b, hb⟩, hall⟩ := List.forall_mem_cons.1 h
    rw [filterOn_cons, hb, ih hall, List.filter_cons, hb]
    cases b <;> rfl

end Predicate

end RecordQuery
