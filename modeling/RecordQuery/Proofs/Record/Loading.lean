import RecordQuery.Proofs.Record.Typing

/-!
# Loading rows

What a row of a file must be for a schema is said here without any order of steps: which rows suit
the schema, what is wrong with the others, and which record stands for a row. Loading is then all or
nothing. If every row suits, each has its record; otherwise the error is the first row that does
not, and of a row that is an object the first field at fault, in the order of the schema.

## Main results

* `Record.exists_ofRow_iff`, `Record.ofRow_eq_error_iff`, `Record.holds_of_ofRow`: one row
* `Record.ofRows_allOrNothing`: the rows of a file
-/

namespace RecordQuery

/-! ## Rows -/

namespace Schema

/-- A row is an object that suits every field. -/
structure Suits (s : Schema) (mappers : Mappers) (row : Json) : Prop where
  isObject : ∃ members, row = .object members
  field : ∀ field ∈ s.fields, field.Suits mappers row

/-- What is wrong with a row: it is no object, or a field refuses what the row has for it, and the
row suits the fields in front. -/
inductive Faults (s : Schema) (mappers : Mappers) : Json → RowFault → Prop
  | notObject {row : Json} (h : ∀ members, row ≠ .object members) : Faults s mappers row .notObject
  | field {members : List (Text × Json)} {i : Nat} {field : FieldSpec} {j : Json} {fault : RowFault}
    (hfield : s.fields[i]? = some field) (hfound : members.lookup field.name = some j)
    (hrefuses : field.Refuses mappers j fault)
    (hfront : ∀ earlier ∈ s.fields.take i, earlier.Suits mappers (.object members)) :
    Faults s mappers (.object members) fault

end Schema

namespace Record

/-- A record stands for a row: it has the names of the schema in their order, what the row has for
each of them converted, and `null` where the row has nothing. -/
structure Holds (s : Schema) (mappers : Mappers) (row : Json) (record : Record) : Prop where
  keys_eq : record.keys = s.fields.map FieldSpec.name
  present : ∀ field ∈ s.fields, ∀ j, row.field? field.name = some j →
    ∃ v, record.find? field.name = some v ∧ field.Converts mappers j v
  absent : ∀ field ∈ s.fields, row.field? field.name = none →
    record.find? field.name = some .null

variable {s : Schema} {mappers : Mappers} {row : Json} {rows : List Json} {record : Record}
  {records : List Record} {fault : RowFault} {e : RecordError}

theorem ofRow_object (members : List (Text × Json)) :
    ofRow s mappers (.object members) = fill mappers members .empty s.fields := rfl

/-- **A row that is an object fails with the first field at fault**, any other one as it is. -/
theorem ofRow_eq_error_iff :
    ofRow s mappers row = .error fault ↔ s.Faults mappers row fault := by
  cases row with
  | object members =>
    rw [ofRow_object, fill_eq_error_iff]
    simp only [FirstError.iff_take, FieldSpec.loadFrom_eq_error_iff, FieldSpec.exists_loadFrom_iff]
    constructor
    · rintro ⟨i, field, hfield, ⟨j, hfound, hrefuses⟩, hfront⟩
      exact .field hfield hfound hrefuses hfront
    · rintro (h | ⟨hfield, hfound, hrefuses, hfront⟩)
      · exact absurd rfl (h members)
      · exact ⟨_, _, hfield, ⟨_, hfound, hrefuses⟩, hfront⟩
  | _ =>
    constructor
    · intro h
      obtain rfl := Except.error.inj h
      exact .notObject nofun
    · rintro ⟨h⟩
      rfl

/-- **The rows that are loaded are those that suit the schema.** -/
theorem exists_ofRow_iff : (∃ record, ofRow s mappers row = .ok record) ↔ s.Suits mappers row := by
  cases row with
  | object members =>
    have hsuits : s.Suits mappers (.object members) ↔
        ∀ field ∈ s.fields, ∃ v, field.loadFrom mappers members = .ok v := by
      simp only [FieldSpec.exists_loadFrom_iff]
      exact ⟨Schema.Suits.field, fun h => ⟨⟨members, rfl⟩, h⟩⟩
    rw [hsuits]
    refine FirstError.exists_ok_iff ?_
    simp only [ofRow_object, fill_eq_error_iff]
    exact exists_comm
  | _ => exact iff_of_false nofun fun h => nomatch h.isObject

/-- **The record that is loaded stands for the row.** -/
theorem holds_of_ofRow (hnodup : (s.fields.map FieldSpec.name).Nodup)
    (h : ofRow s mappers row = .ok record) : Holds s mappers row record := by
  cases row with
  | object members =>
    have hload : ∀ field ∈ s.fields, ∃ v, field.loadFrom mappers members = .ok v ∧
        record.find? field.name = some v := fun field => exists_load_of_fill h hnodup
    refine ⟨keys_of_fill h hnodup, fun field hfield j hj => ?_, fun field hfield hnone => ?_⟩
    · obtain ⟨v, hv, hfind⟩ := hload field hfield
      rw [FieldSpec.loadFrom_of_some hj, FieldSpec.load_eq_ok_iff] at hv
      exact ⟨v, hfind, hv⟩
    · obtain ⟨v, hv, hfind⟩ := hload field hfield
      rw [FieldSpec.loadFrom_of_none hnone] at hv
      obtain rfl := Except.ok.inj hv
      exact hfind
  | _ => cases h

/-! ## The rows of a file -/

theorem exists_ofRows_iff :
    (∃ records, ofRows s mappers rows = .ok records) ↔ ∀ row ∈ rows, s.Suits mappers row := by
  simp only [← exists_ofRow_iff]
  refine FirstError.exists_ok_iff ⟨?_, ?_⟩
  · rintro ⟨e, h⟩
    exact ⟨e.index, e.fault, ofRows_eq_error_iff.1 h⟩
  · rintro ⟨i, fault, h⟩
    exact ⟨⟨i, fault⟩, ofRows_eq_error_iff.2 h⟩

theorem forall₂_of_ofRows (h : ofRows s mappers rows = .ok records) :
    List.Forall₂ (fun row record => ofRow s mappers row = .ok record) rows records := by
  have hmap := ofRows_eq_ok_iff.1 h
  clear h
  induction rows generalizing records with
  | nil => cases records with
    | nil => exact .nil
    | cons record records => cases hmap
  | cons row rows ih => cases records with
    | nil => cases hmap
    | cons record records =>
      obtain ⟨hrow, hrows⟩ := List.cons.inj hmap
      exact .cons hrow (ih hrows)

/-- **Loading is all or nothing and names the first fault.** The rows are loaded just if every one
suits the schema, and then there is a record for each, in order. Otherwise the error has the index
of the first row that does not suit, and what is wrong with it. The texts of rows are converted as
the literals of queries are. -/
theorem ofRows_allOrNothing (hnodup : (s.fields.map FieldSpec.name).Nodup) (mappers : Mappers)
    (rows : List Json) :
    ((∃ records, ofRows s mappers rows = .ok records) ↔ ∀ row ∈ rows, s.Suits mappers row) ∧
    (∀ records, ofRows s mappers rows = .ok records →
      List.Forall₂ (Holds s mappers) rows records) ∧
    (∀ e, ofRows s mappers rows = .error e ↔
      ∃ row, rows[e.index]? = some row ∧ s.Faults mappers row e.fault ∧
        ∀ earlier ∈ rows.take e.index, s.Suits mappers earlier) ∧
    (∀ (field : FieldSpec) (t : Text) {m : Type → Type} [Monad m] {P : Type}
        (backend : Backend m P) (relation : Relation),
      (∀ v, field.load mappers (.string t) = .ok v →
        backend.comparison mappers (.relation relation) field.name t =
          backend.scalar relation field.name v) ∧
      (∀ fault, field.load mappers (.string t) = .error fault →
        ∃ e, fault = .literal e ∧
          backend.comparison mappers (.relation relation) field.name t = throw (.mapping e))) ∧
    (∀ (field : FieldSpec) (ts : List Text) (vs : List Value),
      mapLiterals mappers field.name ts = .ok vs ↔
        List.Forall₂ (fun t v => field.load mappers (.string t) = .ok v) ts vs) := by
  refine ⟨exists_ofRows_iff, fun records h => ?_, fun e => ?_, ?_, ?_⟩
  · exact (forall₂_of_ofRows h).imp fun row record => holds_of_ofRow hnodup
  · rw [ofRows_eq_error_iff, FirstError.iff_take]
    simp only [ofRow_eq_error_iff, exists_ofRow_iff]
  · exact fun field t _ _ _ backend relation => field.comparison_of_load backend relation t
  · exact fun field ts vs => FieldSpec.mapLiterals_eq_ok_iff_load

/-- The second row has a number that is out of range, and something else behind it that is no truth
value. -/
theorem ofRows_allOrNothing_second :
    let s : Schema := ⟨[⟨"age".toList, none, .integer .w8⟩, ⟨"ok".toList, none, .boolean⟩]⟩
    let first : Json := .object [("age".toList, .string "3".toList), ("note".toList, .bool true)]
    let second : Json :=
      .object [("age".toList, .number (.integer 300)), ("ok".toList, .array [])]
    (s.fields.map FieldSpec.name).Nodup ∧ ∃ mappers, s.mappers = .ok mappers ∧
      (∃ records, ofRows s mappers [first] = .ok records) ∧
      ofRows s mappers [first, second, .null] =
        .error ⟨1, .mismatch "age".toList (.integer .w8) (.number (.integer 300))⟩ := by
  intro s first second
  have hnodup : (s.fields.map FieldSpec.name).Nodup := by decide
  obtain ⟨mappers, hmappers⟩ := Schema.exists_mappers_iff.2 hnodup
  have hage : Mappers.map mappers "age".toList "3".toList =
      .ok (.integer ⟨.w8, 3, by decide⟩) := by
    rw [Schema.map_of_field? hmappers (f := ⟨"age".toList, none, .integer .w8⟩) rfl]
    rfl
  have hfirst : s.Suits mappers first := by
    refine ⟨⟨_, rfl⟩, fun field hfield j hj => ?_⟩
    obtain rfl | rfl : field = ⟨"age".toList, none, .integer .w8⟩ ∨
        field = ⟨"ok".toList, none, .boolean⟩ := by simpa [s] using hfield
    · obtain rfl := Option.some.inj hj
      exact ⟨_, .string hage⟩
    · cases hj
  refine ⟨hnodup, mappers, hmappers, ?_, ?_⟩
  · exact (ofRows_allOrNothing hnodup mappers [first]).1.2 (by simpa using hfirst)
  · refine ((ofRows_allOrNothing hnodup mappers [first, second, .null]).2.2.1 _).2
      ⟨second, rfl, .field (i := 0) rfl rfl (.mismatch nofun fun v hv => ?_) nofun, ?_⟩
    · cases hv with
      | integer htype hn =>
        cases htype
        exact absurd hn (by decide)
      | real htype => cases htype
    · simpa using hfirst

end Record

end RecordQuery
