import Mathlib.Data.List.Basic
import RecordQuery.Command.Basic
import RecordQuery.Proofs.FirstError

/-!
# The rows that a command keeps

Filtering on the command line goes through two lists at once: the rows as they stand in the file,
which are what is answered, and the records loaded from them, which are what is tested. That the two
stay in step is the point of this file, and it is said with places: the rows that are answered stand
where the records stand that the predicate accepts.

## Rules

`Command.Filtered` lists the ways in which filtering can end, in the order in which they take
precedence. No two of them apply to the same schema, query and rows, and one of them always does; so
the rules say exactly what a command answers (`Command.filtered_iff`).

## Main results

* `Command.filtered_iff`: the rules decide the outcome
* `Command.run_filter_eq`: a run of the command answers what the rules say
-/

namespace RecordQuery

/-! ## Places -/

/-- A filtered list holds what stands at the places where the condition holds. -/
theorem map_some_filter {α : Type} (q : α → Bool) (as : List α) :
    (as.filter q).map some = (as.findIdxs q).map fun i => as[i]? := by
  induction as with
  | nil => rfl
  | cons a as ih =>
    have htail : (as.findIdxs q 1).map (fun i => (a :: as)[i]?) = (as.filter q).map some := by
      rw [ih, List.findIdxs_start, List.map_map]
      rfl
    rw [List.filter_cons, List.findIdxs_cons, Nat.zero_add]
    split
    · rw [List.map_cons, List.map_cons, htail]
      rfl
    · exact htail.symm

/-- Of two lists in step, one is filtered by a condition on the other. -/
theorem map_some_map_fst_filter_zip {α β : Type} (q : β → Bool) {as : List α} {bs : List β}
    (h : as.length = bs.length) :
    (((as.zip bs).filter fun x => q x.2).map Prod.fst).map some =
      (bs.findIdxs q).map fun i => as[i]? := by
  have hplaces : (as.zip bs).findIdxs (fun x => q x.2) = bs.findIdxs q := by
    rw [← Function.comp_def, ← List.findIdxs_map, List.map_snd_zip (Nat.le_of_eq h.symm)]
  have hfst : ∀ i : Nat, ((as.zip bs)[i]?).map Prod.fst = as[i]? := by
    intro i
    rw [← List.getElem?_map, List.map_fst_zip (Nat.le_of_eq h)]
  have hfilter := congrArg (List.map (Option.map Prod.fst))
    (map_some_filter (fun x : α × β => q x.2) (as.zip bs))
  rw [hplaces, List.map_map, List.map_map] at hfilter
  simpa [hfst, Function.comp_def] using hfilter

namespace Command

/-! ## Rules -/

/-- A schema has mappers, and each row is loaded as a record. -/
structure Loads (schema : Schema) (rows : List Json) (mappers : Mappers) (records : List Record) :
    Prop where
  mappers_eq : schema.mappers = .ok mappers
  rows_eq : rows.map (Record.ofRow schema mappers) = records.map .ok

/-- A query compiles to a predicate on the records of a schema, or to an error. -/
def Compiles (engine : Wildcard.Engine) (schema : Schema) (mappers : Mappers) (query : Text)
    (outcome : Except QueryError (Predicate Record)) : Prop :=
  (Memory.backend (Record.getters schema) engine).compileText mappers {} query = outcome

/-- How filtering rows by a query ends. -/
inductive Filtered (engine : Wildcard.Engine) (schema : Schema) (query : Text)
    (rows : List Json) : Except CommandError (List Json) → Prop
  /-- A field is declared twice. -/
  | duplicateField {e : DuplicateField} (h : schema.mappers = .error e) :
      Filtered engine schema query rows (.error (.duplicateField e))
  /-- A row is the first one that cannot be loaded. -/
  | row {mappers : Mappers} {i : Nat} {fault : RowFault} (hm : schema.mappers = .ok mappers)
      (h : FirstError (Record.ofRow schema mappers) rows i fault) :
      Filtered engine schema query rows (.error (.record ⟨i, fault⟩))
  /-- The rows are loaded and the query does not compile. -/
  | query {mappers : Mappers} {records : List Record} {e : QueryError}
      (hload : Loads schema rows mappers records)
      (h : Compiles engine schema mappers query (.error e)) :
      Filtered engine schema query rows (.error (.query e))
  /-- A record is the first one that cannot be tested. The filter of records has the same error. -/
  | test {mappers : Mappers} {records : List Record} {p : Predicate Record} {i : Nat}
      {e : QueryError} (hload : Loads schema rows mappers records)
      (hp : Compiles engine schema mappers query (.ok p)) (h : FirstError p records i e)
      (hfilter : p.filter records = .error e) :
      Filtered engine schema query rows (.error (.query e))
  /-- Every record can be tested. The rows that are kept stand where the records stand that the
  predicate accepts, and so do the records that the filter of records keeps. -/
  | kept {mappers : Mappers} {records accepted : List Record} {p : Predicate Record}
      {rows' : List Json} (hload : Loads schema rows mappers records)
      (hp : Compiles engine schema mappers query (.ok p)) (h : ∀ r ∈ records, ∃ b, p r = .ok b)
      (hfilter : p.filter records = .ok accepted)
      (haccepted : accepted.map some =
        (records.findIdxs fun r => p r = .ok true).map fun i => records[i]?)
      (hrows : rows'.map some =
        (records.findIdxs fun r => p r = .ok true).map fun i => rows[i]?) :
      Filtered engine schema query rows (.ok rows')

/-! ## Keeping -/

section

variable {engine : Wildcard.Engine} {schema : Schema} {query : Text} {rows : List Json}
  {mappers : Mappers} {records : List Record} {p : Predicate Record}

theorem Loads.length_eq (h : Loads schema rows mappers records) : rows.length = records.length := by
  simpa using congrArg List.length h.rows_eq

theorem Loads.map_snd_zip (h : Loads schema rows mappers records) :
    (rows.zip records).map Prod.snd = records :=
  List.map_snd_zip (Nat.le_of_eq h.length_eq.symm)

/-- Going through two lists at once ends with an error where going through the records does. -/
theorem keep_eq_error_iff (h : Loads schema rows mappers records) {e : QueryError} :
    keep p (rows.zip records) = .error e ↔ p.filter records = .error e := by
  have hkeep : keep p (rows.zip records) = .error e ↔
      p.filterOn Prod.snd (rows.zip records) = .error e := by
    unfold keep
    cases p.filterOn Prod.snd (rows.zip records) <;> simp [bind, Except.bind, pure, Except.pure]
  rw [hkeep, Predicate.filterOn_eq_error_iff, h.map_snd_zip, Predicate.filter,
    Predicate.filterOn_eq_error_iff, List.map_id]

theorem keep_eq_ok (htests : ∀ r ∈ records, ∃ b, p r = .ok b) :
    keep p (rows.zip records) =
      .ok (((rows.zip records).filter fun x => p x.2 = .ok true).map Prod.fst) := by
  rw [keep, Predicate.filterOn_eq_ok fun x hx => htests x.2 (List.of_mem_zip hx).2]
  rfl

/-- A row and a record in step: the record was loaded from the row. -/
theorem Loads.ofRow_eq (h : Loads schema rows mappers records) {x : Json × Record}
    (hx : x ∈ rows.zip records) : Record.ofRow schema mappers x.1 = .ok x.2 := by
  obtain ⟨i, hi⟩ := List.mem_iff_getElem?.1 hx
  obtain ⟨hrow, hrecord⟩ := List.getElem?_zip_eq_some.1 hi
  have hplace := congrArg (fun l => l[i]?) h.rows_eq
  simpa [hrow, hrecord] using hplace

/-- If a predicate says of the record of each row what a test says of the row, the rows are kept
that pass the test. -/
theorem keep_eq_ok_of_test (h : Loads schema rows mappers records) {test : Json → Bool}
    (htest : ∀ x ∈ rows.zip records, p x.2 = .ok (test x.1)) :
    keep p (rows.zip records) = .ok (rows.filter test) := by
  have htests : ∀ r ∈ records, ∃ b, p r = .ok b := by
    intro r hr
    rw [← h.map_snd_zip] at hr
    obtain ⟨x, hx, rfl⟩ := List.mem_map.1 hr
    exact ⟨test x.1, htest x hx⟩
  have hcongr : (rows.zip records).filter (fun x => p x.2 = .ok true) =
      (rows.zip records).filter (test ∘ Prod.fst) := by
    refine List.filter_congr fun x hx => ?_
    rw [htest x hx]
    cases h : test x.1 <;> simp [h]
  rw [keep_eq_ok htests, hcongr, ← List.filter_map, List.map_fst_zip (Nat.le_of_eq h.length_eq)]

/-! ## The outcome -/

theorem filterRows_of_row_error {i : Nat} {fault : RowFault}
    (h : FirstError (Record.ofRow schema mappers) rows i fault) :
    filterRows engine schema mappers query rows = .error (.record ⟨i, fault⟩) := by
  have hr : Record.ofRows schema mappers rows = .error ⟨i, fault⟩ := Record.ofRows_eq_error_iff.2 h
  rw [filterRows, hr]
  rfl

theorem filterRows_of_query_error {e : QueryError} (hload : Loads schema rows mappers records)
    (h : Compiles engine schema mappers query (.error e)) :
    filterRows engine schema mappers query rows = .error (.query e) := by
  rw [filterRows, Record.ofRows_eq_ok_iff.2 hload.rows_eq, h]
  rfl

theorem filterRows_of_compiles (hload : Loads schema rows mappers records)
    (hp : Compiles engine schema mappers query (.ok p)) :
    filterRows engine schema mappers query rows = orFail .query (keep p (rows.zip records)) := by
  rw [filterRows, Record.ofRows_eq_ok_iff.2 hload.rows_eq, hp]
  rfl

end

/-- Mappers, then rows, then the query, then the tests. -/
def outcome (engine : Wildcard.Engine) (schema : Schema) (query : Text) (rows : List Json) :
    Except CommandError (List Json) := do
  let mappers ← orFail .duplicateField schema.mappers
  filterRows engine schema mappers query rows

variable {engine : Wildcard.Engine} {schema : Schema} {query : Text} {rows : List Json}

theorem outcome_of_mappers {mappers : Mappers} (h : schema.mappers = .ok mappers) :
    outcome engine schema query rows = filterRows engine schema mappers query rows := by
  rw [outcome, h]
  rfl

/-- What a rule says is the outcome. -/
theorem Filtered.outcome_eq {o : Except CommandError (List Json)}
    (h : Filtered engine schema query rows o) : outcome engine schema query rows = o := by
  cases h with
  | duplicateField h =>
    rw [outcome, h]
    rfl
  | row hm h => rw [outcome_of_mappers hm, filterRows_of_row_error h]
  | query hload h => rw [outcome_of_mappers hload.mappers_eq, filterRows_of_query_error hload h]
  | test hload hp _ hfilter =>
    rw [outcome_of_mappers hload.mappers_eq, filterRows_of_compiles hload hp,
      (keep_eq_error_iff hload).2 hfilter]
    rfl
  | @kept _ _ _ p rows' hload hp htests _ _ hrows =>
    rw [outcome_of_mappers hload.mappers_eq, filterRows_of_compiles hload hp,
      keep_eq_ok htests, orFail]
    refine congrArg _ (List.map_injective_iff.2 (fun _ _ => Option.some.inj) ?_)
    rw [hrows]
    exact map_some_map_fst_filter_zip (fun r => p r = .ok true) hload.length_eq

/-- A rule says what the outcome is. -/
theorem filtered_outcome (engine : Wildcard.Engine) (schema : Schema) (query : Text)
    (rows : List Json) :
    Filtered engine schema query rows (outcome engine schema query rows) := by
  cases hm : schema.mappers with
  | error e =>
    have h : Filtered engine schema query rows (.error (.duplicateField e)) := .duplicateField hm
    rwa [h.outcome_eq]
  | ok mappers =>
    cases hr : Record.ofRows schema mappers rows with
    | error e =>
      have h : Filtered engine schema query rows (.error (.record e)) :=
        .row hm (Record.ofRows_eq_error_iff.1 hr)
      rwa [h.outcome_eq]
    | ok records =>
      have hload : Loads schema rows mappers records := ⟨hm, Record.ofRows_eq_ok_iff.1 hr⟩
      cases hq : ((Memory.backend (Record.getters schema) engine).compileText mappers {} query :
        Except QueryError (Predicate Record)) with
      | error e =>
        have h := Filtered.query hload hq
        rwa [h.outcome_eq]
      | ok p =>
        rcases FirstError.exists_or_forall p records with ⟨i, e, hfirst⟩ | htests
        · have hfilter : p.filter records = .error e := by
            rw [Predicate.filter, Predicate.filterOn_eq_error_iff, List.map_id]
            exact ⟨i, hfirst⟩
          have h := Filtered.test hload hq hfirst hfilter
          rwa [h.outcome_eq]
        · have h := Filtered.kept hload hq htests (Predicate.filterOn_eq_ok htests)
            (map_some_filter _ records)
            (map_some_map_fst_filter_zip (fun r => p r = .ok true) hload.length_eq)
          rwa [h.outcome_eq]

/-- **The rules decide the outcome.** -/
theorem filtered_iff {o : Except CommandError (List Json)} :
    Filtered engine schema query rows o ↔ outcome engine schema query rows = o :=
  ⟨Filtered.outcome_eq, fun h => h ▸ filtered_outcome engine schema query rows⟩

/-! ## Running the command -/

/-- Rows as they are answered: printed, or saved in a file. -/
def answered (outputPath : Option Text) (rows : List Json) : Output :=
  match outputPath with
  | some path => .saved path ((Json.array rows).pretty 0)
  | none => printedJson (.array rows)

/-- A run on files that can be read answers the outcome. -/
theorem run_filter_eq_map_outcome (engine : Wildcard.Engine) {read : ReadFile}
    {schemaPath inputPath : Text} (hschema : schemaAt read schemaPath = .ok schema)
    (hrows : rowsAt read inputPath = .ok rows) (query : Text) (outputPath : Option Text) :
    run engine read (.filter query schemaPath inputPath outputPath) =
      (outcome engine schema query rows).map (answered outputPath) := by
  cases hm : schema.mappers with
  | error e => simp only [run, outcome, hschema, hm, orFail, bind, Except.bind, Except.map]
  | ok mappers =>
    simp only [run, outcome, hschema, hm, hrows, orFail, bind, Except.bind, pure, Except.pure]
    cases filterRows engine schema mappers query rows with
    | error e => rfl
    | ok kept => cases outputPath <;> rfl

/-- Rows that cannot be read end a run, once the schema has mappers. -/
theorem run_filter_of_unreadable (engine : Wildcard.Engine) {read : ReadFile}
    {schemaPath inputPath text : Text} {mappers : Mappers}
    (hschema : schemaAt read schemaPath = .ok schema) (hmappers : schema.mappers = .ok mappers)
    (htext : read inputPath = .ok text) (hrows : rowsOfText? text = none) (query : Text)
    (outputPath : Option Text) :
    run engine read (.filter query schemaPath inputPath outputPath) = .error .rowsText := by
  have hunreadable : rowsAt read inputPath = .error .rowsText := by
    rw [rowsAt, contents, htext]
    simp only [orFail, orElseFail, bind, Except.bind, hrows]
  simp only [run, hschema, hmappers, hunreadable, orFail, bind, Except.bind]

/-- **Filtering keeps exactly the accepted rows, or nothing.** -/
theorem run_filter_eq (engine : Wildcard.Engine) {read : ReadFile} {schemaPath inputPath : Text}
    (hschema : schemaAt read schemaPath = .ok schema) (hrows : rowsAt read inputPath = .ok rows)
    (query : Text) (outputPath : Option Text) :
    ∃ o, (∀ o', Filtered engine schema query rows o' ↔ o' = o) ∧
      run engine read (.filter query schemaPath inputPath outputPath) =
        o.map (answered outputPath) :=
  ⟨outcome engine schema query rows, fun _ => filtered_iff.trans eq_comm,
    run_filter_eq_map_outcome engine hschema hrows query outputPath⟩

/-- A row that occurs twice is kept twice, as it stands, and a row without the field in between is
not. -/
theorem run_filter_eq_repeated :
    let schema : Schema := ⟨[⟨"age".toList, none, .integer .w8⟩]⟩
    let row : Json := .object [("age".toList, .number (.integer 5)), (['x'], .bool true)]
    let rows := [row, .object [], row]
    let read : ReadFile := fun path =>
      if path = ['s'] then
        .ok "\x7b\"fields\":[\x7b\"name\":\"age\",\"type\":\"int8\"\x7d]\x7d".toList
      else .ok "[\x7b\"x\":true,\"age\":5\x7d,\x7b\x7d,\x7b\"age\":5,\"x\":true\x7d]".toList
    schemaAt read ['s'] = .ok schema ∧ rowsAt read ['r'] = .ok rows ∧
      run .unlimited read (.filter "age = 5".toList ['s'] ['r'] none) =
        .ok (printedJson (.array [row, row])) := by
  intro schema row rows read
  have hschema : schemaAt read ['s'] = .ok schema := by with_unfolding_all rfl
  have hrows : rowsAt read ['r'] = .ok rows := by with_unfolding_all rfl
  have hkept : outcome .unlimited schema "age = 5".toList rows = .ok [row, row] := by
    with_unfolding_all rfl
  obtain ⟨o, ho, hrun⟩ := run_filter_eq .unlimited hschema hrows "age = 5".toList none
  have ho' : .ok [row, row] = o := (ho _).1 (filtered_iff.2 hkept)
  rw [← ho'] at hrun
  exact ⟨hschema, hrows, hrun⟩

end Command

end RecordQuery
