import Mathlib.Data.List.Forall2
import RecordQuery.Proofs.Command.Filter
import RecordQuery.Proofs.Compile.Comparisons
import RecordQuery.Proofs.Query.Quoting
import RecordQuery.Proofs.Record.Integers

/-!
# Filters on integers

A filter on an integer field compares numbers that have come two ways: out of the rows of a file, by
way of numbers of JSON, and out of the text of a query, by way of a literal. Neither of them rounds
or wraps. So what is kept is what the comparison says of the numbers as they are written, and what
does not fit into the field is an error on either way.

`IntegerQuery` lists the queries that are about integers, with what they ask of a number: a relation
to one decimal literal, or membership in a list of them.

## Numbers that JSON does not have

A number that overflows the double format has no number of JSON, and then there are no rows at all:
the file is refused before any of them is loaded. That is the one way in which an integer out of
range is not an error of its row.

## Main results

* `Schema.compiles_of_integerQuery`: a query about integers tests the numbers of records
* `Command.outcome_of_integerQuery`, `Command.outcome_of_not_contains`: rows within and out of range
* `Command.run_filter_integers`: what the command answers
-/

namespace RecordQuery

open Text

/-! ## Decimal literals in queries -/

namespace Text.DenotesInt

variable {k : Text} {z : Int}

theorem isBlank_eq_false (h : DenotesInt k z) {c : Char} (hc : c ∈ k) :
    RecordQuery.isBlank c = false := by
  rcases h.digit_or_sign.2 c hc with hdigit | rfl | rfl
  · have hrange : 48 ≤ c.toNat ∧ c.toNat ≤ 57 := by
      simpa [Char.isDigit, UInt32.le_iff_toNat_le] using hdigit
    simp [RecordQuery.isBlank]
    omega
  · decide
  · decide

theorem trim_eq (h : DenotesInt k z) : k.trim = k :=
  trim_eq_self (fun _ hc => h.isBlank_eq_false (List.mem_of_head? hc))
    fun _ hc => h.isBlank_eq_false (List.mem_of_getLast? hc)

theorem not_mem (h : DenotesInt k z) {c : Char} (hc : c ∈ ['&', '|', '(', ')', ','] ++ signs) :
    c ∉ k := by
  have hother : ∀ c ∈ ['&', '|', '(', ')', ','] ++ signs,
      ¬ (c.isDigit = true ∨ c = '+' ∨ c = '-') := by
    simp [signs]
  intro hmem
  exact hother c hc (h.digit_or_sign.2 c hmem)

theorem inert (h : DenotesInt k z) : k.Inert where
  undelimited := undelimited_of_forall fun c hc => by
    refine ⟨?_, ?_, ?_, ?_⟩ <;> rintro rfl <;> exact h.not_mem (by decide) hc
  signs c hc := h.not_mem (List.mem_append_right _ hc)

end Text.DenotesInt

theorem exists_denotes_of_forall₂ {ks : List Text} {zs : List Int}
    (h : List.Forall₂ DenotesInt ks zs) : ∀ k ∈ ks, ∃ z, DenotesInt k z := by
  induction h with
  | nil => exact nofun
  | cons hk _ ih => exact List.forall_mem_cons.2 ⟨⟨_, hk⟩, ih⟩

namespace Backend

variable {P : Type} (backend : Backend Id P) (mappers : Mappers) (limits : Limits) {field : Text}
  (hname : field.Inert) (hne : field ≠ []) (htrim : field.trim = field)

include hname hne htrim

/-- A field, a relation and a decimal literal are compiled as this comparison. -/
theorem compileText_relation_of_denotes (relation : Relation) {k : Text} {z : Int}
    (hk : DenotesInt k z) :
    backend.compileText mappers limits (field ++ [' '] ++ relation.symbol ++ [' '] ++ k) =
      backend.comparison mappers (.relation relation) field k := by
  have hparts : Fragment.Parts (.relation relation) field k :=
    Fragment.parts_of_inert hname hk.inert hne hk.digit_or_sign.1 htrim hk.trim_eq
  have hcompile := backend.compileText_comparison mappers limits hname hk.inert hparts
  rwa [Query.display, Comparator.symbol] at hcompile

/-- So are a field and a list of decimal literals, and these are the elements of the list. -/
theorem compileText_member_of_denotes {ks : List Text} (hks : ks ≠ [])
    (hdenotes : ∀ k ∈ ks, ∃ z, DenotesInt k z) :
    backend.compileText mappers limits (field ++ [' ', '∈', ' '] ++ bracketed ks) =
      backend.comparison mappers .member field (bracketed ks) ∧
    listElements? (bracketed ks) = some ks := by
  have hinert : (bracketed ks).Inert := inert_bracketed fun k hk => by
    obtain ⟨z, hz⟩ := hdenotes k hk
    exact hz.inert
  have hparts : Fragment.Parts .member field (bracketed ks) :=
    Fragment.parts_of_inert hname hinert hne (by simp [bracketed]) htrim (trim_bracketed ks)
  have hform : field ++ [' ', '∈', ' '] ++ bracketed ks =
      (Query.comparison .member field (bracketed ks)).display := by
    simp [Query.display, Comparator.symbol]
  refine ⟨?_, listElements?_bracketed hks fun k hk => ?_⟩
  · rw [hform, backend.compileText_comparison mappers limits hname hinert hparts]
  · obtain ⟨z, hz⟩ := hdenotes k hk
    exact ⟨hz.digit_or_sign.1, hz.not_mem (by decide), hz.trim_eq⟩

end Backend

/-! ## Queries about integers -/

/-- A query that compares an integer field with decimal literals, and what it asks of the number in
the field; or the error of its first literal that is out of range. -/
inductive IntegerQuery (w : Width) (field : Text) :
    Text → Except MappingError (Int → Bool) → Prop
  | relation {relation : Relation} {holds : Int → Int → Bool} {k : Text} {z : Int}
    (h : relation.onIntegers? = some holds) (hk : DenotesInt k z) (hz : w.Contains z) :
    IntegerQuery w field (field ++ [' '] ++ relation.symbol ++ [' '] ++ k) (.ok fun n => holds n z)
  | relationBeyond {relation : Relation} {holds : Int → Int → Bool} {k : Text} {z : Int}
    (h : relation.onIntegers? = some holds) (hk : DenotesInt k z) (hz : ¬ w.Contains z) :
    IntegerQuery w field (field ++ [' '] ++ relation.symbol ++ [' '] ++ k)
      (.error ⟨field, k, .foreign (.integer (w.excess z))⟩)
  | member {ks : List Text} {zs : List Int} (hne : ks ≠ []) (hks : List.Forall₂ DenotesInt ks zs)
    (hzs : ∀ z ∈ zs, w.Contains z) :
    IntegerQuery w field (field ++ [' ', '∈', ' '] ++ bracketed ks) (.ok fun n => n ∈ zs)
  | memberBeyond {before later : List Text} {k : Text} {z : Int}
    (hbefore : ∀ k' ∈ before, ∃ z', DenotesInt k' z' ∧ w.Contains z') (hk : DenotesInt k z)
    (hz : ¬ w.Contains z) (hlater : ∀ k' ∈ later, ∃ z', DenotesInt k' z') :
    IntegerQuery w field (field ++ [' ', '∈', ' '] ++ bracketed (before ++ k :: later))
      (.error ⟨field, k, .foreign (.integer (w.excess z))⟩)

namespace Schema

variable {schema : Schema} {mappers : Mappers} {field : Text} {spec : FieldSpec} {w : Width}
  (hmappers : schema.mappers = .ok mappers) (hfield : schema.field? field = some spec)
  (htype : spec.type = .integer w)

include hmappers hfield htype

theorem map_of_contains {k : Text} {z : Int} (hk : DenotesInt k z) (hz : w.Contains z) :
    Mappers.map mappers field k = .ok (.integer ⟨w, z, hz⟩) := by
  rw [Schema.map_of_field? hmappers hfield, Mapper.map, htype,
    ValueType.read_integer_of_contains hk hz]

theorem map_of_not_contains {k : Text} {z : Int} (hk : DenotesInt k z) (hz : ¬ w.Contains z) :
    Mappers.map mappers field k = .error ⟨field, k, .foreign (.integer (w.excess z))⟩ := by
  rw [Schema.map_of_field? hmappers hfield, Mapper.map, htype,
    ValueType.read_integer_of_not_contains hk hz]

/-- Literals within range become values among which a number is if it is among theirs. -/
theorem exists_mapLiterals_of_contains {ks : List Text} {zs : List Int}
    (hks : List.Forall₂ DenotesInt ks zs) (hzs : ∀ z ∈ zs, w.Contains z) :
    ∃ values, mapLiterals mappers field ks = .ok values ∧ ∀ {n : Int} (hn : w.Contains n),
      (values.any fun v => Value.equals v (.integer ⟨w, n, hn⟩)) = decide (n ∈ zs) := by
  induction hks with
  | nil => exact ⟨[], rfl, fun _ => by simp⟩
  | @cons k z ks zs hk _ ih =>
    obtain ⟨hz, hzs⟩ := List.forall_mem_cons.1 hzs
    obtain ⟨values, hvalues, hmem⟩ := ih hzs
    refine ⟨.integer ⟨w, z, hz⟩ :: values, ?_, fun {n} hn => ?_⟩
    · rw [mapLiterals, map_of_contains hmappers hfield htype hk hz, hvalues]
      rfl
    · rw [List.any_cons, hmem hn]
      simp [Value.equals, eq_comm]

theorem mapLiterals_of_not_contains {before later : List Text} {k : Text} {z : Int}
    (hbefore : ∀ k' ∈ before, ∃ z', DenotesInt k' z' ∧ w.Contains z') (hk : DenotesInt k z)
    (hz : ¬ w.Contains z) :
    mapLiterals mappers field (before ++ k :: later) =
      .error ⟨field, k, .foreign (.integer (w.excess z))⟩ := by
  refine mapLiterals_eq_error_iff.2 ⟨before.length, ⟨k, by simp, ?_⟩, fun j hj k' hk' => ?_⟩
  · exact map_of_not_contains hmappers hfield htype hk hz
  · rw [List.getElem?_append_left hj] at hk'
    obtain ⟨z', hdenotes, hcontains⟩ := hbefore k' (List.mem_of_getElem? hk')
    exact ⟨_, map_of_contains hmappers hfield htype hdenotes hcontains⟩

/-- **What a query asks of the numbers is what its predicate asks of the records.** -/
theorem compiles_of_integerQuery (engine : Wildcard.Engine) (hname : field.Inert)
    (hne : field ≠ []) (htrim : field.trim = field) {query : Text}
    {meaning : Except MappingError (Int → Bool)} (h : IntegerQuery w field query meaning) :
    match meaning with
    | .ok test => ∃ p, Command.Compiles engine schema mappers query (.ok p) ∧
        ∀ (record : Record) {n : Int} (hn : w.Contains n),
          record.get field = .integer ⟨w, n, hn⟩ → p record = .ok (test n)
    | .error e => Command.Compiles engine schema mappers query (.error (.mapping e)) := by
  have hfind := find?_getters_of_field? (nodup_of_mappers hmappers) hfield
  cases h with
  | @relation relation holds k z hholds hk hz =>
    have hcompile := (schema.memory engine).compileText_relation_of_denotes mappers {} hname hne
      htrim relation hk
    have hscalar := (Memory.scalar_eq_ok_iff hfind).2
      ⟨Relation.refusal?_integer hholds engine field ⟨w, z, hz⟩, rfl⟩
    refine ⟨_, hcompile.trans (Backend.comparison_relation_eq_ok_iff.2
      ⟨_, map_of_contains hmappers hfield htype hk hz, hscalar⟩), fun record n hn hget => ?_⟩
    dsimp only
    rw [hget]
    exact Relation.test_integer hholds field hn hz
  | @relationBeyond relation holds k z hholds hk hz =>
    have hcompile := (schema.memory engine).compileText_relation_of_denotes mappers {} hname hne
      htrim relation hk
    exact hcompile.trans (Backend.comparison_relation_eq_error_iff.2
      (.inl ⟨_, map_of_not_contains hmappers hfield htype hk hz, rfl⟩))
  | @member ks zs hks hdenotes hzs =>
    obtain ⟨values, hvalues, hany⟩ :=
      exists_mapLiterals_of_contains hmappers hfield htype hdenotes hzs
    obtain ⟨hcompile, helements⟩ := (schema.memory engine).compileText_member_of_denotes mappers {}
      hname hne htrim hks (exists_denotes_of_forall₂ hdenotes)
    refine ⟨_, hcompile.trans (Backend.comparison_member_eq_ok_iff.2
      ⟨ks, values, helements, hvalues, Memory.member_of_find? hfind values⟩),
      fun record n hn hget => ?_⟩
    dsimp only
    rw [hget, hany hn]
  | @memberBeyond before later k z hbefore hk hz hlater =>
    have hdenotes : ∀ k' ∈ before ++ k :: later, ∃ z', DenotesInt k' z' := by
      intro k' hk'
      rcases List.mem_append.1 hk' with hk' | hk'
      · obtain ⟨z', hz', -⟩ := hbefore k' hk'
        exact ⟨z', hz'⟩
      · exact List.forall_mem_cons.2 ⟨⟨z, hk⟩, hlater⟩ k' hk'
    obtain ⟨hcompile, helements⟩ := (schema.memory engine).compileText_member_of_denotes mappers {}
      hname hne htrim (by simp) hdenotes
    exact hcompile.trans (Backend.comparison_member_eq_error_iff.2 (.inr ⟨_, helements,
      .inl ⟨_, mapLiterals_of_not_contains hmappers hfield htype hbefore hk hz, rfl⟩⟩))

end Schema

/-! ## Rows that cannot be read -/

theorem mapM_eq_none_of_mem {α β : Type} {f : α → Option β} {a : α} {as : List α} (ha : a ∈ as)
    (h : f a = none) : as.mapM f = none := by
  induction as with
  | nil => cases ha
  | cons b later ih =>
    rw [List.mapM_cons]
    rcases List.mem_cons.1 ha with rfl | ha
    · rw [h]
      rfl
    · rw [ih ha]
      cases f b <;> rfl

/-- A number that is too large makes a file unreadable, wherever in a row it stands. -/
theorem Command.rowsOfText?_eq_none {text : Text} {items : List Json.Document}
    {members : List (List Json.StringUnit × Json.Document)} {key : List Json.StringUnit}
    {numeral : Json.Numeral} (htext : Json.Document.ofText? text = some (.array items))
    (hitem : .object members ∈ items) (hmember : (key, .number numeral) ∈ members)
    (hnumeral : numeral.number? = none) : rowsOfText? text = none := by
  have hnumber : ∀ room, Json.ofDocument? room (.number numeral) = none := by
    intro room
    cases room <;> rw [Json.ofDocument?, hnumeral, Option.map_none]
  have hobject : Json.ofDocument? 126 (.object members) = none := by
    rw [Json.ofDocument?, mapM_eq_none_of_mem hmember, Option.map_none]
    dsimp only
    rw [hnumber]
    cases Json.StringUnit.text? key <;> rfl
  have harray : Json.ofDocument? Json.maxDepth (.array items) = none := by
    rw [Json.maxDepth, Json.ofDocument?, mapM_eq_none_of_mem hitem hobject, Option.map_none]
  rw [rowsOfText?, Json.ofText?, htext, Option.bind_some, harray]

namespace Command

/-! ## Rows within and out of range -/

section

variable {engine : Wildcard.Engine} {schema : Schema} {mappers : Mappers} {field : Text}
  {spec : FieldSpec} {w : Width}
  {rows : List Json} {number : Json → Int} (hmappers : schema.mappers = .ok mappers)
  (hfield : schema.field? field = some spec) (htype : spec.type = .integer w)

include hmappers hfield htype

/-- Rows that hold integers within range are loaded, unless the first that is not has something
wrong with another field. -/
theorem exists_loads_or_firstError (hrows : ∀ row ∈ rows, row.HoldsInteger field (number row))
    (hrange : ∀ row ∈ rows, w.Contains (number row)) :
    (∃ records, Loads schema rows mappers records) ∨
      ∃ i row fault, rows[i]? = some row ∧ ¬ Record.LoadsBesides schema mappers field row ∧
        FirstError (Record.ofRow schema mappers) rows i fault := by
  cases h : Record.ofRows schema mappers rows with
  | ok records => exact .inl ⟨records, hmappers, Record.ofRows_eq_ok_iff.1 h⟩
  | error e =>
    have hfirst := Record.ofRows_eq_error_iff.1 h
    obtain ⟨row, hrow, hfault⟩ := hfirst.fails
    have hmem := List.mem_of_getElem? hrow
    refine .inr ⟨_, row, _, hrow, fun hbesides => ?_, hfirst⟩
    obtain ⟨record, hrecord⟩ := Record.exists_ofRow_eq_ok hmappers hfield htype (hrows row hmem)
      hbesides (hrange row hmem)
    cases hrecord.symm.trans hfault

/-- **A query about integers keeps the rows whose numbers it accepts**, unless another field of a
row cannot be loaded. -/
theorem outcome_of_integerQuery (hname : field.Inert) (hne : field ≠ [])
    (htrim : field.trim = field) (hrows : ∀ row ∈ rows, row.HoldsInteger field (number row))
    (hrange : ∀ row ∈ rows, w.Contains (number row)) {query : Text}
    {meaning : Except MappingError (Int → Bool)} (h : IntegerQuery w field query meaning) :
    (outcome engine schema query rows = match meaning with
      | .ok test => .ok (rows.filter fun row => test (number row))
      | .error e => .error (.query (.mapping e))) ∨
    ∃ i row fault, rows[i]? = some row ∧ ¬ Record.LoadsBesides schema mappers field row ∧
      outcome engine schema query rows = .error (.record ⟨i, fault⟩) := by
  rw [outcome_of_mappers hmappers]
  rcases exists_loads_or_firstError hmappers hfield htype hrows hrange with
    ⟨records, hload⟩ | ⟨i, row, fault, hrow, hbesides, hfirst⟩
  · refine .inl ?_
    have hcompiles := Schema.compiles_of_integerQuery hmappers hfield htype engine hname hne htrim h
    cases meaning with
    | error e => exact filterRows_of_query_error hload hcompiles
    | ok test =>
      obtain ⟨p, hp, htest⟩ := hcompiles
      let accepted : Json → Bool := fun row => test (number row)
      have hrecords : ∀ x ∈ rows.zip records, p x.2 = .ok (accepted x.1) := by
        intro x hx
        have hmem := (List.of_mem_zip hx).1
        exact htest x.2 (hrange x.1 hmem) (Record.get_of_holdsInteger hmappers hfield htype
          (hrows x.1 hmem) (hrange x.1 hmem) (hload.ofRow_eq hx))
      rw [filterRows_of_compiles hload hp, keep_eq_ok_of_test hload hrecords]
      rfl
  · exact .inr ⟨i, row, fault, hrow, hbesides, filterRows_of_row_error hfirst⟩

/-- **The first row whose number is out of range is the error**, if there is nothing else wrong with
it and with the rows in front of it. -/
theorem outcome_of_not_contains (hrows : ∀ row ∈ rows, row.HoldsInteger field (number row))
    {i : Nat} {row : Json} (hrow : rows[i]? = some row) (hout : ¬ w.Contains (number row))
    (hbesides : Record.LoadsBesides schema mappers field row)
    (hbefore : ∀ j < i, ∀ row', rows[j]? = some row' →
      w.Contains (number row') ∧ Record.LoadsBesides schema mappers field row') :
    ∃ x, row.field? field = some x ∧ ∀ query,
      outcome engine schema query rows = .error (.record ⟨i, .mismatch field (.integer w) x⟩) := by
  obtain ⟨x, hx, hfault⟩ := Record.ofRow_eq_mismatch hmappers hfield htype
    (hrows row (List.mem_of_getElem? hrow)) hbesides hout
  refine ⟨x, hx, fun query => ?_⟩
  rw [outcome_of_mappers hmappers]
  refine filterRows_of_row_error ⟨⟨row, hrow, hfault⟩, fun j hj row' hrow' => ?_⟩
  obtain ⟨hrange', hbesides'⟩ := hbefore j hj row' hrow'
  exact Record.exists_ofRow_eq_ok hmappers hfield htype (hrows row' (List.mem_of_getElem? hrow'))
    hbesides' hrange'

/-- With a number out of range in some row, a row is the error. -/
theorem exists_outcome_eq_record_error {row : Json} (hrow : row ∈ rows) {n : Int}
    (hholds : row.HoldsInteger field n) (hout : ¬ w.Contains n) (query : Text) :
    ∃ e, outcome engine schema query rows = .error (.record e) := by
  rw [outcome_of_mappers hmappers]
  rcases FirstError.exists_or_forall (Record.ofRow schema mappers) rows with
    ⟨i, fault, hfirst⟩ | hall
  · exact ⟨_, filterRows_of_row_error hfirst⟩
  · obtain ⟨record, hrecord⟩ := hall row hrow
    obtain ⟨fault, hfault⟩ := Record.exists_ofRow_eq_error hmappers hfield htype hholds hout
    cases hrecord.symm.trans hfault

end

/-! ## Running the command -/

/-- The integer that a row holds in a field, or zero if it has no number or a rounded one there. -/
def integerAt (field : Text) (row : Json) : Int :=
  match row.field? field with
  | some (.number (.integer n)) => n
  | _ => 0

/-- A file with one row, whose number overflows. -/
def overflowingText : Text :=
  "[\x7b\"n\":".toList ++ Text.ofInt (Int.pow 10 309) ++ "\x7d]".toList

theorem number?_overflow : (Json.Numeral.ofInt (Int.pow 10 309)).number? = none := by
  decide +kernel

theorem ofText?_overflow :
    Json.Document.ofText? overflowingText =
      some (.array [.object [([.scalar 'n'], .number (.ofInt (Int.pow 10 309)))]]) := by
  have hlexemes : Json.Lexeme.ofText? overflowingText =
      some [.openArray, .openObject, .string [.scalar 'n'], .colon,
        .number (.ofInt (Int.pow 10 309)), .closeObject, .closeArray] := by
    decide +kernel
  rw [Json.Document.ofText?, hlexemes]
  rfl

/-- **Filters on integers are exact.** A query that compares an integer field with decimal literals
keeps exactly the rows whose numbers satisfy it as numbers do, and a literal out of the range of the
field is its error; a row that cannot be loaded because of another field is the error instead. A row
with a number out of range is an error whatever the query is, and with nothing else wrong it is the
first such row, with the number that it holds. A number that cannot be read as a number of JSON,
which is always out of range, makes the whole file unreadable. -/
theorem run_filter_integers (engine : Wildcard.Engine) {read : ReadFile}
    {schemaPath inputPath : Text} {schema : Schema} {mappers : Mappers} {field : Text}
    {spec : FieldSpec} {w : Width}
    (hschema : schemaAt read schemaPath = .ok schema) (hmappers : schema.mappers = .ok mappers)
    (hfield : schema.field? field = some spec) (htype : spec.type = .integer w)
    (hname : field.Inert) (hne : field ≠ []) (htrim : field.trim = field)
    (outputPath : Option Text) :
    (∀ (rows : List Json) (number : Json → Int),
      rowsAt read inputPath = .ok rows →
      (∀ row ∈ rows, row.HoldsInteger field (number row)) →
      ((∀ row ∈ rows, w.Contains (number row)) →
        ∀ query meaning, IntegerQuery w field query meaning →
          (run engine read (.filter query schemaPath inputPath outputPath) = match meaning with
            | .ok test => .ok (answered outputPath (rows.filter fun row => test (number row)))
            | .error e => .error (.query (.mapping e))) ∨
          ∃ i row fault, rows[i]? = some row ∧ ¬ Record.LoadsBesides schema mappers field row ∧
            run engine read (.filter query schemaPath inputPath outputPath) =
              .error (.record ⟨i, fault⟩)) ∧
      ∀ i row, rows[i]? = some row → ¬ w.Contains (number row) →
        Record.LoadsBesides schema mappers field row →
        (∀ j < i, ∀ row', rows[j]? = some row' →
          w.Contains (number row') ∧ Record.LoadsBesides schema mappers field row') →
        ∃ x, row.field? field = some x ∧ ∀ query,
          run engine read (.filter query schemaPath inputPath outputPath) =
            .error (.record ⟨i, .mismatch field (.integer w) x⟩)) ∧
    (∀ rows row n, rowsAt read inputPath = .ok rows → row ∈ rows →
      row.HoldsInteger field n → ¬ w.Contains n →
      ∀ query, ∃ e,
        run engine read (.filter query schemaPath inputPath outputPath) = .error (.record e)) ∧
    ∀ text items members key numeral n, read inputPath = .ok text →
      Json.Document.ofText? text = some (.array items) → .object members ∈ items →
      (key, .number numeral) ∈ members → Json.Lexeme.numeral? (Text.ofInt n) = some numeral →
      numeral.number? = none →
      ¬ w.Contains n ∧ ∀ query,
        run engine read (.filter query schemaPath inputPath outputPath) = .error .rowsText := by
  refine ⟨fun rows number htext hrows => ⟨fun hrange query meaning h => ?_,
    fun i row hrow hout hbesides hbefore => ?_⟩, fun rows row n htext hrow hholds hout query => ?_,
    fun text items members key numeral n htext hdocument hitem hmember hnumeral hn =>
      ⟨fun hcontains => ?_, fun query => ?_⟩⟩
  · rw [run_filter_eq_map_outcome engine hschema htext]
    rcases outcome_of_integerQuery hmappers hfield htype hname hne htrim hrows hrange h with
      houtcome | ⟨i, row, fault, hrow, hbesides, houtcome⟩
    · rw [houtcome]
      refine .inl ?_
      cases meaning <;> rfl
    · rw [houtcome]
      exact .inr ⟨i, row, fault, hrow, hbesides, rfl⟩
  · obtain ⟨x, hx, houtcome⟩ :=
      outcome_of_not_contains hmappers hfield htype hrows hrow hout hbesides hbefore
    refine ⟨x, hx, fun query => ?_⟩
    rw [run_filter_eq_map_outcome engine hschema htext, houtcome]
    rfl
  · obtain ⟨e, he⟩ := exists_outcome_eq_record_error hmappers hfield htype hrow hholds hout query
    refine ⟨e, ?_⟩
    rw [run_filter_eq_map_outcome engine hschema htext, he]
    rfl
  · have hread := Json.Number.ofInt?_of_contains hcontains
    rw [Json.Number.ofInt?, hnumeral, Option.bind_some, hn] at hread
    cases hread
  · exact run_filter_of_unreadable _ hschema hmappers htext
      (rowsOfText?_eq_none hdocument hitem hmember hn) query outputPath

/-- A row with an integer that overflows is not an error of its row. -/
theorem run_filter_integers_overflow :
    let read : ReadFile := fun path =>
      if path = ['s'] then
        .ok "\x7b\"fields\":[\x7b\"name\":\"n\",\"type\":\"int64\"\x7d]\x7d".toList
      else .ok overflowingText
    schemaAt read ['s'] = .ok ⟨[⟨['n'], none, .integer .w64⟩]⟩ ∧
      ¬ Width.w64.Contains (Int.pow 10 309) ∧
      run .unlimited read (.filter "n = 1".toList ['s'] ['r'] none) = .error .rowsText ∧
      ¬ ∃ e,
        run .unlimited read (.filter "n = 1".toList ['s'] ['r'] none) = .error (.record e) := by
  intro read
  have hschema : schemaAt read ['s'] = .ok ⟨[⟨['n'], none, .integer .w64⟩]⟩ := by
    with_unfolding_all rfl
  have hunreadable := rowsOfText?_eq_none ofText?_overflow List.mem_cons_self List.mem_cons_self
    number?_overflow
  have htext : read ['r'] = .ok overflowingText := rfl
  have hrun := run_filter_of_unreadable .unlimited hschema rfl htext hunreadable "n = 1".toList none
  refine ⟨hschema, by decide +kernel, hrun, fun ⟨e, he⟩ => ?_⟩
  cases hrun.symm.trans he

/-- Zeros and a sign in front of literals, rows at both ends of the range, a literal beyond it, a
row beyond it, and a file with an integer that overflows. -/
theorem run_filter_integers_bounds :
    let schema : Schema := ⟨[⟨['n'], none, .integer .w8⟩]⟩
    let row : Int → Json := fun n => .object [(['n'], .number (.integer n))]
    let read : ReadFile := fun path =>
      if path = ['s'] then
        .ok "\x7b\"fields\":[\x7b\"name\":\"n\",\"type\":\"int8\"\x7d]\x7d".toList
      else if path = ['r'] then
        .ok "[\x7b\"n\":-128\x7d,\x7b\"n\":7\x7d,\x7b\"n\":127\x7d]".toList
      else if path = ['q'] then .ok "[\x7b\"n\":7\x7d,\x7b\"n\":128\x7d]".toList
      else .ok overflowingText
    schemaAt read ['s'] = .ok schema ∧
      rowsAt read ['r'] = .ok [row (-128), row 7, row 127] ∧
      run .unlimited read (.filter "n >= +007".toList ['s'] ['r'] none) =
        .ok (answered none [row 7, row 127]) ∧
      run .unlimited read (.filter "n ∈ [-0128, 7]".toList ['s'] ['r'] none) =
        .ok (answered none [row (-128), row 7]) ∧
      run .unlimited read (.filter "n < 128".toList ['s'] ['r'] none) =
        .error (.query (.mapping ⟨['n'], "128".toList, .foreign (.integer .tooLarge)⟩)) ∧
      rowsAt read ['q'] = .ok [row 7, row 128] ∧
      run .unlimited read (.filter "n = 7".toList ['s'] ['q'] none) =
        .error (.record ⟨1, .mismatch ['n'] (.integer .w8) (.number (.integer 128))⟩) ∧
      run .unlimited read (.filter "n = 7".toList ['s'] ['o'] none) = .error .rowsText := by
  intro schema row read
  have hschema : schemaAt read ['s'] = .ok schema := by with_unfolding_all rfl
  obtain ⟨mappers, hmappers⟩ : ∃ mappers, schema.mappers = .ok mappers := ⟨_, rfl⟩
  have hfield : schema.field? ['n'] = some ⟨['n'], none, .integer .w8⟩ := rfl
  have hname : Inert ['n'] := .of_forall (by simp [signs])
  have htext : rowsAt read ['r'] = .ok [row (-128), row 7, row 127] := by
    with_unfolding_all rfl
  have htext' : rowsAt read ['q'] = .ok [row 7, row 128] := by with_unfolding_all rfl
  let number : Json → Int := integerAt ['n']
  have hholds : ∀ n : Int, Width.w64.Contains n →
      (row n).HoldsInteger ['n'] (number (row n)) := by
    intro n hn
    exact ⟨_, rfl, Json.Number.ofInt?_of_contains hn⟩
  have hbesides : ∀ r, Record.LoadsBesides schema mappers ['n'] r := by
    intro r spec hspec hne
    obtain rfl := List.mem_singleton.1 hspec
    exact absurd rfl hne
  have hrows : ∀ r ∈ [row (-128), row 7, row 127], r.HoldsInteger ['n'] (number r) := by
    simp only [List.forall_mem_cons]
    exact ⟨hholds _ (by decide), hholds _ (by decide), hholds _ (by decide), List.forall_mem_nil _⟩
  have hrange : ∀ r ∈ [row (-128), row 7, row 127], Width.w8.Contains (number r) := by
    simp only [List.forall_mem_cons]
    exact ⟨by decide, by decide, by decide, List.forall_mem_nil _⟩
  have hrows' : ∀ r ∈ [row 7, row 128], r.HoldsInteger ['n'] (number r) := by
    simp only [List.forall_mem_cons]
    exact ⟨hholds _ (by decide), hholds _ (by decide), List.forall_mem_nil _⟩
  have hbefore : ∀ j < 1, ∀ r, [row 7, row 128][j]? = some r →
      Width.w8.Contains (number r) ∧ Record.LoadsBesides schema mappers ['n'] r := by
    intro j hj r hr
    obtain rfl : j = 0 := by omega
    obtain rfl := Option.some.inj hr
    exact ⟨by decide, hbesides _⟩
  have hseven : DenotesInt ('+' :: "007".toList) 7 := .plus (by decide) (List.all_eq_true.1 rfl)
  have hlow : DenotesInt ('-' :: "0128".toList) (-128) :=
    .minus (by decide) (List.all_eq_true.1 rfl)
  have hseven' : DenotesInt ['7'] 7 := .unsigned (by decide) (List.all_eq_true.1 rfl)
  have hhigh : DenotesInt "128".toList 128 := .unsigned (by decide) (List.all_eq_true.1 rfl)
  have htext'' : read ['o'] = .ok overflowingText := rfl
  have hatLeast : Relation.greaterOrEqual.onIntegers? = some fun n z => decide (z ≤ n) := rfl
  have hbelow : Relation.less.onIntegers? = some fun n z => decide (n < z) := rfl
  have hloads : ∀ refused : Nat → RowFault → Prop, ¬ ∃ i r fault,
      [row (-128), row 7, row 127][i]? = some r ∧
        ¬ Record.LoadsBesides schema mappers ['n'] r ∧ refused i fault := by
    intro refused h
    obtain ⟨i, r, fault, -, hnot, -⟩ := h
    exact hnot (hbesides r)
  have hr := ((run_filter_integers .unlimited hschema hmappers hfield rfl hname (by decide)
    (by decide) none).1 _ number htext hrows).1 hrange
  obtain ⟨x, hx, hq⟩ := ((run_filter_integers .unlimited hschema hmappers hfield rfl hname
    (by decide) (by decide) none).1 _ number htext' hrows').2 1 (row 128) rfl (by decide)
    (hbesides _) hbefore
  have ho := (run_filter_integers .unlimited hschema hmappers hfield rfl hname (by decide)
    (by decide) none).2.2 _ _ _ _ _ _ htext'' ofText?_overflow List.mem_cons_self List.mem_cons_self
    (Json.Lexeme.numeral?_ofInt _) number?_overflow
  refine ⟨hschema, htext, ?_, ?_, ?_, htext', ?_, ho.2 _⟩
  · exact (hr _ _ (.relation hatLeast hseven (by decide))).resolve_right (hloads _)
  · exact (hr _ _ (.member (by simp) (.cons hlow (.cons hseven' .nil)) (by decide))).resolve_right
      (hloads _)
  · exact (hr _ _ (.relationBeyond hbelow hhigh (by decide))).resolve_right (hloads _)
  · obtain rfl := Option.some.inj hx
    exact hq _

end Command

end RecordQuery
