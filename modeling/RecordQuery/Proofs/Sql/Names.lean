import RecordQuery.Proofs.Schema.Tables
import RecordQuery.Proofs.Table

/-!
# Columns of fields

The columns of a schema are known from the list of its fields alone, if the columns that it sets are
given as overrides; and from such a list columns are made one by one, each only if there is none
yet. So neither the order of the list nor a repeated field can change what holds a field.

## Derived names

Deriving a name is undone by `fieldName`, which takes an underscore and the lower-case letter behind
it for an upper-case one. Only an underscore of the field itself could be mistaken for the first of
such a pair: `aB` and `a_b` have one column. Fields without underscores never share one.

## Main results

* `Sql.Names.sameEntries_ofFields_iff`: which lists of fields have the same columns
* `Sql.Names.sameEntries_ofSchema_ofFields`: the columns of a schema and of the list of its fields
* `Sql.fieldName_columnName`: the field is known from the derived column
* `Sql.columnName_of_isAscii`: derived columns of ASCII names do not collide
-/

namespace RecordQuery

/-! ## Columns that a schema sets -/

namespace Schema

variable {s : Schema}

/-- The columns that fields set, under the names of the fields. -/
def overrides (s : Schema) : List (Text × Text) :=
  s.fields.filterMap fun f => f.column.map fun column => (f.name, column)

theorem map_fst_overrides_sublist (s : Schema) :
    (s.overrides.map Prod.fst).Sublist (s.fields.map FieldSpec.name) := by
  unfold overrides
  induction s.fields with
  | nil => exact .slnil
  | cons f later ih =>
    rw [List.filterMap_cons, List.map_cons]
    cases f.column with
    | none => exact ih.cons _
    | some column => exact ih.cons_cons _

theorem mem_overrides_iff {name column : Text} :
    (name, column) ∈ s.overrides ↔ ∃ f ∈ s.fields, f.name = name ∧ f.column = some column := by
  simp only [overrides, List.mem_filterMap, Option.map_eq_some_iff, Prod.mk.injEq]
  constructor
  · rintro ⟨f, hf, c, hc, rfl, rfl⟩
    exact ⟨f, hf, rfl, hc⟩
  · rintro ⟨f, hf, rfl, hc⟩
    exact ⟨f, hf, column, hc, rfl, rfl⟩

theorem lookup_overrides (h : (s.fields.map FieldSpec.name).Nodup) (name : Text) :
    s.overrides.lookup name = (s.field? name).bind FieldSpec.column := by
  have hkeys := s.map_fst_overrides_sublist.nodup h
  ext column
  rw [Table.lookup_eq_some_iff_mem hkeys, mem_overrides_iff, Option.bind_eq_some_iff]
  constructor
  · rintro ⟨f, hf, rfl, hc⟩
    exact ⟨f, field?_of_mem h hf, hc⟩
  · rintro ⟨f, hf, hc⟩
    exact ⟨f, List.mem_of_find?_eq_some hf, by simpa using List.find?_some hf, hc⟩

theorem field?_eq_none_iff {name : Text} :
    s.field? name = none ↔ name ∉ s.fields.map FieldSpec.name := by
  simp [field?, List.mem_map]

end Schema

namespace Sql

namespace Names

/-- **Which lists of fields have the same columns**: those that list the same fields, apart from
those that are ignored or overridden. -/
theorem sameEntries_ofFields_iff {fields fields' ignored : List Text}
    {overrides : List (Text × Text)} :
    (ofFields fields ignored overrides).SameEntries (ofFields fields' ignored overrides) ↔
      ∀ f, f ∉ ignored → f ∉ overrides.map Prod.fst → (f ∈ fields ↔ f ∈ fields') := by
  rw [Table.sameEntries_iff]
  refine forall_congr' fun f => ?_
  rw [find?_ofFields, find?_ofFields, ← Table.find?_ofList_eq_none_iff]
  cases (Table.ofList overrides).find? f with
  | some column => simp
  | none =>
    by_cases hignored : f ∈ ignored
    · simp [hignored]
    · by_cases h : f ∈ fields <;> by_cases h' : f ∈ fields' <;> simp [hignored, h, h']

/-- What the list of a schema's fields gives, the columns it sets being overrides. -/
theorem find?_ofFields_overrides {s : Schema} (h : (s.fields.map FieldSpec.name).Nodup)
    {overrides : List (Text × Text)} (hperm : overrides.Perm s.overrides) (name : Text) :
    (ofFields (s.fields.map FieldSpec.name) [] overrides).find? name =
      (s.field? name).map fun f => f.column.getD (columnName f.name) := by
  rw [find?_ofFields, Table.find?_ofList_of_perm hperm (s.map_fst_overrides_sublist.nodup h),
    Schema.lookup_overrides h]
  cases hf : s.field? name with
  | none => simpa using Schema.field?_eq_none_iff.1 hf
  | some f =>
    obtain rfl : f.name = name := by simpa using List.find?_some hf
    have hmem : f.name ∈ s.fields.map FieldSpec.name :=
      List.mem_map_of_mem (List.mem_of_find?_eq_some hf)
    cases hcolumn : f.column <;> simp [hcolumn, hmem]

/-- **The columns of a schema are those of the list of its fields.** If no two fields share a name,
the columns that the schema sets, in any order, are the overrides, and nothing is ignored. The
columns of a list of fields are the same for every list of the same fields, in any order and however
often repeated. -/
theorem sameEntries_ofSchema_ofFields :
    (∀ s : Schema, (s.fields.map FieldSpec.name).Nodup →
      ∀ overrides : List (Text × Text), overrides.Perm s.overrides →
        (ofSchema s).SameEntries (ofFields (s.fields.map FieldSpec.name) [] overrides)) ∧
    ∀ (fields fields' ignored : List Text) (overrides : List (Text × Text)),
      (∀ f, f ∈ fields ↔ f ∈ fields') →
        (ofFields fields ignored overrides).SameEntries (ofFields fields' ignored overrides) := by
  refine ⟨fun s h overrides hperm => ?_, fun fields fields' ignored overrides h => ?_⟩
  · refine Table.sameEntries_iff.2 fun name => ?_
    rw [Schema.find?_names h, find?_ofFields_overrides h hperm]
  · exact sameEntries_ofFields_iff.2 fun f _ _ => h f

/-- The overrides of a schema in the other order; and a list that is turned round, with a field
repeated that is ignored and one that is overridden. -/
theorem sameEntries_ofSchema_ofFields_repeated :
    let s : Schema := ⟨[⟨"createdAt".toList, some "created".toList, .date⟩,
      ⟨"firstName".toList, none, .string⟩, ⟨"age".toList, some "years".toList, .boolean⟩]⟩
    let overrides : List (Text × Text) :=
      [("age".toList, "years".toList), ("createdAt".toList, "created".toList)]
    (ofSchema s).SameEntries
        (ofFields ["createdAt".toList, "firstName".toList, "age".toList] [] overrides) ∧
      (ofFields ["age".toList, "id".toList, "secret".toList] ["secret".toList]
        overrides).SameEntries
          (ofFields ["secret".toList, "id".toList, "age".toList, "secret".toList, "age".toList]
            ["secret".toList] overrides) := by
  intro s overrides
  refine ⟨sameEntries_ofSchema_ofFields.1 s (by decide) overrides (.swap _ _ []),
    sameEntries_ofSchema_ofFields.2 _ _ _ _ fun f => ?_⟩
  simp only [List.mem_cons, List.not_mem_nil, or_false]
  tauto

end Names

/-! ## Derived names -/

/-- Whether all characters of a text are ASCII. -/
def IsAscii (t : Text) : Prop := ∀ c ∈ t, c.toNat < 128

instance : DecidablePred IsAscii := fun t => List.decidableBAll (fun c : Char => c.toNat < 128) t

/-- The field whose name a column is derived from: an underscore in front of a lower-case letter
stands for an upper-case one. -/
def fieldName : Text → Text
  | [] => []
  | '_' :: c :: t => if c.isLower then c.toUpper :: fieldName t else '_' :: fieldName (c :: t)
  | c :: t => c :: fieldName t

theorem toNat_lt_of_isUpper {c : Char} (h : c.isUpper = true) : c.toNat < 128 := by
  have hle : c.toNat ≤ 90 := (of_decide_eq_true h).2
  omega

/-- The lower-case form of an upper-case letter, and the way back. -/
structure Lowers (c lower : Char) : Prop where
  toNat_lt : lower.toNat < 128
  isUpper : lower.isUpper = false
  isLower : lower.isLower = true
  toUpper : lower.toUpper = c

theorem lowers_toLower {c : Char} (h : c.isUpper = true) : Lowers c c.toLower := by
  have key : ∀ n < 128, (Char.ofNat n).isUpper = true →
      (Char.ofNat n).toLower.toNat < 128 ∧ (Char.ofNat n).toLower.isUpper = false ∧
        (Char.ofNat n).toLower.isLower = true ∧ (Char.ofNat n).toLower.toUpper = Char.ofNat n := by
    decide +kernel
  have hc := key c.toNat (toNat_lt_of_isUpper h)
  rw [Char.ofNat_toNat] at hc
  obtain ⟨hlt, hupper, hlower, hback⟩ := hc h
  exact ⟨hlt, hupper, hlower, hback⟩

theorem columnName_cons_of_isUpper {c : Char} (h : c.isUpper = true) (t : Text) :
    columnName (c :: t) = '_' :: c.toLower :: columnName t := by
  rw [columnName, List.flatMap_cons, lowered?_eq_of_ascii (toNat_lt_of_isUpper h), if_pos h]
  rfl

theorem columnName_cons_of_isUpper_eq_false {c : Char} (hascii : c.toNat < 128)
    (h : c.isUpper = false) (t : Text) : columnName (c :: t) = c :: columnName t := by
  rw [columnName, List.flatMap_cons, lowered?_eq_of_ascii hascii, if_neg (by simp [h])]
  rfl

theorem fieldName_cons_of_ne {c : Char} (h : c ≠ '_') (t : Text) :
    fieldName (c :: t) = c :: fieldName t := by
  rw [fieldName]
  exact fun _ _ hc => absurd hc h

theorem fieldName_underscore {c : Char} (h : c.isLower = true) (t : Text) :
    fieldName ('_' :: c :: t) = c.toUpper :: fieldName t := by
  rw [fieldName, if_pos h]

/-- **The field is known from the derived column**, if it has no underscore of its own. -/
theorem fieldName_columnName {t : Text} (hascii : IsAscii t) (h : '_' ∉ t) :
    fieldName (columnName t) = t := by
  induction t with
  | nil => rfl
  | cons c t ih =>
    obtain ⟨hc, ht⟩ := List.forall_mem_cons.1 hascii
    rw [List.mem_cons, not_or] at h
    cases hupper : c.isUpper with
    | true =>
      have hlower := lowers_toLower hupper
      rw [columnName_cons_of_isUpper hupper, fieldName_underscore hlower.isLower, hlower.toUpper,
        ih ht h.2]
    | false =>
      rw [columnName_cons_of_isUpper_eq_false hc hupper, fieldName_cons_of_ne (Ne.symm h.1),
        ih ht h.2]

/-- A name without upper-case letters is its own column. -/
theorem columnName_eq_self {t : Text} (h : ∀ c ∈ t, c.toNat < 128 ∧ c.isUpper = false) :
    columnName t = t := by
  induction t with
  | nil => rfl
  | cons c t ih =>
    obtain ⟨⟨hascii, hupper⟩, ht⟩ := List.forall_mem_cons.1 h
    rw [columnName_cons_of_isUpper_eq_false hascii hupper, ih ht]

/-- A derived column has no upper-case letters. -/
theorem isUpper_eq_false_of_mem_columnName {t : Text} (hascii : IsAscii t) :
    ∀ c ∈ columnName t, c.toNat < 128 ∧ c.isUpper = false := by
  induction t with
  | nil => simp
  | cons c t ih =>
    obtain ⟨hc, ht⟩ := List.forall_mem_cons.1 hascii
    cases hupper : c.isUpper with
    | true =>
      have hlower := lowers_toLower hupper
      rw [columnName_cons_of_isUpper hupper, List.forall_mem_cons, List.forall_mem_cons]
      exact ⟨by decide, ⟨hlower.toNat_lt, hlower.isUpper⟩, ih ht⟩
    | false =>
      rw [columnName_cons_of_isUpper_eq_false hc hupper, List.forall_mem_cons]
      exact ⟨⟨hc, hupper⟩, ih ht⟩

/-- **Derived columns do not collide.** Two ASCII names without underscores have two columns, for
each is known from its column: an underscore and the letter behind it stand for an upper-case one.
And deriving a column from a column changes nothing, underscores or not. -/
theorem columnName_of_isAscii :
    (∀ s t : Text, IsAscii s → IsAscii t → '_' ∉ s → '_' ∉ t → s ≠ t →
      columnName s ≠ columnName t) ∧
    (∀ t : Text, IsAscii t → '_' ∉ t → fieldName (columnName t) = t) ∧
    ∀ t : Text, IsAscii t → columnName (columnName t) = columnName t := by
  refine ⟨fun s t hs ht hs' ht' hne heq => hne ?_, fun t ht ht' => fieldName_columnName ht ht',
    fun t ht => columnName_eq_self (isUpper_eq_false_of_mem_columnName ht)⟩
  rw [← fieldName_columnName hs hs', heq, fieldName_columnName ht ht']

/-- Capitals side by side, at the front and at the end. -/
theorem columnName_of_isAscii_capitals :
    columnName "HTTPServer2ID".toList ≠ columnName "httpServer2Id".toList ∧
      columnName "HTTPServer2ID".toList = "_h_t_t_p_server2_i_d".toList ∧
      fieldName "_h_t_t_p_server2_i_d".toList = "HTTPServer2ID".toList ∧
      columnName "_h_t_t_p_server2_i_d".toList = "_h_t_t_p_server2_i_d".toList := by
  have hascii : IsAscii "HTTPServer2ID".toList := by decide
  have hascii' : IsAscii "httpServer2Id".toList := by decide
  have hcolumn : columnName "HTTPServer2ID".toList = "_h_t_t_p_server2_i_d".toList := by
    decide +kernel
  obtain ⟨hne, hfield, hagain⟩ := columnName_of_isAscii
  refine ⟨hne _ _ hascii hascii' (by decide) (by decide) (by decide), hcolumn, ?_, ?_⟩
  · rw [← hcolumn]
    exact hfield _ hascii (by decide)
  · rw [← hcolumn]
    exact hagain _ hascii

example : columnName "aB".toList = columnName "a_b".toList := by decide +kernel

end Sql

end RecordQuery
