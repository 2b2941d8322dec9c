import Mathlib.Data.List.Nodup
import RecordQuery.Proofs.Schema.Tables

/-!
# The tables of a schema agree

Mappers, getters and columns are put into three tables, field by field. The tables treat a name that
comes again in different ways: the table of mappers is given up, the others keep what came last. So
they can differ only for a schema that has no mappers. For any other schema the three tables have
the names of its fields, in their order, and what they hold for a name is of the one field that has
it.

If there are no mappers, the error is the first field whose name came before. The table under
construction has exactly the names that came before, so going on from a table is looking for a name
that comes again in a list, behind the names of the table (`FirstRepeat`).

## Main results

* `Mappers.add_eq_error_iff`: the error is the first name that comes again
* `Schema.keys_mappers`, `Schema.keys_getters`, `Schema.keys_names`: the names of the tables
* `Schema.tables_agree`: when there are mappers, and what the tables hold then
-/

namespace RecordQuery

/-! ## Names that come again -/

/-- The first name of a list that came before: earlier in the list, or in front of it. -/
structure FirstRepeat (front names : List Text) (i : Nat) (name : Text) : Prop where
  found : names[i]? = some name
  repeated : name ∈ front ++ names.take i
  fresh : ∀ j < i, ∀ other, names[j]? = some other → other ∉ front ++ names.take j

namespace FirstRepeat

variable {front names : List Text} {n name : Text} {i : Nat}

theorem not_nil : ¬ FirstRepeat front [] i name := fun h => by simpa using h.found

theorem cons_iff_of_mem (h : n ∈ front) :
    FirstRepeat front (n :: names) i name ↔ i = 0 ∧ n = name := by
  constructor
  · rintro ⟨hfound, -, hfresh⟩
    cases i with
    | zero => exact ⟨rfl, Option.some.inj hfound⟩
    | succ i => exact absurd (by simpa using h) (hfresh 0 (Nat.zero_lt_succ i) n rfl)
  · rintro ⟨rfl, rfl⟩
    exact ⟨rfl, by simpa using h, fun j hj => absurd hj (Nat.not_lt_zero j)⟩

/-- A name that is new is one more in front of the rest. -/
theorem cons_iff_of_not_mem (h : n ∉ front) :
    FirstRepeat front (n :: names) i name ↔
      ∃ j, i = j + 1 ∧ FirstRepeat (front ++ [n]) names j name := by
  have hfront (j : Nat) : front ++ (n :: names).take (j + 1) = front ++ [n] ++ names.take j := by
    rw [List.take_succ_cons, List.append_assoc, List.singleton_append]
  constructor
  · rintro ⟨hfound, hrepeated, hfresh⟩
    cases i with
    | zero =>
      obtain rfl := Option.some.inj hfound
      exact absurd (by simpa using hrepeated) h
    | succ i =>
      refine ⟨i, rfl, hfound, by rwa [hfront] at hrepeated, fun j hj other hother => ?_⟩
      rw [← hfront]
      exact hfresh (j + 1) (Nat.succ_lt_succ hj) other hother
  · rintro ⟨i, rfl, hfound, hrepeated, hfresh⟩
    refine ⟨hfound, by rwa [hfront], fun j hj other hother => ?_⟩
    cases j with
    | zero =>
      obtain rfl := Option.some.inj hother
      simpa using h
    | succ j =>
      rw [hfront]
      exact hfresh j (Nat.lt_of_succ_lt_succ hj) other hother

end FirstRepeat

/-- **The error is the first name that comes again.** -/
theorem Mappers.add_eq_error_iff {table : Mappers} {readers : List FieldReader}
    {e : DuplicateField} :
    Mappers.add table readers = .error e ↔
      ∃ i, FirstRepeat table.keys (readers.map FieldReader.name) i e.field := by
  induction readers generalizing table with
  | nil =>
    refine iff_of_false (by simp [Mappers.add]) ?_
    rintro ⟨i, h⟩
    exact FirstRepeat.not_nil h
  | cons r later ih =>
    rw [Mappers.add, List.map_cons]
    split
    · next h =>
      rw [table.isSome_find?_iff] at h
      simp only [FirstRepeat.cons_iff_of_mem h, exists_eq_left, Except.error.injEq]
      exact ⟨fun he => he ▸ rfl, fun he => by rw [he]⟩
    · next h =>
      rw [table.isSome_find?_iff] at h
      rw [ih, Table.keys_insert_of_not_mem h]
      simp only [FirstRepeat.cons_iff_of_not_mem h]
      constructor
      · rintro ⟨i, hi⟩
        exact ⟨i + 1, i, rfl, hi⟩
      · rintro ⟨_, i, -, hi⟩
        exact ⟨i, hi⟩

namespace Schema

variable {s : Schema}

/-! ## Schemas without mappers -/

/-- **The error is the first field whose name came before.** -/
theorem mappers_eq_error_iff {e : DuplicateField} :
    s.mappers = .error e ↔
      ∃ i f, s.fields[i]? = some f ∧ f.name = e.field ∧
        f.name ∈ (s.fields.take i).map FieldSpec.name ∧
        ∀ j < i, ∀ g, s.fields[j]? = some g → g.name ∉ (s.fields.take j).map FieldSpec.name := by
  have hnames : (s.fields.map fun f => (Mapper.mk f.name f.type).reader).map FieldReader.name =
      s.fields.map FieldSpec.name := by
    rw [List.map_map]
    rfl
  rw [Schema.mappers, Mappers.ofList, Mappers.add_eq_error_iff, hnames]
  constructor
  · rintro ⟨i, hfound, hrepeated, hfresh⟩
    rw [List.getElem?_map] at hfound
    obtain ⟨f, hf, hname⟩ := Option.map_eq_some_iff.1 hfound
    refine ⟨i, f, hf, hname, by rwa [hname, List.map_take], fun j hj g hg => ?_⟩
    rw [List.map_take]
    exact hfresh j hj g.name (by rw [List.getElem?_map, hg, Option.map_some])
  · rintro ⟨i, f, hf, hname, hrepeated, hfresh⟩
    have hfound : (s.fields.map FieldSpec.name)[i]? = some e.field := by
      rw [List.getElem?_map, hf, Option.map_some, hname]
    refine ⟨i, hfound, ?_, fun j hj other hother => ?_⟩
    · rw [List.map_take, hname] at hrepeated
      exact hrepeated
    · rw [List.getElem?_map] at hother
      obtain ⟨g, hg, rfl⟩ := Option.map_eq_some_iff.1 hother
      have hfresh := hfresh j hj g hg
      rw [List.map_take] at hfresh
      exact hfresh

theorem nodup_iff_forall_ne :
    (s.fields.map FieldSpec.name).Nodup ↔
      ∀ (i j : Nat) (f g : FieldSpec), i < j → s.fields[i]? = some f → s.fields[j]? = some g →
        f.name ≠ g.name := by
  rw [List.nodup_iff_getElem?_ne_getElem?]
  simp only [List.getElem?_map, List.length_map]
  constructor
  · intro h i j f g hij hf hg hname
    refine h i j hij (List.getElem?_eq_some_iff.1 hg).1 ?_
    rw [hf, hg, Option.map_some, Option.map_some, hname]
  · intro h i j hij hj hname
    rw [List.getElem?_eq_getElem hj, List.getElem?_eq_getElem (Nat.lt_trans hij hj)] at hname
    exact h i j _ _ hij (List.getElem?_eq_getElem _) (List.getElem?_eq_getElem hj)
      (Option.some.inj hname)

/-- **There are no mappers just if two fields share a name.** -/
theorem exists_mappers_error_iff :
    (∃ e, s.mappers = .error e) ↔
      ∃ (i j : Nat) (f g : FieldSpec),
        i < j ∧ s.fields[i]? = some f ∧ s.fields[j]? = some g ∧ f.name = g.name := by
  have herror : (∃ e, s.mappers = .error e) ↔ ¬ ∃ mappers, s.mappers = .ok mappers := by
    cases s.mappers <;> simp
  rw [herror, exists_mappers_iff, nodup_iff_forall_ne]
  push Not
  rfl

/-! ## The names of the tables -/

section

variable (h : (s.fields.map FieldSpec.name).Nodup)

include h

theorem keys_ofList_map_fields {α : Type} (value : FieldSpec → α) :
    (Table.ofList (s.fields.map fun f => (f.name, value f))).keys =
      s.fields.map FieldSpec.name := by
  have hnames : (s.fields.map fun f => (f.name, value f)).map Prod.fst =
      s.fields.map FieldSpec.name := by
    rw [List.map_map]
    rfl
  rw [Table.keys_ofList (by rwa [hnames]), hnames]

theorem keys_getters : (Record.getters s).keys = s.fields.map FieldSpec.name :=
  keys_ofList_map_fields h _

theorem keys_names : (Sql.Names.ofSchema s).keys = s.fields.map FieldSpec.name :=
  keys_ofList_map_fields h _

end

theorem keys_mappers {mappers : Mappers} (h : s.mappers = .ok mappers) :
    mappers.keys = s.fields.map FieldSpec.name := by
  obtain ⟨hnodup, rfl⟩ := mappers_eq_ok_iff.1 h
  exact keys_ofList_map_fields hnodup _

/-! ## What the tables hold -/

/-- **The tables of a schema agree.** There are no mappers just if two fields share a name, and the
error is the first field whose name came before. If there are mappers, then they, the getters and
the columns have the names of the fields, each once, and hold for the name of a field its type, what
a record has for it, and its column. -/
theorem tables_agree (s : Schema) :
    ((∃ e, s.mappers = .error e) ↔
      ∃ (i j : Nat) (f g : FieldSpec),
        i < j ∧ s.fields[i]? = some f ∧ s.fields[j]? = some g ∧ f.name = g.name) ∧
    (∀ e, s.mappers = .error e ↔
      ∃ i f, s.fields[i]? = some f ∧ f.name = e.field ∧
        f.name ∈ (s.fields.take i).map FieldSpec.name ∧
        ∀ j < i, ∀ g, s.fields[j]? = some g → g.name ∉ (s.fields.take j).map FieldSpec.name) ∧
    ∀ mappers, s.mappers = .ok mappers →
      (mappers.keys = s.fields.map FieldSpec.name ∧ mappers.size = s.fields.length) ∧
      ((Sql.Names.ofSchema s).keys = s.fields.map FieldSpec.name ∧
        (Sql.Names.ofSchema s).size = s.fields.length) ∧
      ((Record.getters s).keys = s.fields.map FieldSpec.name ∧
        (Record.getters s).size = s.fields.length) ∧
      ∀ f ∈ s.fields,
        (∃ r, mappers.find? f.name = some r ∧ r.name = f.name ∧ r.type = f.type ∧
          ∀ literal, r.map literal = (Mapper.mk f.name f.type).map literal) ∧
        (Sql.Names.ofSchema s).find? f.name = some (f.column.getD (Sql.columnName f.name)) ∧
        ∃ get, (Record.getters s).find? f.name = some get ∧
          ∀ record : Record, get record = (record.find? f.name).getD .null := by
  refine ⟨exists_mappers_error_iff, fun e => mappers_eq_error_iff, fun mappers h => ?_⟩
  have hnodup := nodup_of_mappers h
  have hsize {α : Type} {t : Table α} (hkeys : t.keys = s.fields.map FieldSpec.name) :
      t.keys = s.fields.map FieldSpec.name ∧ t.size = s.fields.length :=
    ⟨hkeys, by rw [← Table.length_keys, hkeys, List.length_map]⟩
  refine ⟨hsize (keys_mappers h), hsize (keys_names hnodup), hsize (keys_getters hnodup),
    fun f hf => ?_⟩
  have hfield := field?_of_mem hnodup hf
  refine ⟨⟨_, ?_, rfl, rfl, Mapper.map_reader _⟩, ?_, _, find?_getters_of_field? hnodup hfield,
    fun _ => rfl⟩
  · rw [find?_mappers h, hfield, Option.map_some]
  · rw [find?_names hnodup, hfield, Option.map_some]

/-- Of two names that come again, the error is the one that comes again first. Without the second
half of the fields there are mappers, and the column is the declared one. -/
theorem tables_agree_repeated :
    let a : FieldSpec := ⟨"a".toList, some "b".toList, .boolean⟩
    let b : FieldSpec := ⟨"b".toList, none, .integer .w32⟩
    (⟨[a, b, b, a]⟩ : Schema).mappers = .error ⟨"b".toList⟩ ∧
      ∃ mappers, (⟨[a, b]⟩ : Schema).mappers = .ok mappers ∧ mappers.size = 2 ∧
        (Sql.Names.ofSchema ⟨[a, b]⟩).find? "a".toList = some "b".toList := by
  intro a b
  refine ⟨((tables_agree ⟨[a, b, b, a]⟩).2.1 _).2 ⟨2, b, rfl, rfl, by decide, fun j hj g hg => ?_⟩,
    ?_⟩
  · obtain rfl | rfl : j = 0 ∨ j = 1 := by omega
    · exact List.not_mem_nil
    · obtain rfl := Option.some.inj hg
      decide
  · obtain ⟨mappers, hmappers⟩ := exists_mappers_iff.2
      (show ((⟨[a, b]⟩ : Schema).fields.map FieldSpec.name).Nodup by decide)
    obtain ⟨⟨-, hsize⟩, -, -, hfields⟩ := (tables_agree ⟨[a, b]⟩).2.2 mappers hmappers
    exact ⟨mappers, hmappers, hsize, (hfields a List.mem_cons_self).2.1⟩

end Schema

end RecordQuery
