import RecordQuery.Proofs.Json.Parts
import RecordQuery.Schema.Json

/-!
# Schemas read back

A schema that has been written as JSON is read back as it was. In the object of a field the parts of
its type stand among its own: behind the name, and behind the column if one is set. What makes the
reader find them again is that all these keys are told apart, so that a field has its own two keys
and leaves the others to its type.

## Main results

* `ValueType.ofFieldMembers?_documents`: a type is read back from its members
* `FieldSpec.ofDocument?_document`: a field is read back, with its column or without one
* `Schema.ofJsonText?_toJson`: a schema is read back from the text that is written for it
-/

namespace RecordQuery

open Json (Document)

/-! ## Types -/

namespace ValueType

/-- The keys of a type. -/
def keys : List Text := ["type".toList, "enum_name".toList, "symbols".toList]

/-- The members of a type as they are read. -/
def documents (t : ValueType) : List (Text × Document) :=
  t.toMembers.map fun m => (m.1, m.2.document)

theorem mem_simple_or_exists_enum (t : ValueType) :
    t ∈ simple ∨ ∃ name symbols, t = .enum name symbols := by
  cases t with
  | enum name symbols => exact .inr ⟨name, symbols, rfl⟩
  | integer w => cases w <;> exact .inl (by decide)
  | real f => cases f <;> exact .inl (by decide)
  | _ => exact .inl (by decide)

theorem toMembers_of_mem_simple {t : ValueType} (h : t ∈ simple) :
    t.toMembers = [("type".toList, .string t.name)] := by
  cases t with
  | enum => simp [simple] at h
  | _ => rfl

theorem map_fst_toMembers_sublist (t : ValueType) : (t.toMembers.map Prod.fst).Sublist keys := by
  rcases t.mem_simple_or_exists_enum with h | ⟨name, symbols, rfl⟩
  · rw [toMembers_of_mem_simple h]
    exact List.singleton_sublist.2 List.mem_cons_self
  · exact .refl keys

theorem map_fst_documents (t : ValueType) :
    t.documents.map Prod.fst = t.toMembers.map Prod.fst := by
  rw [documents, List.map_map]
  rfl

theorem required?_documents {t : ValueType} {m : Text × Json} (h : m ∈ t.toMembers) :
    Json.required? m.1 t.documents = some m.2.document := by
  have hkeys : (t.documents.map Prod.fst).Nodup := by
    rw [map_fst_documents]
    exact t.map_fst_toMembers_sublist.nodup (by decide)
  exact Json.required?_of_mem hkeys (List.mem_map_of_mem (f := fun m => (m.1, m.2.document)) h)

/-- A type without parts stands at the place of its name. -/
theorem place?_name {t : ValueType} (h : t ∈ simple) :
    ∃ place, place? t.name = some place ∧ simple[place]? = some t := by
  have key : ∀ t ∈ simple, (place? t.name).bind (fun place => simple[place]?) = some t := by decide
  exact Option.bind_eq_some_iff.1 (key t h)

theorem ofFieldMembers?_of_tag {members : List (Text × Document)} {tag : Text}
    (h : Json.required? "type".toList members = some (Json.document (.string tag))) :
    ofFieldMembers? members = (place? tag).bind fun place => atPlace? place members := by
  rw [ofFieldMembers?, h]
  simp [Json.document, Document.text?]

theorem atPlace?_enum {members : List (Text × Document)} {name : Text} {symbols : List Text}
    (hname : Json.required? "enum_name".toList members = some (Json.document (.string name)))
    (hsymbols : Json.required? "symbols".toList members =
      some (Json.document (.array (symbols.map .string)))) :
    atPlace? simple.length members = some (.enum name symbols) := by
  have hread : (Json.document (.array (symbols.map .string))).items?.bind
      (List.mapM Document.text?) = some symbols :=
    Json.items?_document_array .string Document.text? fun s _ => Json.text?_document_string s
  obtain ⟨items, hitems, hread⟩ := Option.bind_eq_some_iff.1 hread
  unfold atPlace?
  refine Option.bind_eq_some_iff.2 ⟨(), if_pos rfl, ?_⟩
  refine Option.bind_eq_some_iff.2 ⟨_, hname, ?_⟩
  refine Option.bind_eq_some_iff.2 ⟨name, Json.text?_document_string name, ?_⟩
  refine Option.bind_eq_some_iff.2 ⟨_, hsymbols, ?_⟩
  refine Option.bind_eq_some_iff.2 ⟨items, hitems, ?_⟩
  exact Option.bind_eq_some_iff.2 ⟨symbols, hread, rfl⟩

/-- **A type is read back from its members.** -/
theorem ofFieldMembers?_documents (t : ValueType) : ofFieldMembers? t.documents = some t := by
  rcases t.mem_simple_or_exists_enum with h | ⟨name, symbols, rfl⟩
  · obtain ⟨place, hplace, htype⟩ := place?_name h
    have htag : ("type".toList, Json.string t.name) ∈ t.toMembers := by
      rw [toMembers_of_mem_simple h]
      exact List.mem_cons_self
    rw [ofFieldMembers?_of_tag (required?_documents htag), hplace, Option.bind_some, atPlace?,
      htype]
  · have hmem (m) (hm : m ∈ (enum name symbols).toMembers) := required?_documents hm
    rw [ofFieldMembers?_of_tag (hmem ("type".toList, .string "enum".toList) (by simp [toMembers]))]
    exact atPlace?_enum (hmem ("enum_name".toList, .string name) (by simp [toMembers]))
      (hmem ("symbols".toList, .array (symbols.map .string)) (by simp [toMembers]))

/-- A type is proper JSON, with a list in it at most. -/
theorem isSome_ofDocument?_documents (t : ValueType) (room : Nat) :
    t.documents.all (fun m => (Json.ofDocument? (room + 1) m.2).isSome) = true := by
  have hstring (room : Nat) (s : Text) :
      Json.ofDocument? room (Json.document (.string s)) = some (.string s) := by
    simp [Json.document, Json.ofDocument?]
  rcases t.mem_simple_or_exists_enum with h | ⟨name, symbols, rfl⟩
  · simp [documents, toMembers_of_mem_simple h, hstring]
  · have hsymbols : Json.ofDocument? (room + 1) (Json.document (.array (symbols.map .string))) =
        some (.array (symbols.map .string)) := by
      rw [Json.document, Json.documentItems_eq_map, Json.ofDocument?, List.map_map, List.mapM_map]
      exact congrArg (Option.map Json.array) (Json.mapM_eq_some_map fun s _ => hstring room s)
    simp [documents, toMembers, hstring, hsymbols]

theorem toMembers_numberless (t : ValueType) : ∀ m ∈ t.toMembers, m.2.Numberless := by
  rcases t.mem_simple_or_exists_enum with h | ⟨name, symbols, rfl⟩
  · rw [toMembers_of_mem_simple h]
    simpa using .string t.name
  · have hsymbols : (Json.array (symbols.map .string)).Numberless :=
      .array (List.forall_mem_map.2 fun symbol _ => .string symbol)
    simpa [toMembers] using ⟨.string _, .string name, hsymbols⟩

end ValueType

/-! ## Fields -/

namespace FieldSpec

/-- The members of a field but for those of its type. -/
def ownMembers (f : FieldSpec) : List (Text × Json) :=
  ("name".toList, .string f.name) ::
    (f.column.map fun column => ("column".toList, Json.string column)).toList

/-- The members of a field as they are read. -/
def documents (f : FieldSpec) : List (Text × Document) :=
  f.ownMembers.map (fun m => (m.1, m.2.document)) ++ f.type.documents

theorem map_fst_ownMembers_sublist (f : FieldSpec) :
    (f.ownMembers.map Prod.fst).Sublist ownKeys := by
  unfold ownMembers
  cases f.column with
  | none => exact List.singleton_sublist.2 List.mem_cons_self
  | some column => exact .refl ownKeys

theorem map_fst_documents (f : FieldSpec) :
    f.documents.map Prod.fst = f.ownMembers.map Prod.fst ++ f.type.toMembers.map Prod.fst := by
  rw [documents, List.map_append, List.map_map, ValueType.map_fst_documents]
  rfl

/-- All keys of a field are told apart. -/
theorem nodup_map_fst_documents (f : FieldSpec) : (f.documents.map Prod.fst).Nodup := by
  have hkeys : (ownKeys ++ ValueType.keys).Nodup := by decide
  rw [map_fst_documents]
  exact (f.map_fst_ownMembers_sublist.append f.type.map_fst_toMembers_sublist).nodup hkeys

theorem members?_document (f : FieldSpec) : f.toJson.document.members? = some f.documents := by
  have hmembers : f.toJson = .object (f.ownMembers ++ f.type.toMembers) := rfl
  rw [hmembers, Json.members?_document_object, List.map_append]
  rfl

theorem required?_name (f : FieldSpec) :
    Json.required? "name".toList f.documents = some (Json.document (.string f.name)) :=
  Json.required?_of_mem (m := ("name".toList, Json.document (.string f.name)))
    f.nodup_map_fst_documents List.mem_cons_self

theorem member?_column (f : FieldSpec) :
    Json.member? "column".toList f.documents =
      some (f.column.map fun column => Json.document (.string column)) := by
  cases hcolumn : f.column with
  | some column =>
    have hmem : ("column".toList, Json.document (.string column)) ∈ f.documents := by
      simp [documents, ownMembers, hcolumn]
    exact Json.member?_of_mem f.nodup_map_fst_documents hmem
  | none =>
    refine Json.member?_of_not_mem fun hmem => ?_
    rw [map_fst_documents, List.mem_append] at hmem
    rcases hmem with hown | htype
    · simp [ownMembers, hcolumn] at hown
    · exact absurd (f.type.map_fst_toMembers_sublist.subset htype) (by decide)

/-- What a field leaves to its type is what its type has written. -/
theorem filter_documents (f : FieldSpec) :
    f.documents.filter (fun m => m.1 ∉ ownKeys) = f.type.documents := by
  have hown : (f.ownMembers.map fun m => (m.1, m.2.document)).filter (fun m => m.1 ∉ ownKeys) =
      [] := by
    refine List.filter_eq_nil_iff.2 fun m hm => ?_
    obtain ⟨n, hn, rfl⟩ := List.mem_map.1 hm
    simpa using f.map_fst_ownMembers_sublist.subset (List.mem_map_of_mem hn)
  have htype : f.type.documents.filter (fun m => m.1 ∉ ownKeys) = f.type.documents := by
    refine List.filter_eq_self.2 fun m hm => ?_
    have hkey : m.1 ∈ ValueType.keys := by
      have hmem := List.mem_map_of_mem (f := Prod.fst) hm
      rw [ValueType.map_fst_documents] at hmem
      exact f.type.map_fst_toMembers_sublist.subset hmem
    have key : ∀ k ∈ ValueType.keys, k ∉ ownKeys := by decide
    simpa using key m.1 hkey
  rw [documents, List.filter_append, hown, htype, List.nil_append]

/-- **A field is read back**, with its column or without one. -/
theorem ofDocument?_document (f : FieldSpec) (room : Nat) :
    ofDocument? (room + 1) f.toJson.document = some f := by
  have hothers : f.type.documents.all (fun m => (Json.ofDocument? (room + 1) m.2).isSome) = true :=
    f.type.isSome_ofDocument?_documents room
  have hrest (column : Option Text) (hcolumn : f.column = column) :
      (do
        let others := f.documents.filter fun m => m.1 ∉ ownKeys
        guard (others.all fun m => (Json.ofDocument? (room + 1) m.2).isSome)
        return ⟨f.name, column, ← ValueType.ofFieldMembers? others⟩ : Option FieldSpec) =
        some f := by
    subst hcolumn
    rw [filter_documents]
    refine Option.bind_eq_some_iff.2 ⟨(), if_pos hothers, ?_⟩
    exact Option.bind_eq_some_iff.2 ⟨f.type, f.type.ofFieldMembers?_documents, rfl⟩
  unfold ofDocument?
  refine Option.bind_eq_some_iff.2 ⟨f.documents, f.members?_document, ?_⟩
  refine Option.bind_eq_some_iff.2 ⟨_, f.required?_name, ?_⟩
  refine Option.bind_eq_some_iff.2 ⟨f.name, Json.text?_document_string f.name, ?_⟩
  refine Option.bind_eq_some_iff.2 ⟨_, f.member?_column, ?_⟩
  cases hcolumn : f.column with
  | none => exact hrest none hcolumn
  | some column =>
    rw [Option.map_some, Json.document]
    refine Option.bind_eq_some_iff.2 ⟨some column, ?_, hrest (some column) hcolumn⟩
    rw [← Json.document, Json.text?_document_string, Option.map_some]

theorem toJson_numberless (f : FieldSpec) : f.toJson.Numberless := by
  have hown : ∀ m ∈ f.ownMembers, m.2.Numberless := by
    unfold ownMembers
    cases f.column with
    | none => simpa using .string f.name
    | some column => simpa using ⟨.string f.name, .string column⟩
  exact .object (List.forall_mem_append.2 ⟨hown, f.type.toMembers_numberless⟩)

end FieldSpec

/-! ## Schemas -/

namespace Schema

theorem toJson_numberless (s : Schema) : s.toJson.Numberless :=
  .object (List.forall_mem_singleton.2 (.array (List.forall_mem_map.2 fun f _ =>
    f.toJson_numberless)))

theorem ofDocument?_document (s : Schema) : ofDocument? s.toJson.document = some s := by
  have hmembers : s.toJson.document.members? =
      some [("fields".toList, (Json.array (s.fields.map FieldSpec.toJson)).document)] :=
    Json.members?_document_object _
  obtain ⟨items, hitems, hread⟩ := Option.bind_eq_some_iff.1 <|
    Json.items?_document_array FieldSpec.toJson
      (FieldSpec.ofDocument? (Json.maxDepth - fieldDepth))
      fun f (_ : f ∈ s.fields) => f.ofDocument?_document _
  calc ofDocument? s.toJson.document
      = s.toJson.document.members?.bind fun members =>
          (Json.required? "fields".toList members).bind fun fields =>
            fields.items?.bind fun items =>
              (items.mapM (FieldSpec.ofDocument? (Json.maxDepth - fieldDepth))).bind
                fun specs => some ⟨specs⟩ := rfl
    _ = (Json.array (s.fields.map FieldSpec.toJson)).document.items?.bind fun items =>
          (items.mapM (FieldSpec.ofDocument? (Json.maxDepth - fieldDepth))).bind
            fun specs => some ⟨specs⟩ := by rw [hmembers]; rfl
    _ = some s := by rw [hitems, Option.bind_some, hread, Option.bind_some]

/-- **A schema is read back from the text that is written for it**, in the compact form and in the
form over several lines, whatever its names, columns and symbols hold. -/
theorem ofJsonText?_toJson (s : Schema) (level : Nat) :
    ofJsonText? s.toJson.compact = some s ∧ ofJsonText? (s.toJson.pretty level) = some s := by
  constructor
  · rw [ofJsonText?, s.toJson_numberless.ofText?_compact, Option.bind_some, ofDocument?_document]
  · rw [ofJsonText?, s.toJson_numberless.ofText?_pretty, Option.bind_some, ofDocument?_document]

end Schema

end RecordQuery
