import Mathlib.Data.List.Nodup
import RecordQuery.Proofs.Json.Writing

/-!
# Parts of written values

A value that has been written is read by its parts: the text of a string, the items of an array, the
members of an object under their keys, the one key of an object that names an alternative. Each part
of the document of a value is the document of the part, so a reader of documents can be followed
without opening one.

## Main results

* `Json.members?_document_object`, `Json.items?_document_array`: the parts of written containers
* `Json.required?_of_mem`, `Json.member?_of_not_mem`: the parts of an object under its keys
-/

namespace RecordQuery.Json

@[simp] theorem text?_document_string (t : Text) : (document (.string t)).text? = some t :=
  StringUnit.text?_map_scalar t

@[simp] theorem variant?_document_string (t : Text) :
    (document (.string t)).variant? = some (t, none) := by
  simp [document, Document.variant?]

@[simp] theorem variant?_document_object (k : Text) (v : Json) :
    (document (.object [(k, v)])).variant? = some (k, some v.document) := by
  simp [document, documentMembers, Document.variant?]

theorem documentMembers_eq_map (members : List (Text × Json)) :
    documentMembers members = members.map fun m => (m.1.map .scalar, m.2.document) := by
  induction members with
  | nil => rfl
  | cons m members ih => rw [documentMembers, ih, List.map_cons]

/-- Where every element has a result, so has the list. -/
theorem mapM_eq_some_map {α β : Type} {f : α → Option β} {g : α → β} {as : List α}
    (h : ∀ a ∈ as, f a = some (g a)) : as.mapM f = some (as.map g) := by
  induction as with
  | nil => rfl
  | cons a as ih =>
    obtain ⟨ha, has⟩ := List.forall_mem_cons.1 h
    rw [List.mapM_cons, ha, ih has]
    rfl

theorem documentItems_eq_map (items : List Json) : documentItems items = items.map document := by
  induction items with
  | nil => rfl
  | cons v items ih => rw [documentItems, ih, List.map_cons]

/-- The items of a list are read back as each of them is. -/
theorem items?_document_array {α : Type} (write : α → Json) (read : Document → Option α)
    {as : List α} (h : ∀ a ∈ as, read (write a).document = some a) :
    (document (.array (as.map write))).items?.bind (List.mapM read) = some as := by
  have hitems : (document (.array (as.map write))).items? =
      some (as.map fun a => (write a).document) := by
    rw [document, documentItems_eq_map, List.map_map]
    rfl
  rw [hitems, Option.bind_some, List.mapM_map]
  exact (mapM_eq_some_map (g := id) h).trans (by rw [List.map_id])

theorem members?_document_object (members : List (Text × Json)) :
    (document (.object members)).members? = some (members.map fun m => (m.1, m.2.document)) := by
  rw [document, documentMembers_eq_map, Document.members?, List.mapM_map]
  exact mapM_eq_some_map fun m _ => by simp

/-- Among keys that are not repeated, each has its value. -/
theorem member?_of_mem {members : List (Text × Document)} (hkeys : (members.map Prod.fst).Nodup)
    {m : Text × Document} (hm : m ∈ members) : member? m.1 members = some (some m.2) := by
  have hfilter : (members.filter fun n => n.1 = m.1) = [m] := by
    induction members with
    | nil => cases hm
    | cons n members ih =>
      obtain ⟨hn, hkeys⟩ := List.nodup_cons.1 hkeys
      rcases List.mem_cons.1 hm with rfl | hm
      · rw [List.filter_cons_of_pos (by simp), List.filter_eq_nil_iff.2]
        intro l hl heq
        exact hn (of_decide_eq_true heq ▸ List.mem_map_of_mem hl)
      · have hne : n.1 ≠ m.1 := fun heq => hn (heq ▸ List.mem_map_of_mem hm)
        rw [List.filter_cons_of_neg (by simpa using hne), ih hkeys hm]
  rw [member?, hfilter]

theorem required?_of_mem {members : List (Text × Document)} (hkeys : (members.map Prod.fst).Nodup)
    {m : Text × Document} (hm : m ∈ members) : required? m.1 members = some m.2 := by
  rw [required?, member?_of_mem hkeys hm, Option.join_some]

theorem member?_of_not_mem {members : List (Text × Document)} {key : Text}
    (h : key ∉ members.map Prod.fst) : member? key members = some none := by
  have hfilter : (members.filter fun m => m.1 = key) = [] :=
    List.filter_eq_nil_iff.2 fun m hm heq => h (List.mem_map.2 ⟨m, hm, of_decide_eq_true heq⟩)
  rw [member?, hfilter]

end RecordQuery.Json
