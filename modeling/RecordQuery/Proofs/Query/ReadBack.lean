import RecordQuery.Proofs.Json.Parts
import RecordQuery.Query.Json

/-!
# Trees read back

A query tree that has been written as JSON is read back as it was. The operators and connectives
have names that are told apart, the parts of a node stand under keys that are told apart, and a
connective without its right operand is known by a `null` in the place of the operand, which no tree
is written as.

## Room

A reader opens a bounded number of containers at once, and a tree opens one for each group and two
for each comparison or connective. That is the only reason for which a tree may not be read back,
and where there is too little room the reader refuses the text as a whole.

## Main results

* `Query.ofDocument?_document`, `Query.ofDocument?_eq_none`: where there is room for a tree, and
  where there is not
* `Query.ofJsonText?_written`: what is read from the text of a tree
-/

namespace RecordQuery

namespace Json

/-! ## Containers in containers -/

mutual

/-- How many containers of a value are open at once. -/
def nesting : Json → Nat
  | array items => nestingItems items + 1
  | object members => nestingMembers members + 1
  | _ => 0

/-- How many containers of items are open at once. -/
def nestingItems : List Json → Nat
  | [] => 0
  | v :: items => max v.nesting (nestingItems items)

/-- How many containers of members are open at once. -/
def nestingMembers : List (Text × Json) → Nat
  | [] => 0
  | (_, v) :: members => max v.nesting (nestingMembers members)

end

end Json

/-! ## Names -/

theorem Comparator.ofName?_name (op : Comparator) : ofName? op.name = some op := by
  have key : ∀ op ∈ all, ofName? op.name = some op := by decide
  exact key op op.mem_all

theorem Connective.ofName?_name (c : Connective) : ofName? c.name = some c := by
  cases c <;> decide

namespace Query

open Json (Document)

/-- The parts of a written object under its own keys, none of them repeated. -/
theorem parts?_document_object {members : List (Text × Json)} {names : List Text}
    (hkeys : members.map Prod.fst = names) (hnames : names.Nodup) :
    parts? names (Json.document (.object members)) =
      some (members.map fun m => some m.2.document) := by
  subst hkeys
  have hnodup : ((members.map fun m => (m.1, m.2.document)).map Prod.fst).Nodup := by
    simpa [Function.comp_def] using hnames
  calc
    _ = (Json.document (.object members)).members?.bind fun ms =>
          (members.map Prod.fst).mapM fun name => Json.member? name ms := rfl
    _ = members.mapM fun m =>
          Json.member? m.1 (members.map fun m => (m.1, m.2.document)) := by
        rw [Json.members?_document_object, Option.bind_some, List.mapM_map]
        rfl
    _ = _ := Json.mapM_eq_some_map fun m hm => Json.member?_of_mem hnodup
        (List.mem_map_of_mem (f := fun m => (m.1, m.2.document)) hm)

/-! ## Trees -/

theorem bareName?_document (room : Nat) (name : Text) :
    bareName? room (Json.document (.string name)) = some name := by
  rw [bareName?, Json.variant?_document_string]

theorem toJson_numberless (q : Query) : q.toJson.Numberless := by
  have hlogical : ∀ (c : Connective) {left right : Json}, left.Numberless → right.Numberless →
      (toJson.logical c left right).Numberless := by
    intro c left right hleft hright
    refine .object (List.forall_mem_singleton.2 (.object ?_))
    simpa using ⟨.string c.name, hleft, hright⟩
  induction q with
  | comparison op field literal =>
    refine .object (List.forall_mem_singleton.2 (.object ?_))
    simpa using ⟨.string op.name, .string field, .string literal⟩
  | joined c left right ihl ihr => exact hlogical c ihl ihr
  | dangling c left ih => exact hlogical c ih .null
  | group inner ih => exact .object (List.forall_mem_singleton.2 ih)

/-- Less than two containers hold no node. -/
theorem ofDocument?_of_lt_two {room : Nat} (h : room < 2) (d : Document) :
    ofDocument? room d = none := by
  match room, h with
  | 0, _ | 1, _ => rfl

theorem ofDocument?_comparison (room : Nat) (op : Comparator) (field literal : Text) :
    ofDocument? (room + 2) (comparison op field literal).toJson.document =
      some (comparison op field literal) := by
  have hparts : parts? ["operator".toList, "field".toList, "literal".toList]
      (Json.document (.object [("operator".toList, .string op.name),
        ("field".toList, .string field), ("literal".toList, .string literal)])) = _ :=
    parts?_document_object rfl (by decide)
  rw [toJson, ofDocument?, Json.variant?_document_object]
  simp only [if_pos, hparts]
  simp [comparisonOf?, bareName?_document, Comparator.ofName?_name]

/-- A connective is read with its left operand, and with its right one unless that is `null`. -/
theorem ofDocument?_logical (room : Nat) (c : Connective) (left right : Json) :
    ofDocument? (room + 2) (toJson.logical c left right).document =
      (ofDocument? room left.document).bind fun l =>
        match right.document with
        | .null => some (dangling c l)
        | d => (ofDocument? room d).bind fun r => some (joined c l r) := by
  have hparts : parts? ["operator".toList, "left".toList, "right".toList]
      (Json.document (.object [("operator".toList, .string c.name), ("left".toList, left),
        ("right".toList, right)])) = _ := parts?_document_object rfl (by decide)
  have hkind : "Logical".toList ≠ "Comparison".toList := by decide
  rw [toJson.logical, ofDocument?, Json.variant?_document_object]
  simp only [if_neg hkind, if_pos, hparts, List.map_cons, List.map_nil, bareName?_document,
    Option.bind_eq_bind, Option.bind_some, Connective.ofName?_name]
  cases right.document <;> rfl

theorem ofDocument?_joined (room : Nat) (c : Connective) (left right : Query) :
    ofDocument? (room + 2) (joined c left right).toJson.document =
      (ofDocument? room left.toJson.document).bind fun l =>
        (ofDocument? room right.toJson.document).bind fun r => some (joined c l r) := by
  rw [toJson, ofDocument?_logical]
  cases right <;> rfl

theorem ofDocument?_dangling (room : Nat) (c : Connective) (left : Query) :
    ofDocument? (room + 2) (dangling c left).toJson.document =
      (ofDocument? room left.toJson.document).bind fun l => some (dangling c l) :=
  ofDocument?_logical room c left.toJson .null

theorem ofDocument?_group (room : Nat) (inner : Query) :
    ofDocument? (room + 2) (group inner).toJson.document =
      (ofDocument? (room + 1) inner.toJson.document).map group := by
  rw [toJson, ofDocument?, Json.variant?_document_object]
  rfl

/-! ### How far a tree opens containers -/

theorem nesting_logical (c : Connective) (left right : Json) :
    (toJson.logical c left right).nesting = max left.nesting right.nesting + 2 := by
  simp [toJson.logical, Json.nesting, Json.nestingMembers]

theorem nesting_group (inner : Query) :
    (group inner).toJson.nesting = inner.toJson.nesting + 1 := by
  simp [toJson, Json.nesting, Json.nestingMembers]

theorem two_le_nesting (q : Query) : 2 ≤ q.toJson.nesting := by
  induction q with
  | comparison => exact Nat.le_refl 2
  | joined c left right => exact nesting_logical c .. ▸ Nat.le_add_left 2 _
  | dangling c left => exact nesting_logical c .. ▸ Nat.le_add_left 2 _
  | group inner ih => exact nesting_group inner ▸ Nat.le_succ_of_le ih

/-- **A tree is read from its own document** where there is room for it. -/
theorem ofDocument?_document {q : Query} {room : Nat} (h : q.toJson.nesting ≤ room) :
    ofDocument? room q.toJson.document = some q := by
  induction q generalizing room with
  | comparison op field literal =>
    obtain ⟨room, rfl⟩ := Nat.exists_eq_add_of_le' h
    exact ofDocument?_comparison room op field literal
  | joined c left right ihl ihr =>
    rw [toJson, nesting_logical] at h
    obtain ⟨room, rfl⟩ := Nat.exists_eq_add_of_le' (Nat.le_of_add_left_le h)
    obtain ⟨hl, hr⟩ := Nat.max_le.1 (Nat.le_of_add_le_add_right h)
    rw [ofDocument?_joined, ihl hl, ihr hr]
    rfl
  | dangling c left ih =>
    rw [toJson, nesting_logical] at h
    obtain ⟨room, rfl⟩ := Nat.exists_eq_add_of_le' (Nat.le_of_add_left_le h)
    obtain ⟨hl, -⟩ := Nat.max_le.1 (Nat.le_of_add_le_add_right h)
    rw [ofDocument?_dangling, ih hl]
    rfl
  | group inner ih =>
    rw [nesting_group] at h
    have hinner := two_le_nesting inner
    obtain ⟨room, rfl⟩ := Nat.exists_eq_add_of_le' (show 2 ≤ room by omega)
    rw [ofDocument?_group, ih (by omega)]
    rfl

/-- A tree is not read where there is too little room. -/
theorem ofDocument?_eq_none {q : Query} {room : Nat} (h : room < q.toJson.nesting) :
    ofDocument? room q.toJson.document = none := by
  induction q generalizing room with
  | comparison => exact ofDocument?_of_lt_two h _
  | joined c left right ihl ihr =>
    match room with
    | 0 | 1 => rfl
    | room + 2 =>
      rw [toJson, nesting_logical] at h
      have hroom : room < left.toJson.nesting ∨ room < right.toJson.nesting := by omega
      rw [ofDocument?_joined]
      rcases hroom with hl | hr
      · rw [ihl hl, Option.bind_none]
      · rw [ihr hr]
        exact Option.bind_fun_none _
  | dangling c left ih =>
    match room with
    | 0 | 1 => rfl
    | room + 2 =>
      have hnull : Json.null.nesting = 0 := rfl
      rw [toJson, nesting_logical] at h
      rw [ofDocument?_dangling, ih (by omega), Option.bind_none]
  | group inner ih =>
    match room with
    | 0 | 1 => rfl
    | room + 2 =>
      rw [nesting_group, Nat.succ_lt_succ_iff] at h
      rw [ofDocument?_group, ih h, Option.map_none]

/-- **A tree is read back from the text that is written for it**, in the compact form and in the
form over several lines, whatever its field names and literals hold. The only trees that are not
read back are those whose texts open more than 127 containers at once: a reader goes no deeper. -/
theorem ofJsonText?_written (q : Query) (level : Nat) :
    ofJsonText? q.toJson.compact = (if q.toJson.nesting ≤ 127 then some q else none) ∧
      ofJsonText? (q.toJson.pretty level) = if q.toJson.nesting ≤ 127 then some q else none := by
  have hread : ofDocument? Json.maxDepth q.toJson.document =
      if q.toJson.nesting ≤ 127 then some q else none := by
    rw [Json.maxDepth]
    split
    · next h => exact ofDocument?_document h
    · next h => exact ofDocument?_eq_none (Nat.lt_of_not_le h)
  constructor
  · rw [ofJsonText?, (toJson_numberless q).ofText?_compact, Option.bind_some, hread]
  · rw [ofJsonText?, (toJson_numberless q).ofText?_pretty, Option.bind_some, hread]

/-- A group, a list, a quote and a connective that waits. -/
example :
    let q := dangling .or (joined .and (comparison (.relation .equal) ['a'] ['"'])
      (group (comparison .member ['b'] "[x, y]".toList)))
    q.toJson.nesting = 7 ∧ ofJsonText? q.toJson.compact = some q ∧
      ofJsonText? (q.toJson.pretty 0) = some q := by
  decide +kernel

end Query

end RecordQuery
