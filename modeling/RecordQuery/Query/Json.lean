import RecordQuery.Query.Basic
import RecordQuery.Json.Printer

/-!
# Query trees as JSON

A node is an object with one key, the name of its kind. A dangling connective is written like a
joined one whose right operand is `null`, and is read as such also where the right operand is
missing. Keys that no node has are skipped when a tree is read; a key that is repeated, or a part
of the wrong type, is refused. The parts of a comparison or a connective may also be given as a
list, in the order in which they are written.
-/

namespace RecordQuery.Query

open Json (Document)

/-! ## Writing -/

/-- A tree as a JSON value. -/
def toJson : Query → Json
  | comparison op field literal =>
    .object [("Comparison".toList, .object [("operator".toList, .string op.name),
      ("field".toList, .string field), ("literal".toList, .string literal)])]
  | joined c left right => logical c left.toJson right.toJson
  | dangling c left => logical c left.toJson .null
  | group inner => .object [("Parenthesis".toList, inner.toJson)]
where
  /-- A connective between two operands. -/
  logical (c : Connective) (left right : Json) : Json :=
    .object [("Logical".toList, .object [("operator".toList, .string c.name),
      ("left".toList, left), ("right".toList, right)])]

/-! ## Reading -/

/-- A name that holds nothing: given alone, or with `null` if there is room to open an object. -/
def bareName? (room : Nat) (d : Document) : Option Text :=
  match d.variant? with
  | some (name, none) => some name
  | some (name, some .null) => if 0 < room then some name else none
  | _ => none

/-- The parts of a node under their names, in the order in which they are written: from an object,
where each may be missing, or from a list, where none may. -/
def parts? (names : List Text) : Document → Option (List (Option Document))
  | .array items => if items.length = names.length then some (items.map some) else none
  | d => d.members?.bind fun members => names.mapM fun name => Json.member? name members

/-- A comparison from its parts. -/
def comparisonOf? (room : Nat) : List (Option Document) → Option Query
  | [some op, some field, some literal] => do
    return comparison (← (← bareName? room op) |> Comparator.ofName?) (← field.text?)
      (← literal.text?)
  | _ => none

/-- A tree from a document that opens at most `room` containers at once, those in skipped parts
apart. -/
def ofDocument? : Nat → Document → Option Query
  | room + 2, d =>
    match d.variant? with
    | some (kind, some body) =>
      if kind = "Comparison".toList then
        (parts? ["operator".toList, "field".toList, "literal".toList] body).bind
          (comparisonOf? room)
      else if kind = "Logical".toList then
        match parts? ["operator".toList, "left".toList, "right".toList] body with
        | some [some op, some left, right] => do
          let c ← (← bareName? room op) |> Connective.ofName?
          let left ← ofDocument? room left
          match right with
          | none | some .null => return dangling c left
          | some right => return joined c left (← ofDocument? room right)
        | _ => none
      else if kind = "Parenthesis".toList then (ofDocument? (room + 1) body).map group
      else none
    | _ => none
  | _, _ => none

/-- Reads a tree from JSON text. -/
def ofJsonText? (t : Text) : Option Query :=
  (Document.ofText? t).bind (ofDocument? Json.maxDepth)

end RecordQuery.Query
