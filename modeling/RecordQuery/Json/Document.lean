import RecordQuery.Json.Lexeme

/-!
# JSON documents

A document is what JSON text says before anyone asks for values: members in the order written,
repeated keys included, strings as units and numbers as digits. Readers of typed values and of
plain values both start from it and judge what they need, so that a part which nobody uses may
hold a number out of range or half a surrogate pair.

Reading is a machine. `Reading` says what may come next, with the containers that are still open;
`Reading.step?` takes one lexeme; and a text is a document if the machine gets through all of its
lexemes to a complete value.
-/

namespace RecordQuery.Json

/-- A value as it is written. -/
inductive Document
  | null
  | bool (value : Bool)
  | number (numeral : Numeral)
  | string (units : List StringUnit)
  | array (items : List Document)
  | object (members : List (List StringUnit × Document))

/-- A container that is still open, its finished parts in reverse. An object has the key whose
value is being read. -/
inductive Container
  | array (items : List Document)
  | object (members : List (List StringUnit × Document)) (key : List StringUnit)

/-- What may come next. -/
inductive Reading
  /-- A value. -/
  | value (around : List Container)
  /-- The first item of an array, or its end. -/
  | item (around : List Container)
  /-- A key, or the end of an object that has no member yet. -/
  | key (members : List (List StringUnit × Document)) (around : List Container)
  /-- The colon behind a key. -/
  | colon (members : List (List StringUnit × Document)) (key : List StringUnit)
      (around : List Container)
  /-- Nothing more of a value: the rest of the containers around it. -/
  | done (value : Document) (around : List Container)

namespace Reading

/-- Takes the first lexeme of a value. -/
def begin? (around : List Container) : Lexeme → Option Reading
  | .null => some (done .null around)
  | .bool b => some (done (.bool b) around)
  | .number n => some (done (.number n) around)
  | .string units => some (done (.string units) around)
  | .openArray => some (item around)
  | .openObject => some (key [] around)
  | _ => none

/-- Takes one lexeme. -/
def step? : Reading → Lexeme → Option Reading
  | value around, l => begin? around l
  | item around, .closeArray => some (done (.array []) around)
  | item around, l => begin? (.array [] :: around) l
  | key members around, .string k => some (colon members k around)
  | key [] around, .closeObject => some (done (.object []) around)
  | colon members k around, .colon => some (value (.object members k :: around))
  | done v (.array items :: around), .comma => some (value (.array (v :: items) :: around))
  | done v (.array items :: around), .closeArray =>
    some (done (.array (v :: items).reverse) around)
  | done v (.object members k :: around), .comma => some (key ((k, v) :: members) around)
  | done v (.object members k :: around), .closeObject =>
    some (done (.object ((k, v) :: members).reverse) around)
  | _, _ => none

/-- The value that has been read, if nothing is open. -/
def result? : Reading → Option Document
  | done v [] => some v
  | _ => none

end Reading

namespace Document

/-- Reads a document from lexemes. -/
def ofLexemes? (lexemes : List Lexeme) : Option Document :=
  (lexemes.foldlM Reading.step? (.value [])).bind Reading.result?

/-- Reads a document from text. -/
def ofText? (t : Text) : Option Document := (Lexeme.ofText? t).bind ofLexemes?

/-! ## Parts of a document -/

/-- The text of a string. -/
def text? : Document → Option Text
  | string units => StringUnit.text? units
  | _ => none

/-- The members of an object under the texts of their keys. -/
def members? : Document → Option (List (Text × Document))
  | object members => members.mapM fun (units, v) => (StringUnit.text? units).map (·, v)
  | _ => none

/-- The items of an array. -/
def items? : Document → Option (List Document)
  | array items => some items
  | _ => none

end Document

/-- The value of a key among members: `none` if the key is repeated, `some none` if it is
missing. -/
def member? (key : Text) (members : List (Text × Document)) : Option (Option Document) :=
  match members.filter fun m => m.1 = key with
  | [] => some none
  | [m] => some (some m.2)
  | _ => none

/-- The value of a key that must be there, once. -/
def required? (key : Text) (members : List (Text × Document)) : Option Document :=
  (member? key members).join

/-- One of several named alternatives: its name alone, or an object whose only key is the name and
whose value is what the alternative holds. -/
def Document.variant? : Document → Option (Text × Option Document)
  | .string units => (StringUnit.text? units).map (·, none)
  | .object [(units, v)] => (StringUnit.text? units).map (·, some v)
  | _ => none

/-- Most containers that may be open at once where a document is read for its values. -/
def maxDepth : Nat := 127

end RecordQuery.Json
