import RecordQuery.Query.Json
import RecordQuery.Record.Basic
import RecordQuery.Schema.Json
import RecordQuery.Sql.Fragment

/-!
# Commands

Three things are done with a query on the command line: its tree is shown, it is rendered as SQL
for a schema, or the rows of a JSON file that it accepts are kept. Commands see files only through
a function that reads them by their paths, and say what is to be printed or saved; doing so is left
to the program.

Whatever goes wrong ends a command, and it then answers nothing but the error. Of a file that cannot
be read or written, the error holds what the system says. A schema that cannot be read is an invalid
schema. For the rows and for the file of the answer there is one wording, that of reading.
-/

namespace RecordQuery

/-- What can be asked for on the command line. -/
inductive Command
  | ast (query : Text) (limits : Limits)
  /-- The offset of the zone is judged only after the schema. -/
  | sql (query schemaPath : Text) (dialect : Sql.Dialect) (zoneSeconds : Int)
  | filter (query schemaPath inputPath : Text) (outputPath : Option Text)
  deriving DecidableEq, Repr

/-- What comes of reading the file at a path: its text, or what the system says about it. -/
abbrev ReadFile := Text → Except Text Text

/-- A file that cannot be read, and what the system says about it. -/
inductive ReadError
  | schema (complaint : Text)
  | rows (complaint : Text)
  deriving DecidableEq, Repr

/-- Why a command fails. -/
inductive CommandError
  | unreadable (error : ReadError)
  | parse (error : ParseError)
  | query (error : QueryError)
  | schemaText
  | duplicateField (error : DuplicateField)
  | rowsText
  | record (error : RecordError)
  | zoneOffset (seconds : Int)
  | unwritable (complaint : Text)

/-- The wording of an error. -/
def CommandError.message : CommandError → Text
  | unreadable (.schema complaint) =>
    "Invalid schema: Failed to read schema: ".toList ++ complaint
  | unreadable (.rows complaint) => "Failed to read input file: ".toList ++ complaint
  | parse e => "Failed to parse the query: ".toList ++ e.message
  | query e => "Failed to compile the query: ".toList ++ e.message
  | schemaText => "Invalid schema: Invalid schema: malformed JSON".toList
  | duplicateField e => "Invalid schema: ".toList ++ e.message
  | rowsText => "Failed to deserialize input as JSON: malformed JSON".toList
  | record e => e.message
  | zoneOffset seconds =>
    "Invalid zone offset: ".toList ++ Text.ofInt seconds ++ " seconds".toList
  | unwritable complaint => "Failed to read input file: ".toList ++ complaint

/-- What a command answers. -/
inductive Output
  | printed (text : Text)
  | saved (path text : Text)
  deriving DecidableEq, Repr

namespace Command

/-- A result with its error as one of a command. -/
def orFail {ε α : Type} (wrap : ε → CommandError) : Except ε α → Except CommandError α
  | .ok a => .ok a
  | .error e => .error (wrap e)

/-- A value that must be there. -/
def orElseFail {α : Type} (e : CommandError) : Option α → Except CommandError α
  | some a => .ok a
  | none => .error e

/-! ## Trees -/

/-- The tree of a query. -/
def tree (query : Text) (limits : Limits) : Except CommandError Query :=
  orFail .parse (Query.parse limits query)

/-! ## SQL -/

/-- A query as SQL for a schema. -/
def fragment (schema : Schema) (dialect : Sql.Dialect) (zoneSeconds : Int) (query : Text) :
    Except CommandError Sql.Fragment := do
  let zone ← orElseFail (.zoneOffset zoneSeconds) (ZoneOffset.ofSeconds? zoneSeconds)
  let mappers ← orFail .duplicateField schema.mappers
  let condition ← orFail .query
    ((Sql.backend (Sql.Names.ofSchema schema)).compileText mappers {} query)
  return condition.render ⟨dialect, zone⟩

/-- SQL as it is shown, its parameters as plain values. -/
def fragmentJson (f : Sql.Fragment) : Json :=
  .object [("params".toList, .array (f.params.map Value.toPlainJson)),
    ("sql".toList, .string f.sql)]

/-! ## Filtering -/

/-- Rows with the records loaded from them, kept where a predicate accepts the record. -/
def keep (predicate : Predicate Record) (rows : List (Json × Record)) :
    Except QueryError (List Json) := do
  return (← predicate.filterOn Prod.snd rows).map Prod.fst

/-- The rows that a query accepts. -/
def filterRows (engine : Wildcard.Engine) (schema : Schema) (mappers : Mappers) (query : Text)
    (rows : List Json) : Except CommandError (List Json) := do
  let records ← orFail .record (Record.ofRows schema mappers rows)
  let predicate ← orFail .query
    ((Memory.backend (Record.getters schema) engine).compileText mappers {} query)
  orFail .query (keep predicate (rows.zip records))

/-- Reads rows from JSON text: an array. -/
def rowsOfText? (t : Text) : Option (List Json) :=
  match Json.ofText? t with
  | some (.array rows) => some rows
  | _ => none

/-! ## Running -/

/-- The files that a command reads. -/
def inputPaths : Command → List Text
  | ast .. => []
  | sql _ schemaPath _ _ => [schemaPath]
  | filter _ schemaPath inputPath _ => [schemaPath, inputPath]

/-- What a file holds. -/
def contents (read : ReadFile) (unread : Text → ReadError) (path : Text) :
    Except CommandError Text :=
  orFail (fun complaint => .unreadable (unread complaint)) (read path)

/-- The schema that a file holds. -/
def schemaAt (read : ReadFile) (path : Text) : Except CommandError Schema := do
  orElseFail .schemaText (Schema.ofJsonText? (← contents read .schema path))

/-- The rows that a file holds. -/
def rowsAt (read : ReadFile) (path : Text) : Except CommandError (List Json) := do
  orElseFail .rowsText (rowsOfText? (← contents read .rows path))

/-- JSON on lines of its own. -/
def printedJson (j : Json) : Output := .printed (j.pretty 0 ++ ['\n'])

/-- Runs a command on files. -/
def run (engine : Wildcard.Engine) (read : ReadFile) : Command → Except CommandError Output
  | ast query limits => do
    return printedJson (← tree query limits).toJson
  | sql query schemaPath dialect zoneSeconds => do
    let schema ← schemaAt read schemaPath
    return printedJson (fragmentJson (← fragment schema dialect zoneSeconds query))
  | filter query schemaPath inputPath outputPath => do
    let schema ← schemaAt read schemaPath
    let mappers ← orFail .duplicateField schema.mappers
    let rows ← rowsAt read inputPath
    let kept := Json.array (← filterRows engine schema mappers query rows)
    match outputPath with
    | some path => return .saved path (kept.pretty 0)
    | none => return printedJson kept

end Command

end RecordQuery
