import RecordQuery.Command.Basic
import RecordQuery.Command.Files

/-!
# Command-line arguments

The first argument names a command; the others are its options, each with a value: `--name value`
or `--name=value`. No option may be given twice. A value in an argument of its own must not look
like an option, unless its option takes any value; a lone `-` does not look like one. A final `--`
is allowed and means nothing.

Before a command, `--version` or `-V` asks for the version, whatever follows.

The program reads every file that its command names before it goes on, so that the rest of it, but
for writing the answer, is a function of what the files hold.
-/

namespace RecordQuery

namespace Arguments

/-! ## Options -/

/-- An option of a command. -/
structure OptionSpec where
  name : Text
  /-- Whether any argument is its value, options included. -/
  anyValue : Bool := false

/-- Whether an argument looks like an option. -/
def looksLikeOption : Text → Bool
  | '-' :: _ :: _ => true
  | _ => false

/-- What ends the options. -/
def terminator : Text := ['-', '-']

/-- Takes an option from the front of the arguments: its name, its value and the arguments behind
it. -/
def option? (specs : List OptionSpec) : List Text → Option ((Text × Text) × List Text)
  | [] => none
  | argument :: later => do
    let body ← Text.after? terminator argument
    let spec? (name : Text) : Option OptionSpec := specs.find? fun s => s.name = name
    match Text.cut? ['='] body with
    | some (name, value) =>
      let spec ← spec? name
      return ((spec.name, value), later)
    | none =>
      let spec ← spec? body
      match later with
      | [] => none
      | value :: later =>
        if looksLikeOption value && !spec.anyValue then none
        else return ((spec.name, value), later)

theorem length_of_option? {specs : List OptionSpec} {arguments later : List Text}
    {given : Text × Text} (h : option? specs arguments = some (given, later)) :
    later.length < arguments.length := by
  cases arguments with
  | nil => simp [option?] at h
  | cons argument rest =>
    simp only [option?, Option.bind_eq_bind, Option.bind_eq_some_iff] at h
    obtain ⟨body, _, h⟩ := h
    split at h
    · simp only [Option.bind_eq_some_iff] at h
      obtain ⟨_, _, h⟩ := h
      cases h
      simp
    · simp only [Option.bind_eq_some_iff] at h
      obtain ⟨_, _, h⟩ := h
      split at h
      · simp at h
      · split at h
        · simp at h
        · cases h
          simp only [List.length_cons]
          omega

/-- Collects the values of options on top of those that are given already. -/
def collect (specs : List OptionSpec) (given : Table Text) (arguments : List Text) :
    Option (Table Text) :=
  if arguments = [] ∨ arguments = [terminator] then some given
  else
    match _h : option? specs arguments with
    | none => none
    | some ((name, value), later) =>
      if (given.find? name).isSome then none
      else collect specs (given.insert name value) later
termination_by arguments.length
decreasing_by exact length_of_option? _h

/-! ## Values -/

/-- A value that is read if it is given, and must then be well-formed. -/
def optional? {α : Type} (read? : Text → Option α) (given : Table Text) (name : Text) :
    Option (Option α) :=
  match given.find? name with
  | none => some none
  | some value => (read? value).map some

/-- A count in 64 bits, without a minus sign. -/
def count? (t : Text) : Option Nat :=
  if Text.startsWith ['-'] t then none
  else (Text.readInt 0 (Int.pow 2 64 - 1) t).toOption.map Int.toNat

/-- A number of seconds in 32 bits. -/
def seconds? (t : Text) : Option Int :=
  (Text.readInt (-Int.pow 2 31) (Int.pow 2 31 - 1) t).toOption

/-- The name of a dialect on the command line. -/
def dialect? (t : Text) : Option Sql.Dialect :=
  if t = "generic".toList then some .generic
  else if t = "postgres".toList then some .postgres
  else if t = "mysql".toList then some .mySql
  else none

/-! ## Commands -/

/-- The options of `ast`. -/
def ast? (arguments : List Text) : Option Command := do
  let given ← collect
    [⟨"query".toList, false⟩, ⟨"max-depth".toList, false⟩, ⟨"max-height".toList, false⟩]
    .empty arguments
  let limits : Limits := {}
  let depth ← optional? count? given "max-depth".toList
  let height ← optional? count? given "max-height".toList
  return .ast (← given.find? "query".toList)
    ⟨depth.getD limits.maxDepth, height.getD limits.maxHeight⟩

/-- The options of `sql`. -/
def sql? (arguments : List Text) : Option Command := do
  let given ← collect
    [⟨"query".toList, false⟩, ⟨"schema".toList, false⟩, ⟨"dialect".toList, false⟩,
      ⟨"zone-offset".toList, true⟩]
    .empty arguments
  let dialect ← optional? dialect? given "dialect".toList
  let zone ← optional? seconds? given "zone-offset".toList
  return .sql (← given.find? "query".toList) (← given.find? "schema".toList)
    (dialect.getD .generic) (zone.getD 0)

/-- The options of `filter`. -/
def filter? (arguments : List Text) : Option Command := do
  let given ← collect
    [⟨"query".toList, false⟩, ⟨"schema".toList, false⟩, ⟨"input".toList, false⟩,
      ⟨"output".toList, false⟩]
    .empty arguments
  return .filter (← given.find? "query".toList) (← given.find? "schema".toList)
    (← given.find? "input".toList) (given.find? "output".toList)

/-- A command from its name and its options. -/
def command? (name : Text) (arguments : List Text) : Option Command :=
  if name = "ast".toList then ast? arguments
  else if name = "sql".toList then sql? arguments
  else if name = "filter".toList then filter? arguments
  else none

end Arguments

/-! ## The program -/

/-- What a run of the program leaves behind. -/
structure Outcome where
  exitCode : Nat
  /-- What is printed. -/
  stdout : Text := []
  /-- What is said about an error. -/
  stderr : Text := []
  /-- A file that is written, and what it then holds. -/
  file : Option (Text × Text) := none
  deriving DecidableEq, Repr

namespace Outcome

/-- What is answered when the version is asked for. -/
def version : Outcome := ⟨0, "sift 0.1.0\n".toList, [], none⟩

/-- The outcome of arguments that are no command. -/
def usage : Outcome := ⟨2, [], "usage: sift <ast|sql|filter> [options]\n".toList, none⟩

/-- The outcome of an error. -/
def ofError (e : CommandError) : Outcome :=
  ⟨1, [], "Error: ".toList ++ e.message ++ ['\n'], none⟩

/-- The outcome of a command. -/
def ofResult : Except CommandError Output → Outcome
  | .ok (.printed text) => ⟨0, text, [], none⟩
  | .ok (.saved path text) => ⟨0, [], [], some (path, text)⟩
  | .error e => ofError e

/-- Whether an argument asks for the version: the long option, or the short one with anything
behind it. -/
def asksVersion (argument : Text) : Bool :=
  argument = "--version".toList || Text.startsWith ['-', 'V'] argument

/-- The files that the program reads when it is run with arguments. -/
def inputPaths : List Text → List Text
  | [] => []
  | name :: arguments =>
    if asksVersion name then []
    else ((Arguments.command? name arguments).map Command.inputPaths).getD []

/-- The outcome of the program, which sees files through a function that reads them. -/
def ofArguments (engine : Wildcard.Engine) (read : ReadFile) : List Text → Outcome
  | [] => usage
  | name :: arguments =>
    if asksVersion name then version
    else
      match Arguments.command? name arguments with
      | none => usage
      | some command => ofResult (command.run engine read)

/-- Reads files, and looks up what came of it afterwards. -/
def readAhead {m : Type → Type} [Monad m] (access : FileAccess m) (paths : List Text) :
    m ReadFile := do
  let found ← paths.mapM fun path => return (path, ← access.read path)
  return fun path => (found.lookup path).getD (.error [])

/-- Runs the program: reads the files that the arguments name, and writes the file of the outcome,
if there is one. -/
def runOn {m : Type → Type} [Monad m] (access : FileAccess m) (engine : Wildcard.Engine)
    (arguments : List Text) : m Outcome := do
  let outcome := ofArguments engine (← readAhead access (inputPaths arguments)) arguments
  match outcome.file with
  | none => return outcome
  | some (path, text) =>
    match ← access.write path text with
    | .ok () => return outcome
    | .error complaint => return ofError (.unwritable complaint)

/-- Runs the program on text files. Gives the files as they are afterwards. -/
def onFiles (files : Files) (arguments : List Text) (engine : Wildcard.Engine := .unlimited) :
    Outcome × Files :=
  (runOn Files.access engine arguments).run files

end Outcome

end RecordQuery
