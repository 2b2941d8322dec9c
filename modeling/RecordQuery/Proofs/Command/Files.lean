import Mathlib.Data.List.Basic
import RecordQuery.Command.Arguments
import RecordQuery.Proofs.Command.Filter

/-!
# The program on text files

The program reads ahead: it knows from its arguments which files its command names, reads them all,
and computes from what it has read. So a file is read that a failing command would not have come
to. That makes no difference, because a command depends on files only through the paths that it
names, and reading changes nothing.

Writing comes last, and only a command that has succeeded has something to write. So a failed run
leaves the files as they were, and any other run changes at most the file that its answer is saved
in.

## Main results

* `Command.run_congr`, `Outcome.ofArguments_congr`: only the files that are named matter
* `Outcome.onFiles_eq`: what the program makes of text files
* `Outcome.onFiles_unchanged`, `Outcome.read_onFiles`: what the files hold afterwards
* `Outcome.onFiles_filter`: filtering, from the arguments to the files
-/

namespace RecordQuery

/-! ## The files that matter -/

namespace Command

variable {read read' : ReadFile}

theorem contents_congr {path : Text} (h : read path = read' path) (unread : Text → ReadError) :
    contents read unread path = contents read' unread path := by
  rw [contents, contents, h]

theorem schemaAt_congr {path : Text} (h : read path = read' path) :
    schemaAt read path = schemaAt read' path := by
  rw [schemaAt, schemaAt, contents_congr h]

theorem rowsAt_congr {path : Text} (h : read path = read' path) :
    rowsAt read path = rowsAt read' path := by
  rw [rowsAt, rowsAt, contents_congr h]

/-- **A command depends on files only through the paths that it names.** -/
theorem run_congr (engine : Wildcard.Engine) (command : Command)
    (h : ∀ path ∈ command.inputPaths, read path = read' path) :
    command.run engine read = command.run engine read' := by
  cases command with
  | ast query limits => rfl
  | sql query schemaPath dialect zoneSeconds =>
    have hschema := h schemaPath List.mem_cons_self
    rw [run, run, schemaAt_congr hschema]
  | filter query schemaPath inputPath outputPath =>
    have hschema := h schemaPath List.mem_cons_self
    have hrows := h inputPath (List.mem_cons_of_mem _ List.mem_cons_self)
    rw [run, run, schemaAt_congr hschema, rowsAt_congr hrows]

end Command

namespace Outcome

variable {engine : Wildcard.Engine} {arguments : List Text}

/-- The name of a command asks for no version. -/
theorem asksVersion_of_command? {name : Text} {command : Command}
    (h : Arguments.command? name arguments = some command) : asksVersion name = false := by
  rw [Arguments.command?] at h
  split_ifs at h with hast hsql hfilter
  · rw [hast]
    decide
  · rw [hsql]
    decide
  · rw [hfilter]
    decide

theorem ofArguments_of_command? {name : Text} {command : Command}
    (h : Arguments.command? name arguments = some command) (engine : Wildcard.Engine)
    (read : ReadFile) :
    ofArguments engine read (name :: arguments) = ofResult (command.run engine read) := by
  rw [ofArguments, asksVersion_of_command? h, h]
  rfl

/-- Arguments name a command, which is then run, or they have one outcome whatever there is to
read. -/
theorem cases_arguments (arguments : List Text) :
    (∃ command : Command, inputPaths arguments = command.inputPaths ∧
        ∀ engine read, ofArguments engine read arguments = ofResult (command.run engine read)) ∨
      ∃ outcome, (outcome = usage ∨ outcome = version) ∧
        ∀ engine read, ofArguments engine read arguments = outcome := by
  cases arguments with
  | nil => exact .inr ⟨usage, .inl rfl, fun _ _ => rfl⟩
  | cons name arguments =>
    cases hcommand : Arguments.command? name arguments with
    | some command =>
      refine .inl ⟨command, ?_, ofArguments_of_command? hcommand⟩
      rw [inputPaths, asksVersion_of_command? hcommand, hcommand]
      rfl
    | none =>
      cases hversion : asksVersion name with
      | true =>
        refine .inr ⟨version, .inr rfl, fun engine read => ?_⟩
        rw [ofArguments, if_pos hversion]
      | false =>
        refine .inr ⟨usage, .inl rfl, fun engine read => ?_⟩
        rw [ofArguments, hversion, hcommand]
        rfl

/-- **So does the program.** -/
theorem ofArguments_congr (engine : Wildcard.Engine) {read read' : ReadFile}
    (h : ∀ path ∈ inputPaths arguments, read path = read' path) :
    ofArguments engine read arguments = ofArguments engine read' arguments := by
  rcases cases_arguments arguments with ⟨command, hpaths, hrun⟩ | ⟨outcome, -, hsame⟩
  · rw [hrun, hrun, command.run_congr engine (hpaths ▸ h)]
  · rw [hsame, hsame]

/-- **A failed run has no answer**, printed or saved. -/
theorem answerless_of_exitCode_ne_zero {read : ReadFile}
    (h : (ofArguments engine read arguments).exitCode ≠ 0) :
    (ofArguments engine read arguments).stdout = [] ∧
      (ofArguments engine read arguments).file = none := by
  rcases cases_arguments arguments with ⟨command, -, hrun⟩ | ⟨outcome, houtcome, hsame⟩
  · rw [hrun] at h ⊢
    cases hresult : command.run engine read with
    | error e => exact ⟨rfl, rfl⟩
    | ok output =>
      rw [hresult] at h
      cases output <;> exact absurd rfl h
  · rw [hsame] at h ⊢
    rcases houtcome with rfl | rfl
    · exact ⟨rfl, rfl⟩
    · exact absurd rfl h

/-! ## Reading ahead -/

variable {files : Files}

/-- Of two steps on files, the second one goes on from where the first one ends. -/
theorem run_bind_files {α β : Type} (x : StateM Files α) (f : α → StateM Files β)
    (files : Files) : (x >>= f).run files = (f (x.run files).1).run (x.run files).2 := rfl

theorem run_mapM_read (files : Files) (paths : List Text) :
    (paths.mapM fun path => return (path, ← Files.access.read path)).run files =
      (paths.map fun path => (path, files.read path), files) := by
  induction paths with
  | nil => rfl
  | cons path paths ih =>
    have hpath : StateT.run (return (path, ← Files.access.read path)) files =
        ((path, files.read path), files) := rfl
    rw [List.mapM_cons, run_bind_files, hpath, run_bind_files, ih]
    rfl

/-- Reading ahead changes no file and finds what each one holds. -/
theorem exists_readAhead (files : Files) (paths : List Text) :
    ∃ read : ReadFile, (readAhead Files.access paths).run files = (read, files) ∧
      ∀ path ∈ paths, read path = files.read path := by
  refine ⟨fun path => ((paths.map fun p => (p, files.read p)).lookup path).getD (.error []), ?_,
    fun path hpath => ?_⟩
  · rw [readAhead, run_bind_files, run_mapM_read]
    rfl
  · dsimp only
    rw [List.lookup_graph files.read hpath, Option.getD_some]

/-! ## Afterwards -/

/-- **The program computes its outcome from the files, and then writes the file of the outcome**, if
there is one. -/
theorem onFiles_eq (files : Files) (arguments : List Text) (engine : Wildcard.Engine) :
    onFiles files arguments engine =
      match (ofArguments engine files.read arguments).file with
      | none => (ofArguments engine files.read arguments, files)
      | some (path, text) =>
        match files.write? path text with
        | some after => (ofArguments engine files.read arguments, after)
        | none => (ofError (.unwritable Files.complaint), files) := by
  obtain ⟨read, hread, hsame⟩ := exists_readAhead files (inputPaths arguments)
  rw [onFiles, runOn, run_bind_files, hread, ← ofArguments_congr engine hsame]
  dsimp only
  cases (ofArguments engine read arguments).file with
  | none => rfl
  | some answer =>
    obtain ⟨path, text⟩ := answer
    have hwrite : (Files.access.write path text).run files =
        match files.write? path text with
        | some after => (.ok (), after)
        | none => (.error Files.complaint, files) := rfl
    dsimp only
    rw [run_bind_files, hwrite]
    cases files.write? path text <;> rfl

/-- There is nothing to write, or a file has been written, or it could not be. -/
theorem cases_onFiles (files : Files) (arguments : List Text) (engine : Wildcard.Engine) :
    (ofArguments engine files.read arguments).file = none ∧
        onFiles files arguments engine = (ofArguments engine files.read arguments, files) ∨
      (∃ path text after, (ofArguments engine files.read arguments).file = some (path, text) ∧
        files.write? path text = some after ∧
        onFiles files arguments engine = (ofArguments engine files.read arguments, after)) ∨
      onFiles files arguments engine = (ofError (.unwritable Files.complaint), files) := by
  rw [onFiles_eq]
  cases hfile : (ofArguments engine files.read arguments).file with
  | none => exact .inl ⟨rfl, rfl⟩
  | some answer =>
    obtain ⟨path, text⟩ := answer
    dsimp only
    cases hwrite : files.write? path text with
    | some after => exact .inr (.inl ⟨path, text, after, rfl, hwrite, rfl⟩)
    | none => exact .inr (.inr rfl)

/-- **A failed run leaves the files as they were**, and so does one that saves no answer. -/
theorem onFiles_unchanged
    (h : (onFiles files arguments engine).1.exitCode ≠ 0 ∨
      (onFiles files arguments engine).1.file = none) :
    (onFiles files arguments engine).2 = files := by
  rcases cases_onFiles files arguments engine with
    ⟨-, hrun⟩ | ⟨path, text, after, hfile, -, hrun⟩ | hrun
  · rw [hrun]
  · rw [hrun] at h
    have hnone := h.elim (fun hcode => (answerless_of_exitCode_ne_zero hcode).2) id
    cases hfile.symm.trans hnone
  · rw [hrun]

/-- **A saved answer is in its file, and every other file is as it was.** Paths are told apart by
where they lead. -/
theorem read_onFiles {path text : Text}
    (h : (onFiles files arguments engine).1.file = some (path, text)) (other : Text) :
    (onFiles files arguments engine).2.read other =
      if files.locate? other = files.locate? path then .ok text else files.read other := by
  rcases cases_onFiles files arguments engine with
    ⟨hfile, hrun⟩ | ⟨path', text', after, hfile, hwrite, hrun⟩ | hrun
  · rw [hrun] at h
    cases hfile.symm.trans h
  · rw [hrun] at h ⊢
    obtain ⟨rfl, rfl⟩ := Prod.mk.inj (Option.some.inj (hfile.symm.trans h))
    exact Files.read_of_write? hwrite other
  · rw [hrun] at h
    cases h

/-! ## Filtering -/

/-- **Filtering, from the arguments to the files.** -/
theorem onFiles_filter {name query schemaPath inputPath : Text} {outputPath : Option Text}
    (hcommand : Arguments.command? name arguments =
      some (.filter query schemaPath inputPath outputPath)) {schema : Schema} {rows : List Json}
    (hschema : Command.schemaAt files.read schemaPath = .ok schema)
    (hrows : Command.rowsAt files.read inputPath = .ok rows)
    {result : Except CommandError (List Json)}
    (h : Command.Filtered engine schema query rows result) :
    onFiles files (name :: arguments) engine =
      match result, outputPath with
      | .error e, _ => (ofError e, files)
      | .ok kept, none => (⟨0, (Json.array kept).pretty 0 ++ ['\n'], [], none⟩, files)
      | .ok kept, some path =>
        match files.write? path ((Json.array kept).pretty 0) with
        | some after => (⟨0, [], [], some (path, (Json.array kept).pretty 0)⟩, after)
        | none => (ofError (.unwritable Files.complaint), files) := by
  rw [onFiles_eq, ofArguments_of_command? hcommand,
    Command.run_filter_eq_map_outcome engine hschema hrows, h.outcome_eq]
  cases result with
  | error e => rfl
  | ok kept => cases outputPath <;> rfl

/-- A row without the field is not kept, and the file of the answer is a new one. -/
example :
    let files : Files := ⟨["w".toList], [], [
      (["w".toList, ['s']],
        "\x7b\"fields\":[\x7b\"name\":\"age\",\"type\":\"int8\"\x7d]\x7d".toList),
      (["w".toList, ['r']], "[\x7b\"age\":5\x7d,\x7b\x7d]".toList)]⟩
    let arguments := ["filter".toList, "--query=age = 5".toList, "--schema".toList, ['s'],
      "--input".toList, "./r".toList, "--output".toList, ['o']]
    (onFiles files arguments).2.read? ['o'] =
      some "[\n  \x7b\n    \"age\": 5\n  \x7d\n]".toList := by
  decide +kernel

end Outcome

end RecordQuery
