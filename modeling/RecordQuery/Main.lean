import RecordQuery.Command.Arguments

/-!
# The program

Runs on the files of the system, and then prints and exits as the outcome says.
-/

namespace RecordQuery

/-- What an action gives, or what the system says where it fails. -/
def complained {α : Type} (action : IO α) : IO (Except Text α) := do
  try return .ok (← action)
  catch e => return .error e.toString.toList

/-- Access to the files of the system. -/
def systemFiles : FileAccess IO where
  read path := complained do return (← IO.FS.readFile (String.ofList path)).toList
  write path text := complained do IO.FS.writeFile (String.ofList path) (String.ofList text)

/-- Runs the program and gives its exit code. The engine for patterns that is built in takes every
pattern. -/
def runProgram (arguments : List Text) : IO UInt32 := do
  let outcome ← Outcome.runOn systemFiles .unlimited arguments
  IO.print (String.ofList outcome.stdout)
  IO.eprint (String.ofList outcome.stderr)
  return outcome.exitCode.toUInt32

end RecordQuery

/-- The program's entry. -/
def main (arguments : List String) : IO UInt32 :=
  RecordQuery.runProgram (arguments.map String.toList)
