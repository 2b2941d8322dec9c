import RecordQuery.Text.Basic

/-!
# Text files in directories

What a program can read and write by path. A path is a way through directories, name by name: `.`
and the empty name stay where they are, `..` goes to the directory around, and any other name but
the last one must be that of a directory that exists. The last name is that of the file. So a path
that ends in a slash or in a dot names no file, and a detour through a directory that does not
exist leads nowhere, even if it comes back.

Reading needs a file that exists. Writing makes the file if need be, but no directory.

## Access

A program is written for any way to read and write files (`FileAccess`). The system's files are one,
and the text files here are another.

## Main results

* `Files.read_of_write?`: after writing, a path to the file that was written reads the new text, and
  any other path reads what it read before
-/

namespace RecordQuery

/-- A way to read and write files by their paths. Where that cannot be done, it is said why. -/
structure FileAccess (m : Type → Type) where
  read : Text → m (Except Text Text)
  write : Text → Text → m (Except Text Unit)

/-- The names on the way from the root to a file or a directory. -/
abbrev Location := List Text

/-- Text files, and the directories that there are besides the root. Paths without a slash in front
start in the working directory. -/
structure Files where
  working : Location
  directories : List Location
  contents : List (Location × Text)

namespace Files

/-! ## Paths -/

/-- Most bytes in a name. -/
def mostNameBytes : Nat := 255

/-- Whether a file can have a name. -/
def isName (name : Text) : Bool :=
  Text.byteLength name ≤ mostNameBytes && !name.contains '\x00'

/-- Whether there is a directory. -/
def isDirectory (files : Files) (place : Location) : Bool :=
  place = [] || place = files.working || files.directories.contains place

/-- Follows names from a directory to the place that the last one names. -/
def follow? (isDirectory : Location → Bool) (place : Location) : List Text → Option Location
  | [] => none
  | name :: later =>
    if name = [] ∨ name = ['.'] then follow? isDirectory place later
    else if name = ['.', '.'] then follow? isDirectory place.dropLast later
    else if later = [] then some (place ++ [name])
    else if isDirectory (place ++ [name]) then follow? isDirectory (place ++ [name]) later
    else none

/-- The place of the file that a path names, whether or not the file exists. -/
def locate? (files : Files) (path : Text) : Option Location :=
  let names := Text.pieces '/' path
  let start := if Text.startsWith ['/'] path then [] else files.working
  if names.all isName then
    (follow? files.isDirectory start names).filter fun place => !files.isDirectory place
  else none

/-! ## Reading and writing -/

/-- What the file at a path holds. -/
def read? (files : Files) (path : Text) : Option Text :=
  (files.locate? path).bind fun place => files.contents.lookup place

/-- The files once a text has been written to a path. -/
def write? (files : Files) (path text : Text) : Option Files :=
  (files.locate? path).map fun place =>
    { files with contents := (place, text) :: files.contents }

/-- What is said of a path that leads to no file, whatever it is that keeps it from one. -/
def complaint : Text := "No such file or directory (os error 2)".toList

/-- What comes of reading the file at a path. -/
def read (files : Files) (path : Text) : Except Text Text :=
  match files.read? path with
  | some text => .ok text
  | none => .error complaint

/-- Access to the files. -/
def access : FileAccess (StateM Files) where
  read path files := (files.read path, files)
  write path text files :=
    match files.write? path text with
    | some after => (.ok (), after)
    | none => (.error complaint, files)

theorem locate?_of_write? {files after : Files} {path text : Text}
    (h : files.write? path text = some after) (other : Text) :
    after.locate? other = files.locate? other := by
  obtain ⟨place, _, rfl⟩ := Option.map_eq_some_iff.1 h
  rfl

theorem read?_of_write? {files after : Files} {path text : Text}
    (h : files.write? path text = some after) (other : Text) :
    after.read? other =
      if files.locate? other = files.locate? path then some text else files.read? other := by
  have hl := locate?_of_write? h other
  obtain ⟨place, hp, rfl⟩ := Option.map_eq_some_iff.1 h
  rw [read?, hl, hp, read?]
  cases files.locate? other with
  | none => simp
  | some p =>
    by_cases hq : p = place
    · simp [hq]
    · have hq' : (p == place) = false := by simpa using hq
      simp [hq, List.lookup_cons, hq']

/-- **What is read once a text has been written.** -/
theorem read_of_write? {files after : Files} {path text : Text}
    (h : files.write? path text = some after) (other : Text) :
    after.read other =
      if files.locate? other = files.locate? path then .ok text else files.read other := by
  rw [read, read?_of_write? h]
  by_cases hsame : files.locate? other = files.locate? path
  · rw [if_pos hsame, if_pos hsame]
  · rw [if_neg hsame, if_neg hsame, read]

end Files

end RecordQuery
