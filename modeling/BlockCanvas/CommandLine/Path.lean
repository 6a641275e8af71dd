import BlockCanvas.Text.Utf8

/-!
# Paths and directories

The names that paths end in, and a directory of files without further directories.
-/

namespace BlockCanvas

namespace Path

/-- The parts of a path between its slashes, without those that stand for the directory itself. -/
def parts (path : Text) : List Text :=
  (Text.splitChar '/' path).filter fun part => part ≠ [] && part ≠ ['.']

/-- The name at the end of a path. -/
def fileName? (path : Text) : Option Text :=
  match (parts path).getLast? with
  | some name => if name = "..".toList then none else some name
  | none => none

/-- What follows the last point of the name at the end of a path; a point at the start of the name
does not count. -/
def extension? (path : Text) : Option Text :=
  match fileName? path with
  | none => none
  | some name =>
    match Text.splitLast ['.'] name with
    | some (stem, extension) => if stem = [] then none else some extension
    | none => none

/-- Whether a path names a binary document. -/
def isBinary (path : Text) : Bool := extension? path = some "bsw".toList

end Path

/-- The files of a directory, each name once. -/
structure Directory where
  files : List (Text × Bytes)

namespace Directory

/-- The name of a file in the directory that a path leads to. -/
def name? (path : Text) : Option Text :=
  match Text.splitLast ['/'] path with
  | none => if path = [] ∨ path = ['.'] ∨ path = "..".toList then none else some path
  | some (before, name) =>
    if path.head? ≠ some '/' ∧ Path.parts before = [] ∧
        name ≠ [] ∧ name ≠ ['.'] ∧ name ≠ "..".toList then
      some name
    else none

/-- The contents of the file at a path. -/
def read? (d : Directory) (path : Text) : Option Bytes :=
  match name? path with
  | some name => (d.files.find? fun f => f.1 == name).map (·.2)
  | none => none

/-- The directory with a file written, if the path leads to one. -/
def write? (d : Directory) (path : Text) (contents : Bytes) : Option Directory :=
  match name? path with
  | some name => some ⟨(name, contents) :: d.files.filter fun f => f.1 != name⟩
  | none => none

end Directory
end BlockCanvas
