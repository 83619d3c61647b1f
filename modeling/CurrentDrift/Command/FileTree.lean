import CurrentDrift.FileError
import CurrentDrift.Path

/-!
# File trees

Files as a value: a list of paths with their contents. The directories of such a tree are those
that its files are in.
-/

namespace CurrentDrift

/-- Files by the components of their paths. -/
structure FileTree where
  files : List (List (List Char) × List UInt8)

namespace FileTree

/-- The components of a path that say something, without `.` and empty ones. -/
def components (path : List Char) : List (List Char) :=
  (Path.split path).filter fun w => !Path.isSilent w

def ofFiles (files : List (List Char × List UInt8)) : FileTree :=
  ⟨files.map fun (path, content) => (components path, content)⟩

def file? (t : FileTree) (path : List (List Char)) : Option (List UInt8) :=
  (t.files.find? fun f => f.1 = path).map Prod.snd

/-- Whether a path is the root or some file is below it. -/
def isDirectory (t : FileTree) (path : List (List Char)) : Bool :=
  path.isEmpty || t.files.any fun f => f.1.length > path.length && f.1.take path.length = path

/-- Follows the components of a path from a directory, which is given from its last component to the
root. There is nothing above the root. -/
def follow (t : FileTree) (reversed : List (List Char)) :
    List (List Char) → Except FileError (List (List Char))
  | [] => .ok reversed
  | w :: ws =>
    if !t.isDirectory reversed.reverse then
      .error (if (t.file? reversed.reverse).isSome then .notDirectory else .notFound)
    else if w = ['.', '.'] then
      match reversed with
      | [] => .error .notFound
      | _ :: parent => t.follow parent ws
    else t.follow (w :: reversed) ws

/-- Whether a path can only be that of a directory. -/
def endsAsDirectory (path : List Char) : Bool :=
  match (Path.split path).getLast? with
  | some w => Path.isSilent w
  | none => false

/-- The content of the file at a path from the root. -/
def read (t : FileTree) (path : List Char) : Except FileError (List UInt8) := do
  if path.isEmpty || Path.isAbsolute path then .error .notFound
  else
    let place := (← t.follow [] (components path)).reverse
    match t.file? place with
    | some content => if endsAsDirectory path then .error .notDirectory else .ok content
    | none => .error (if t.isDirectory place then .isDirectory else .notFound)

end FileTree

end CurrentDrift
