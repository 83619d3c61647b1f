/-!
# Paths

Paths of files as text, with `/` between the components. Empty components, and `.` other than at
the front, say nothing.
-/

namespace CurrentDrift.Path

def isAbsolute (path : List Char) : Bool := path.head? = some '/'

/-- A path taken from a directory: an absolute path stands for itself. -/
def join (base path : List Char) : List Char :=
  if isAbsolute path || base.isEmpty then path
  else if base.getLast? = some '/' then base ++ path
  else base ++ '/' :: path

/-- The texts between the slashes of a path, at least one. -/
def split : List Char → List (List Char)
  | [] => [[]]
  | c :: r =>
    if c = '/' then [] :: split r
    else match split r with
      | w :: ws => (c :: w) :: ws
      | [] => [[c]]

/-- Whether a text between slashes that is not the first one says nothing. -/
def isSilent (w : List Char) : Bool := w.isEmpty || w = ['.']

/-- The components behind the first text, last one first, without silent ones at the end. -/
def dropSilent (reversed : List (List Char)) : List (List Char) := reversed.dropWhile isSilent

/-- The texts of a path joined by slashes again. -/
def unsplit (ws : List (List Char)) : List Char := ['/'].intercalate ws

/-- A path without its last component; nothing for a path without components and for the root. -/
def parent? (path : List Char) : Option (List Char) :=
  match split path with
  | [] => none
  | first :: rest =>
    match dropSilent rest.reverse with
    | _ :: before =>
      let kept := (dropSilent before).reverse
      if first.isEmpty && kept.isEmpty then some ['/'] else some (unsplit (first :: kept))
    | [] => if first.isEmpty then none else some []

/-- The last component of a path, if it names a file or directory. -/
def fileName? (path : List Char) : Option (List Char) :=
  match split path with
  | [] => none
  | first :: rest =>
    match dropSilent rest.reverse with
    | last :: _ => if last = ['.', '.'] then none else some last
    | [] => if isSilent first || first = ['.', '.'] then none else some first

/-- The directory that a file is in; the current one for the root. -/
def directory (path : List Char) : List Char := (parent? path).getD ['.']

end CurrentDrift.Path
