/-!
# File errors

Why a file cannot be read or written, as the operating system puts it.
-/

namespace CurrentDrift

inductive FileError where
  | notFound
  | notDirectory
  | isDirectory
  | notText
  /-- Another reason that the system gives. -/
  | other (reason : String)
  deriving DecidableEq, Repr

def FileError.message : FileError → String
  | notFound => "No such file or directory (os error 2)"
  | notDirectory => "Not a directory (os error 20)"
  | isDirectory => "Is a directory (os error 21)"
  | notText => "stream did not contain valid UTF-8"
  | other reason => reason

end CurrentDrift
