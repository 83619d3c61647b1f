import CurrentDrift.Command.Arguments

/-!
# The command line

Reads the files that a command needs, prints what the command prints, and reports a failure on the
error stream.
-/

namespace CurrentDrift

/-- The error of a file operation, where the file is of the wrong type by the number that the system
gives the error, with or without a minus sign. -/
def FileError.ofSystem (e : IO.Error) : FileError :=
  match e with
  | .noFileOrDirectory .. => .notFound
  | .inappropriateType _ code reason =>
    match code.toInt32.toInt.natAbs with
    | 20 => .notDirectory
    | 21 => .isDirectory
    | _ => .other reason
  | _ => .other (toString e)

/-- The bytes of a file on disk. -/
def readDisk : ReadFile IO := fun path => do
  match ← (IO.FS.readBinFile (String.ofList path)).toBaseIO with
  | .ok bytes => pure (.ok bytes.toList)
  | .error e => pure (.error (FileError.ofSystem e))

def usage : String :=
  "info --topology FILE [--probe LON LAT]\n" ++
  "validate --config FILE [--strict]\n" ++
  "run --config FILE [--steps N] [--report-every N]"

end CurrentDrift

open CurrentDrift in
def main (arguments : List String) : IO UInt32 := do
  match Request.ofArguments? arguments with
  | none =>
    IO.eprintln usage
    pure 2
  | some request =>
    let result ← request.answer readDisk
    IO.print result.output
    match result.failure with
    | none => pure 0
    | some failure =>
      IO.eprintln failure.message
      pure 1
