import CurrentDrift.Command.Run
import CurrentDrift.Command.Validate

/-!
# Arguments

The words of a command line: the name of a command and its options, in any order. Of an option that
is given twice the last one counts.
-/

namespace CurrentDrift

/-- What a command line asks for. -/
inductive Request where
  | info (mesh : List Char) (place : Option Degrees)
  | validate (plan : List Char) (strict : Bool)
  | run (plan : List Char) (steps : Option Nat)
  deriving Repr

/-- The options of all commands as far as they have been read. -/
structure Options where
  mesh : Option (List Char)
  plan : Option (List Char)
  place : Option Degrees
  strict : Bool
  steps : Option Nat
  deriving Repr

namespace Options

def empty : Options := ⟨none, none, none, false, none⟩

/-- Reads the options of a command. How often a run reports its progress says nothing about its
result, so that the number is read and dropped. -/
def read? (command : String) (o : Options) : List String → Option Options
  | [] => some o
  | "--strict" :: rest =>
    if command == "validate" then { o with strict := true }.read? command rest else none
  | "--probe" :: long :: lat :: rest =>
    match command == "info", Decimal.real? long.toList, Decimal.real? lat.toList with
    | true, some x, some y => { o with place := some ⟨x, y⟩ }.read? command rest
    | _, _, _ => none
  | option :: word :: rest =>
    match option, command with
    | "--topology", "info" => { o with mesh := some word.toList }.read? command rest
    | "--config", "validate" | "--config", "run" =>
      { o with plan := some word.toList }.read? command rest
    | "--steps", "run" =>
      match Decimal.natural? (UInt64.size - 1) word.toList with
      | some n => { o with steps := some n }.read? command rest
      | none => none
    | "--report-every", "run" =>
      if (Decimal.natural? (UInt64.size - 1) word.toList).isSome then o.read? command rest else none
    | _, _ => none
  | [_] => none

end Options

namespace Request

def ofArguments? : List String → Option Request
  | [] => none
  | command :: rest => do
    let o ← Options.empty.read? command rest
    match command with
    | "info" => o.mesh.map fun path => .info path o.place
    | "validate" => o.plan.map fun path => .validate path o.strict
    | "run" => o.plan.map fun path => .run path o.steps
    | _ => none

/-- Does what is asked for with a way to read files. -/
def answer {m : Type → Type} [Monad m] (read : ReadFile m) : Request → m CommandResult
  | info path place => Info.run read path place
  | validate path strict => Validate.run read path strict
  | run path steps => Run.run read path steps

end Request

end CurrentDrift
