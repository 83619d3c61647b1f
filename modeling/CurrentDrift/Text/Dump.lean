import CurrentDrift.Text.Unprinted

/-!
# Structure dumps

Structures as a reader of a log sees them: the name of the structure and its fields between braces,
strings in quotes.
-/

namespace CurrentDrift.Dump

/-- The hexadecimal digits of a number. -/
def hex (n : Nat) : List Char := Nat.toDigits 16 n

/-- A character in a quoted string; a character without a picture is written by its number. -/
def escape (c : Char) : List Char :=
  match c with
  | '"' => ['\\', '"']
  | '\\' => ['\\', '\\']
  | '\n' => ['\\', 'n']
  | '\r' => ['\\', 'r']
  | '\t' => ['\\', 't']
  | '\x00' => ['\\', '0']
  | c =>
    if Text.isUnprinted c then '\\' :: 'u' :: '\x7b' :: hex c.toNat ++ ['\x7d'] else [c]

def quoted (s : String) : String := String.ofList ('"' :: s.toList.flatMap escape ++ ['"'])

/-- A structure with its fields. -/
def fields (name : String) (fs : List (String × String)) : String :=
  name ++ " \x7b " ++ ", ".intercalate (fs.map fun (k, v) => k ++ ": " ++ v) ++ " \x7d"

def bool (b : Bool) : String := if b then "true" else "false"

end CurrentDrift.Dump
