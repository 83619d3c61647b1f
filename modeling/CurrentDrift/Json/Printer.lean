import CurrentDrift.Json.Basic

/-!
# Writing JSON

Values are written on one line without blanks, or with one item to a line and two blanks for each
level. Of the characters in strings only the quote, the backslash and control characters are
escaped.
-/

namespace CurrentDrift.Json

def hexDigits : List Char := "0123456789abcdef".toList

def escape (c : Char) : List Char :=
  match c with
  | '"' => ['\\', '"']
  | '\\' => ['\\', '\\']
  | '\x08' => ['\\', 'b']
  | '\t' => ['\\', 't']
  | '\n' => ['\\', 'n']
  | '\x0c' => ['\\', 'f']
  | '\r' => ['\\', 'r']
  | c =>
    if c.toNat < 0x20 then
      ['\\', 'u', '0', '0', hexDigits.getD (c.toNat / 16) '0', hexDigits.getD (c.toNat % 16) '0']
    else [c]

def quoted (cs : List Char) : List Char := '"' :: cs.flatMap escape ++ ['"']

/-- The text of a string or a name; one without content is written as if empty. -/
def quotedContent (content : Option (List Char)) : List Char := quoted (content.getD [])

/-- A new line at a level, in the form that has lines. -/
def lineAt : Option Nat → List Char
  | some level => '\n' :: List.replicate (2 * level) ' '
  | none => []

/-- What stands between a name and its value. -/
def nameSeparator (level : Option Nat) : List Char :=
  if level.isSome then [':', ' '] else [':']

mutual

/-- A value, inside so many open ones if it is written on several lines. -/
def write (level : Option Nat) : Json → List Char
  | .null => "null".toList
  | .bool b => (if b then "true" else "false").toList
  | .number literal => literal
  | .string content => quotedContent content
  | .array [] => ['[', ']']
  | .array (v :: vs) =>
    '[' :: lineAt (level.map (· + 1)) ++ write (level.map (· + 1)) v ++ writeItems level vs
  | .object [] => ['{', '}']
  | .object ((k, v) :: ms) =>
    '{' :: lineAt (level.map (· + 1)) ++ quotedContent k ++ nameSeparator level ++
      write (level.map (· + 1)) v ++ writeMembers level ms

/-- The items of an array after the first one, and its end. -/
def writeItems (level : Option Nat) : List Json → List Char
  | [] => lineAt level ++ [']']
  | v :: vs =>
    ',' :: lineAt (level.map (· + 1)) ++ write (level.map (· + 1)) v ++ writeItems level vs

/-- The members of an object after the first one, and its end. -/
def writeMembers (level : Option Nat) : List (Option (List Char) × Json) → List Char
  | [] => lineAt level ++ ['}']
  | (k, v) :: ms =>
    ',' :: lineAt (level.map (· + 1)) ++ quotedContent k ++ nameSeparator level ++
      write (level.map (· + 1)) v ++ writeMembers level ms

end

/-- The text of a value on one line. -/
def compact (v : Json) : List Char := v.write none

/-- The text of a value on several lines. -/
def pretty (v : Json) : List Char := v.write (some 0)

end CurrentDrift.Json
