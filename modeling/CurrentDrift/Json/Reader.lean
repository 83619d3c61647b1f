import CurrentDrift.Json.Token

/-!
# Reading JSON

Tokens become a value by a machine with a stack of the arrays and objects that are still open.
-/

namespace CurrentDrift.Json

/-- An array or object that is still open, with its contents so far, last one first. A member of an
object waits for its value. -/
inductive Frame where
  | array (items : List Json)
  | member (members : List (Option (List Char) × Json)) (key : Option (List Char))
  deriving Repr

/-- What the reader waits for. -/
inductive Reading where
  | value (stack : List Frame)
  /-- The first value of an array, or its end. -/
  | valueOrClose (stack : List Frame)
  /-- The first name in an object, or its end. -/
  | keyOrClose (stack : List Frame)
  | key (stack : List Frame) (members : List (Option (List Char) × Json))
  | colon (stack : List Frame) (members : List (Option (List Char) × Json))
      (name : Option (List Char))
  /-- A comma or the end of the innermost open value. -/
  | separator (top : Frame) (stack : List Frame)
  | finished (value : Json)
  deriving Repr

namespace Reading

/-- Adds a complete value to the innermost open one. -/
def push (v : Json) : List Frame → Reading
  | [] => .finished v
  | .array items :: stack => .separator (.array (v :: items)) stack
  | .member members name :: stack => .separator (.member ((name, v) :: members) none) stack

/-- The beginning of a value. -/
def beginValue (stack : List Frame) : Token → Option Reading
  | .scalar v => some (push v stack)
  | .openArray => some (.valueOrClose stack)
  | .openObject => some (.keyOrClose stack)
  | _ => none

def step : Reading → Token → Option Reading
  | .value stack, t => beginValue stack t
  | .valueOrClose stack, .closeArray => some (push (.array []) stack)
  | .valueOrClose stack, t => beginValue (.array [] :: stack) t
  | .keyOrClose stack, .closeObject => some (push (.object []) stack)
  | .keyOrClose stack, .scalar (.string name) => some (.colon stack [] name)
  | .key stack members, .scalar (.string name) => some (.colon stack members name)
  | .colon stack members name, .colon => some (.value (.member members name :: stack))
  | .separator (.array items) stack, .comma => some (.value (.array items :: stack))
  | .separator (.array items) stack, .closeArray => some (push (.array items.reverse) stack)
  | .separator (.member members _) stack, .comma => some (.key stack members)
  | .separator (.member members _) stack, .closeObject =>
    some (push (.object members.reverse) stack)
  | _, _ => none

def result? : Reading → Option Json
  | .finished v => some v
  | _ => none

end Reading

/-- The value that a list of tokens spells out. -/
def ofTokens? (ts : List Token) : Option Json :=
  (ts.foldlM Reading.step (.value [])).bind Reading.result?

/-- The value in a text. -/
def parse? (cs : List Char) : Option Json := (tokens? cs).bind ofTokens?

end CurrentDrift.Json
