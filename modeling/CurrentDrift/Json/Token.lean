import CurrentDrift.Json.Basic

/-!
# JSON tokens

A text is cut into punctuation, strings and bare words by a machine that takes one character after
the other. A word is a literal name or a number.
-/

namespace CurrentDrift.Json

inductive Token where
  | openArray
  | closeArray
  | openObject
  | closeObject
  | colon
  | comma
  | scalar (value : Json)
  deriving Repr

/-- The characters of a string so far, last one first, and the first half of a surrogate pair that
waits for the second. A half that stays alone spoils the string. -/
structure StringBuffer where
  chars : List Char
  half : Option Nat
  isWhole : Bool
  deriving Repr

namespace StringBuffer

def empty : StringBuffer := ⟨[], none, true⟩

def addChar (b : StringBuffer) (c : Char) : StringBuffer :=
  ⟨c :: b.chars, none, b.isWhole && b.half.isNone⟩

/-- Adds a 16-bit unit. -/
def addUnit (b : StringBuffer) (u : Nat) : StringBuffer :=
  match b.half with
  | some h =>
    if 0xDC00 ≤ u && u < 0xE000 then
      ⟨Char.ofNat (0x10000 + (h - 0xD800) * 0x400 + (u - 0xDC00)) :: b.chars, none, b.isWhole⟩
    else if 0xD800 ≤ u && u < 0xDC00 then ⟨b.chars, some u, false⟩
    else ⟨Char.ofNat u :: b.chars, none, false⟩
  | none =>
    if 0xD800 ≤ u && u < 0xDC00 then ⟨b.chars, some u, b.isWhole⟩
    else if 0xDC00 ≤ u && u < 0xE000 then ⟨b.chars, none, false⟩
    else ⟨Char.ofNat u :: b.chars, none, b.isWhole⟩

def content? (b : StringBuffer) : Option (List Char) :=
  if b.isWhole && b.half.isNone then some b.chars.reverse else none

end StringBuffer

/-- What the machine is in the middle of. -/
inductive LexMode where
  | between
  /-- A bare word, last character first. -/
  | word (chars : List Char)
  | string (buffer : StringBuffer)
  | escape (buffer : StringBuffer)
  /-- A unit of which so many hexadecimal digits are still to come. -/
  | unit (buffer : StringBuffer) (missing value : Nat)
  deriving Repr

structure LexState where
  mode : LexMode
  /-- The tokens so far, last one first. -/
  done : List Token
  deriving Repr

def hexDigit? (c : Char) : Option Nat :=
  if c.isDigit then some (c.toNat - '0'.toNat)
  else if 'a' ≤ c && c ≤ 'f' then some (c.toNat - 'a'.toNat + 10)
  else if 'A' ≤ c && c ≤ 'F' then some (c.toNat - 'A'.toNat + 10)
  else none

/-- The character that an escape with one letter stands for. -/
def escaped? : Char → Option Char
  | '"' => some '"'
  | '\\' => some '\\'
  | '/' => some '/'
  | 'b' => some '\x08'
  | 'f' => some '\x0c'
  | 'n' => some '\n'
  | 'r' => some '\r'
  | 't' => some '\t'
  | _ => none

/-- The value that a bare word names. -/
def ofWord? (chars : List Char) : Option Json :=
  match String.ofList chars with
  | "null" => some .null
  | "true" => some (.bool true)
  | "false" => some (.bool false)
  | _ => (Number.ofLiteral? chars).map fun _ => .number chars

def punctuation? : Char → Option Token
  | '[' => some .openArray
  | ']' => some .closeArray
  | '{' => some .openObject
  | '}' => some .closeObject
  | ':' => some .colon
  | ',' => some .comma
  | _ => none

def isJsonBlank (c : Char) : Bool := c = ' ' || c = '\t' || c = '\n' || c = '\r'

namespace LexState

def start : LexState := ⟨.between, []⟩

/-- A character between two tokens. -/
def stepBetween (done : List Token) (c : Char) : Option LexState :=
  if isJsonBlank c then some ⟨.between, done⟩
  else if c = '"' then some ⟨.string .empty, done⟩
  else
    match punctuation? c with
    | some t => some ⟨.between, t :: done⟩
    | none => some ⟨.word [c], done⟩

/-- Whether a character ends a bare word. -/
def endsWord (c : Char) : Bool := isJsonBlank c || c = '"' || (punctuation? c).isSome

def step (s : LexState) (c : Char) : Option LexState :=
  match s.mode with
  | .between => stepBetween s.done c
  | .word chars =>
    if endsWord c then do
      let value ← ofWord? chars.reverse
      stepBetween (.scalar value :: s.done) c
    else some ⟨.word (c :: chars), s.done⟩
  | .string b =>
    if c = '"' then some ⟨.between, .scalar (.string b.content?) :: s.done⟩
    else if c = '\\' then some ⟨.escape b, s.done⟩
    else if c.toNat < 0x20 then none
    else some ⟨.string (b.addChar c), s.done⟩
  | .escape b =>
    if c = 'u' then some ⟨.unit b 4 0, s.done⟩
    else (escaped? c).map fun d => ⟨.string (b.addChar d), s.done⟩
  | .unit b missing value => do
    let d ← hexDigit? c
    let u := 16 * value + d
    if missing = 1 then some ⟨.string (b.addUnit u), s.done⟩
    else some ⟨.unit b (missing - 1) u, s.done⟩

/-- All tokens, once the text has come to its end. -/
def finish? (s : LexState) : Option (List Token) :=
  match s.mode with
  | .between => some s.done.reverse
  | .word chars => (ofWord? chars.reverse).map fun value => (.scalar value :: s.done).reverse
  | _ => none

end LexState

/-- The tokens of a text. -/
def tokens? (cs : List Char) : Option (List Token) :=
  (cs.foldlM LexState.step LexState.start).bind LexState.finish?

end CurrentDrift.Json
