/-!
# Lines

Reading a text line by line. A line ends with a line feed, with a carriage return, or with both in
that order; the last one may also end with the text. Lines are numbered from one.
-/

namespace CurrentDrift.Text

/-- A place between two lines of a text: what is left to read, and how many lines have been read. -/
structure LineReader where
  rest : List Char
  line : Nat
  deriving Repr

/-- A line with its number. -/
structure Line where
  number : Nat
  chars : List Char
  deriving Repr

def isTerminator (c : Char) : Bool := c = '\n' || c = '\r'

/-- What follows one line terminator at the front of a text. -/
def dropTerminator : List Char → List Char
  | '\r' :: '\n' :: r => r
  | _ :: r => r
  | [] => []

namespace LineReader

def ofText (cs : List Char) : LineReader := ⟨cs, 0⟩

/-- The next line and the place after it; nothing at the end of the text. -/
def next? (c : LineReader) : Option (Line × LineReader) :=
  if c.rest.isEmpty then none
  else
    let (chars, ending) := c.rest.span (fun x => !isTerminator x)
    some (⟨c.line + 1, chars⟩, ⟨dropTerminator ending, c.line + 1⟩)

/-- The bytes that are left to read. -/
def remainingBytes (c : LineReader) : Nat := c.rest.foldr (fun x n => x.utf8Size + n) 0

/-- A bound on how many records are worth making room for: no more than declared, and no more than
the rest of the text can hold at two bytes a record. -/
def roomFor (c : LineReader) (declared : Nat) : Nat := min declared (c.remainingBytes / 2 + 1)

end LineReader

end CurrentDrift.Text
