/-!
# UTF-8

Decoding bytes to characters by the table of well-formed sequences of the Unicode standard. What
stops the decoding is located: the length of the longest well-formed beginning, and the kind of
fault right after it.
-/

namespace CurrentDrift.Text.Utf8

/-- What follows the longest well-formed beginning of a text. -/
inductive Fault where
  /-- So many bytes that begin a sequence, or could not begin one, followed by one that does not
  continue it. -/
  | illFormed (length : Nat)
  /-- The text ends inside a sequence. -/
  | incomplete
  deriving DecidableEq, Repr

structure Error where
  validLength : Nat
  fault : Fault
  deriving DecidableEq, Repr

/-- The data bits of a leading byte, and the ranges in which its continuation bytes lie. The first
of these is narrower where a shorter sequence would do, for surrogates, and at the end of the code
space. -/
def shape? (lead : UInt8) : Option (Nat × List (UInt8 × UInt8)) :=
  let n := lead.toNat
  if n < 0x80 then some (n, [])
  else if n < 0xC2 then none
  else if n < 0xE0 then some (n - 0xC0, [(0x80, 0xBF)])
  else if n < 0xF0 then
    let low := if n = 0xE0 then 0xA0 else 0x80
    let high := if n = 0xED then 0x9F else 0xBF
    some (n - 0xE0, [(low, high), (0x80, 0xBF)])
  else if n < 0xF5 then
    let low := if n = 0xF0 then 0x90 else 0x80
    let high := if n = 0xF4 then 0x8F else 0xBF
    some (n - 0xF0, [(low, high), (0x80, 0xBF), (0x80, 0xBF)])
  else none

/-- Continuation bytes in the given ranges, six data bits each, after `seen` bytes of the
sequence. -/
def continuation (code seen : Nat) :
    List (UInt8 × UInt8) → (bs : List UInt8) →
      Except Fault (Nat × { rest : List UInt8 // rest.length ≤ bs.length })
  | [], bs => .ok (code, ⟨bs, Nat.le_refl _⟩)
  | _ :: _, [] => .error .incomplete
  | (low, high) :: ranges, b :: bs =>
    if low ≤ b && b ≤ high then
      match continuation (code * 64 + (b.toNat - 0x80)) (seen + 1) ranges bs with
      | .ok (c, ⟨rest, h⟩) => .ok (c, ⟨rest, Nat.le_succ_of_le h⟩)
      | .error fault => .error fault
    else .error (.illFormed seen)

/-- One character at the front of a text that is not empty. -/
def character (lead : UInt8) (bs : List UInt8) :
    Except Fault (Char × { rest : List UInt8 // rest.length ≤ bs.length }) :=
  match shape? lead with
  | none => .error (.illFormed 1)
  | some (bits, ranges) => (continuation bits 1 ranges bs).map fun (c, rest) => (Char.ofNat c, rest)

/-- Decodes the rest of a text, of which `start` bytes and the characters in `done`, last one first,
have been read. -/
def decodeFrom (start : Nat) (done : List Char) (bytes : List UInt8) : Except Error (List Char) :=
  match bytes with
  | [] => .ok done.reverse
  | lead :: bs =>
    match character lead bs with
    | .error fault => .error ⟨start, fault⟩
    | .ok (c, ⟨rest, _⟩) => decodeFrom (start + c.utf8Size) (c :: done) rest
termination_by bytes.length

/-- The characters of a text, or where and how it fails to be one. -/
def decode (bytes : List UInt8) : Except Error (List Char) := decodeFrom 0 [] bytes

def Error.message (e : Error) : String :=
  match e.fault with
  | .illFormed n =>
    "invalid utf-8 sequence of " ++ toString n ++ " bytes from index " ++ toString e.validLength
  | .incomplete => "incomplete utf-8 byte sequence from index " ++ toString e.validLength

end CurrentDrift.Text.Utf8
