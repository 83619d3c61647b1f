/-!
# Reading bytes piece by piece

A file is handed out in pieces of whatever sizes. A reader looks at the piece at hand before it
takes bytes out of it, so that it can stop in the middle of a piece.
-/

namespace CurrentDrift

/-- Bytes that are handed out together, at least one of them. A file ends where its pieces do. -/
abbrev Piece : Type := { bytes : List UInt8 // bytes ≠ [] }

/-- A place in a file: what is left of the piece at hand, and the pieces after it. -/
structure ByteReader where
  piece : List UInt8
  later : List Piece

namespace ByteReader

def ofPieces (pieces : List Piece) : ByteReader := ⟨[], pieces⟩

/-- The bytes that are left to read. -/
def remaining (r : ByteReader) : List UInt8 := r.piece ++ r.later.flatMap Subtype.val

/-- The next piece takes the place of one that is used up. There is nothing at hand after that
only at the end of the file. -/
def fill : ByteReader → ByteReader
  | ⟨[], next :: later⟩ => ⟨next.val, later⟩
  | r => r

/-- The reader after so many bytes of the piece at hand. -/
def consume (r : ByteReader) (n : Nat) : ByteReader := { r with piece := r.piece.drop n }

/-- Takes so many bytes, out of as many pieces as they lie in; nothing if there are fewer. -/
def take? : Nat → ByteReader → Option (List UInt8 × ByteReader)
  | 0, r => some ([], r)
  | n + 1, r =>
    match r.fill with
    | ⟨[], _⟩ => none
    | ⟨b :: bs, later⟩ => (take? n ⟨bs, later⟩).map fun (taken, r) => (b :: taken, r)

theorem remaining_fill (r : ByteReader) : r.fill.remaining = r.remaining := by
  unfold fill
  split <;> simp [remaining]

theorem length_consume_lt (r : ByteReader) {n : Nat} (h : r.piece ≠ [])
    (hn : n = r.piece.length) : (r.consume n).remaining.length < r.remaining.length := by
  have hpos := List.length_pos_iff.mpr h
  simp only [hn, consume, remaining, List.drop_length, List.length_append, List.length_nil]
  omega

/-- Skips bytes that pass a test. Only if the whole piece at hand does, it goes on with the next
one. -/
def skipWhile (test : UInt8 → Bool) (r : ByteReader) : ByteReader :=
  let filled := r.fill
  if filled.piece = [] then filled
  else
    let n := (filled.piece.takeWhile test).length
    if n = filled.piece.length then skipWhile test (filled.consume n)
    else filled.consume n
termination_by r.remaining.length
decreasing_by
  rename_i h hn
  rw [← r.remaining_fill]
  exact r.fill.length_consume_lt h hn

end ByteReader

end CurrentDrift
