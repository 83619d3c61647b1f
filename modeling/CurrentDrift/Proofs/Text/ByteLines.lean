import CurrentDrift.Proofs.Text.Rows
import CurrentDrift.Proofs.Text.Utf8

/-! # Reading lines by the byte

A reader can also keep its place in a text as a number of bytes and cut its lines out of the bytes.
Main statement: asked again and again, both readers hand out the lines of a text, each of them once
and with its number, and then nothing more; and no character is ever cut in two. -/

namespace CurrentDrift.Text

/-- The reader after so many calls for the next line. -/
def LineReader.afterCalls (c : LineReader) : Nat → LineReader
  | 0 => c
  | k + 1 => (c.afterCalls k).call.2

/-! ## Counting bytes -/

/-- The bytes of a text. -/
def bytesOf (cs : List Char) : List UInt8 := cs.flatMap String.utf8EncodeChar

@[simp]
theorem bytesOf_nil : bytesOf [] = [] := rfl

theorem bytesOf_cons (c : Char) (cs : List Char) :
    bytesOf (c :: cs) = String.utf8EncodeChar c ++ bytesOf cs :=
  List.flatMap_cons ..

@[simp]
theorem bytesOf_append (cs ds : List Char) : bytesOf (cs ++ ds) = bytesOf cs ++ bytesOf ds :=
  List.flatMap_append

theorem length_bytesOf_pos {cs : List Char} (h : cs ≠ []) : 0 < (bytesOf cs).length := by
  obtain ⟨c, cs, rfl⟩ := List.exists_cons_of_ne_nil h
  have := c.utf8Size_pos
  rw [bytesOf_cons, List.length_append, String.length_utf8EncodeChar]
  omega

theorem LineReader.remainingBytes_eq (c : LineReader) :
    c.remainingBytes = (bytesOf c.rest).length := by
  obtain ⟨text, n⟩ := c
  unfold remainingBytes
  induction text with
  | nil => rfl
  | cons x text ih =>
      rw [List.foldr_cons, ih, bytesOf_cons, List.length_append, String.length_utf8EncodeChar]

/-- A line with something in it takes up two bytes, or it is the last one. -/
theorem LineReader.remainingBytes_next? {c c' : LineReader} {line : Line}
    (h : c.next? = some (line, c')) (hne : line.chars ≠ []) :
    c'.remainingBytes + 2 ≤ c.remainingBytes ∨ c'.remainingBytes = 0 ∧ 1 ≤ c.remainingBytes := by
  obtain ⟨row, hrest, hline, hnone⟩ := exists_row_of_next? h
  have hpos := length_bytesOf_pos hne
  have hlength : c.remainingBytes = (bytesOf line.chars).length +
      ((bytesOf (row.ending.elim [] LineEnding.chars)).length + c'.remainingBytes) := by
    rw [remainingBytes_eq, remainingBytes_eq, hrest, Row.chars, hline]
    simp
  cases he : row.ending with
  | none =>
      have hend : c'.remainingBytes = 0 := by
        rw [remainingBytes_eq, hnone he]
        rfl
      exact .inr ⟨hend, by omega⟩
  | some e =>
      have hending := length_bytesOf_pos e.chars_ne_nil
      rw [he, Option.elim] at hlength
      exact .inl (by omega)

/-- A character begins at a byte of a text, or the text ends there: the bytes from 0x80 to 0xBF go
on with a character. -/
def isBoundary (bytes : List UInt8) (i : Nat) : Bool :=
  match bytes[i]? with
  | some b => b.toNat < 0x80 || 0xC0 ≤ b.toNat
  | none => i == bytes.length

/-- What follows the first `i` bytes of a text, if no character is cut in two. -/
def sliceFrom? (bytes : List UInt8) (i : Nat) : Option (List UInt8) :=
  if isBoundary bytes i then some (bytes.drop i) else none

/-- The first `i` bytes of a text, if no character is cut in two. -/
def sliceTo? (bytes : List UInt8) (i : Nat) : Option (List UInt8) :=
  if isBoundary bytes i then some (bytes.take i) else none

/-- How many bytes there are before the first terminator of a text, or in all of it. -/
def lineSize? (bytes : List UInt8) : Option Nat := do
  let cs ← (Utf8.decode bytes).toOption
  return (bytesOf (cs.takeWhile fun c => !isTerminator c)).length

/-- How many bytes end a line that takes up the first `stop` bytes. -/
def endingSize (bytes : List UInt8) (stop : Nat) : Nat :=
  if stop < bytes.length then
    if bytes[stop]? = some 13 ∧ bytes[stop + 1]? = some 10 then 2 else 1
  else 0

/-- A place between two lines of a text by the number of the bytes before it. -/
structure ByteLineReader where
  bytes : List UInt8
  pos : Nat
  line : Nat
  deriving Repr

namespace ByteLineReader

def ofText (cs : List Char) : ByteLineReader := ⟨bytesOf cs, 0, 0⟩

/-- The answer to a call for the next line, with its number, and the reader after it. There is none
if a slice would cut a character in two. -/
def call? (c : ByteLineReader) : Option (Option (Nat × List UInt8) × ByteLineReader) :=
  if c.bytes.length ≤ c.pos then some (none, c)
  else do
    let rest ← sliceFrom? c.bytes c.pos
    let stop ← lineSize? rest
    let line ← sliceTo? rest stop
    return (some (c.line + 1, line),
      ⟨c.bytes, c.pos + (stop + endingSize rest stop), c.line + 1⟩)

/-- The reader after so many calls. -/
def afterCalls? (c : ByteLineReader) : Nat → Option ByteLineReader
  | 0 => some c
  | k + 1 => do
    let (_, c') ← (← c.afterCalls? k).call?
    return c'

end ByteLineReader

/-- The first byte of a character does not go on with another one. -/
theorem exists_head_bytesOf (c : Char) :
    ∃ b bs, String.utf8EncodeChar c = b :: bs ∧ (b.toNat < 0x80 ∨ 0xC0 ≤ b.toNat) ∧
      (b.toNat = 10 → c = '\n') := by
  have hvalid := Utf8.isValidChar_toNat c
  rcases Nat.lt_or_ge 0x7F c.toNat with h1 | h1
  · rcases Nat.lt_or_ge 0x7FF c.toNat with h2 | h2
    · rcases Nat.lt_or_ge 0xFFFF c.toNat with h3 | h3
      · have hb := UInt8.toNat_ofNat_of_lt' (by omega : c.toNat / 262144 % 8 + 0xF0 < 256)
        exact ⟨_, _, Utf8.encodeChar_of_FFFF_lt h3, by omega, by omega⟩
      · have hb := UInt8.toNat_ofNat_of_lt' (by omega : c.toNat / 4096 % 16 + 0xE0 < 256)
        exact ⟨_, _, Utf8.encodeChar_of_le_FFFF h2 h3, by omega, by omega⟩
    · have hb := UInt8.toNat_ofNat_of_lt' (by omega : c.toNat / 64 % 32 + 0xC0 < 256)
      exact ⟨_, _, Utf8.encodeChar_of_le_7FF h1 h2, by omega, by omega⟩
  · have hb := UInt8.toNat_ofNat_of_lt' (by omega : c.toNat < 256)
    refine ⟨_, _, Utf8.encodeChar_of_le_7F h1, by omega, fun h => Char.toNat_inj.mp ?_⟩
    rw [← hb, h]
    rfl

theorem isBoundary_bytesOf (cs ds : List Char) :
    isBoundary (bytesOf cs ++ bytesOf ds) (bytesOf cs).length = true := by
  rw [isBoundary, List.getElem?_append_right le_rfl, Nat.sub_self]
  cases ds with
  | nil => simp
  | cons d ds =>
      obtain ⟨b, bs, hd, hb, -⟩ := exists_head_bytesOf d
      simpa [bytesOf_cons, hd] using hb

theorem sliceFrom?_bytesOf (cs ds : List Char) :
    sliceFrom? (bytesOf (cs ++ ds)) (bytesOf cs).length = some (bytesOf ds) := by
  rw [sliceFrom?, bytesOf_append, if_pos (isBoundary_bytesOf cs ds), List.drop_left]

theorem sliceTo?_bytesOf (cs ds : List Char) :
    sliceTo? (bytesOf (cs ++ ds)) (bytesOf cs).length = some (bytesOf cs) := by
  rw [sliceTo?, bytesOf_append, if_pos (isBoundary_bytesOf cs ds), List.take_left]

theorem lineSize?_bytesOf (cs : List Char) :
    lineSize? (bytesOf cs) = some (bytesOf (cs.takeWhile fun c => !isTerminator c)).length := by
  have hdecode := (Utf8.decode_eq_ok_iff (bytesOf cs) cs).mpr rfl
  rw [lineSize?, hdecode]
  rfl

/-- Only a line feed begins with the byte of one. -/
theorem getElem?_zero_bytesOf_ne {cs : List Char} (h : cs.head? ≠ some '\n') :
    (bytesOf cs)[0]? ≠ some 10 := by
  cases cs with
  | nil => simp
  | cons c cs =>
      obtain ⟨b, bs, hc, -, hb⟩ := exists_head_bytesOf c
      intro hten
      obtain rfl : b = 10 := by simpa [bytesOf_cons, hc] using hten
      exact h (congrArg some (hb rfl))

theorem endingSize_append (bytes more : List UInt8) :
    endingSize (bytes ++ more) bytes.length =
      if 0 < more.length then if more[0]? = some 13 ∧ more[1]? = some 10 then 2 else 1 else 0 := by
  have hone : bytes.length + 1 - bytes.length = 1 := Nat.add_sub_cancel_left ..
  rw [endingSize, List.length_append, List.getElem?_append_right le_rfl,
    List.getElem?_append_right (Nat.le_succ _), Nat.sub_self, hone]
  simp only [Nat.lt_add_right_iff_pos]

/-- A line feed after a carriage return is found in the bytes, and nothing else is taken for one. -/
theorem endingSize_bytesOf {row : Row} {rest : List Char}
    (hnone : row.ending = none → row.line ≠ [] ∧ rest = [])
    (hreturn : row.ending = some .carriageReturn → rest.head? ≠ some '\n') :
    endingSize (bytesOf (row.chars ++ rest)) (bytesOf row.line).length =
      (bytesOf (row.ending.elim [] LineEnding.chars)).length := by
  rw [Row.chars, List.append_assoc, bytesOf_append, endingSize_append, bytesOf_append]
  cases he : row.ending with
  | none => simp [(hnone he).2]
  | some e =>
      cases e with
      | lineFeed => rfl
      | both => rfl
      | carriageReturn =>
          have hchars : bytesOf LineEnding.carriageReturn.chars = [13] := rfl
          simpa [hchars] using getElem?_zero_bytesOf_ne (hreturn he)

namespace ByteLineReader

theorem call?_end (cs : List Char) (n : Nat) :
    call? ⟨bytesOf cs, (bytesOf cs).length, n⟩ =
      some (none, ⟨bytesOf cs, (bytesOf cs).length, n⟩) :=
  if_pos le_rfl

/-- A call hands out the line of the first row behind some text and goes behind what ends it. All
three slices are taken between characters. -/
theorem call?_row (done : List Char) {row : Row} {rest : List Char} (n : Nat)
    (hline : IsLine row.line) (hnone : row.ending = none → row.line ≠ [] ∧ rest = [])
    (hreturn : row.ending = some .carriageReturn → rest.head? ≠ some '\n') :
    call? ⟨bytesOf (done ++ (row.chars ++ rest)), (bytesOf done).length, n⟩ =
      some (some (n + 1, bytesOf row.line),
        ⟨bytesOf (done ++ (row.chars ++ rest)), (bytesOf (done ++ row.chars)).length, n + 1⟩) := by
  have hlt : ¬ (bytesOf (done ++ (row.chars ++ rest))).length ≤ (bytesOf done).length := by
    have hchars := Row.chars_ne_nil fun h => (hnone h).1
    have := length_bytesOf_pos (List.append_ne_nil_of_left_ne_nil hchars rest)
    rw [bytesOf_append, List.length_append]
    omega
  have hspan := span_row hline hnone
  rw [List.span_eq_takeWhile_dropWhile] at hspan
  have hstop : lineSize? (bytesOf (row.chars ++ rest)) = some (bytesOf row.line).length := by
    rw [lineSize?_bytesOf, (Prod.mk.inj hspan).1]
  have hslice : sliceTo? (bytesOf (row.chars ++ rest)) (bytesOf row.line).length =
      some (bytesOf row.line) := by
    rw [Row.chars, List.append_assoc, sliceTo?_bytesOf]
  have hpos : (bytesOf done).length + ((bytesOf row.line).length +
      (bytesOf (row.ending.elim [] LineEnding.chars)).length) =
        (bytesOf (done ++ row.chars)).length := by
    simp [Row.chars]
  rw [call?, if_neg hlt, sliceFrom?_bytesOf]
  simp only [Option.bind_eq_bind, Option.bind_some, hstop, hslice, hpos,
    endingSize_bytesOf hnone hreturn, Option.pure_def]

end ByteLineReader

/-! ## Reading all rows -/

theorem IsSplit.drop {rows : List Row} {text : List Char} (h : IsSplit rows text) (k : Nat) :
    IsSplit (rows.drop k) ((rows.drop k).flatMap Row.chars) where
  flatMap_chars := rfl
  isLine row hrow := h.isLine row (List.mem_of_mem_drop hrow)
  ended := h.ended.drop k
  not_empty row hrow := h.not_empty row (List.mem_of_mem_drop hrow)
  apart := h.apart.drop k

/-- After `k` calls both readers have read the first `k` rows, as far as there are so many, and have
counted them. A call then hands out the line of the next row, cut out between characters by the
reader that counts bytes, and nothing once there is none. -/
structure HandsOut (rows : List Row) (text : List Char) (k : Nat) : Prop where
  place : (LineReader.ofText text).afterCalls k =
    ⟨(rows.drop k).flatMap Row.chars, min k rows.length⟩
  line : ((LineReader.ofText text).afterCalls k).call.1 =
    rows[k]?.map fun row => ⟨k + 1, row.line⟩
  bytePlace : (ByteLineReader.ofText text).afterCalls? k =
    some ⟨bytesOf text, (bytesOf ((rows.take k).flatMap Row.chars)).length, min k rows.length⟩
  slice : ((ByteLineReader.ofText text).afterCalls? k).bind (fun c => c.call?.map Prod.fst) =
    some (rows[k]?.map fun row => (k + 1, bytesOf row.line))

namespace IsSplit

variable {rows : List Row} {text : List Char}

theorem call_drop (h : IsSplit rows text) (k : Nat) :
    LineReader.call ⟨(rows.drop k).flatMap Row.chars, min k rows.length⟩ =
      (rows[k]?.map fun row => ⟨k + 1, row.line⟩,
        ⟨(rows.drop (k + 1)).flatMap Row.chars, min (k + 1) rows.length⟩) := by
  rcases Nat.lt_or_ge k rows.length with hk | hk
  · have hdrop := h.drop k
    rw [List.drop_eq_getElem_cons hk] at hdrop ⊢
    obtain ⟨rest, -, hline, hnone, hreturn, hrows⟩ := isSplit_cons_iff.mp hdrop
    obtain rfl := hrows.flatMap_chars
    rw [List.flatMap_cons, LineReader.call_row _ hline hnone hreturn, List.getElem?_eq_getElem hk,
      Nat.min_eq_left hk.le, Nat.min_eq_left hk]
    rfl
  · rw [List.drop_eq_nil_of_le hk, List.drop_eq_nil_of_le (Nat.le_succ_of_le hk),
      List.getElem?_eq_none hk, Nat.min_eq_right hk, Nat.min_eq_right (Nat.le_succ_of_le hk),
      List.flatMap_nil, LineReader.call_nil, Option.map_none]

theorem flatMap_take_append_drop (h : IsSplit rows text) (k : Nat) :
    (rows.take k).flatMap Row.chars ++ (rows.drop k).flatMap Row.chars = text := by
  rw [← List.flatMap_append, List.take_append_drop, h.flatMap_chars]

theorem call?_drop (h : IsSplit rows text) (k : Nat) :
    ByteLineReader.call?
        ⟨bytesOf text, (bytesOf ((rows.take k).flatMap Row.chars)).length, min k rows.length⟩ =
      some (rows[k]?.map fun row => (k + 1, bytesOf row.line),
        ⟨bytesOf text, (bytesOf ((rows.take (k + 1)).flatMap Row.chars)).length,
          min (k + 1) rows.length⟩) := by
  have htext := h.flatMap_take_append_drop k
  rcases Nat.lt_or_ge k rows.length with hk | hk
  · have hdrop := h.drop k
    rw [List.drop_eq_getElem_cons hk] at hdrop htext
    obtain ⟨rest, heq, hline, hnone, hreturn, -⟩ := isSplit_cons_iff.mp hdrop
    have hcall := ByteLineReader.call?_row ((rows.take k).flatMap Row.chars) (min k rows.length)
      hline hnone hreturn
    rw [← heq, htext] at hcall
    rw [hcall, List.getElem?_eq_getElem hk, Nat.min_eq_left hk.le, Nat.min_eq_left hk,
      ← List.take_concat_get' _ _ hk, List.flatMap_append]
    simp
  · have hend := ByteLineReader.call?_end text rows.length
    rw [List.take_of_length_le hk, List.take_of_length_le (Nat.le_succ_of_le hk),
      Nat.min_eq_right hk, Nat.min_eq_right (Nat.le_succ_of_le hk), h.flatMap_chars, hend,
      List.getElem?_eq_none hk]
    rfl

theorem afterCalls_eq (h : IsSplit rows text) (k : Nat) :
    (LineReader.ofText text).afterCalls k =
      ⟨(rows.drop k).flatMap Row.chars, min k rows.length⟩ := by
  induction k with
  | zero =>
      rw [List.drop_zero, h.flatMap_chars, Nat.zero_min]
      rfl
  | succ k ih => rw [LineReader.afterCalls, ih, h.call_drop]

theorem afterCalls?_eq (h : IsSplit rows text) (k : Nat) :
    (ByteLineReader.ofText text).afterCalls? k =
      some ⟨bytesOf text, (bytesOf ((rows.take k).flatMap Row.chars)).length,
        min k rows.length⟩ := by
  induction k with
  | zero =>
      rw [Nat.zero_min]
      rfl
  | succ k ih =>
      rw [ByteLineReader.afterCalls?, ih]
      simp only [Option.bind_eq_bind, Option.bind_some, h.call?_drop, Option.pure_def]

theorem handsOut (h : IsSplit rows text) (k : Nat) : HandsOut rows text k where
  place := h.afterCalls_eq k
  line := by rw [h.afterCalls_eq, h.call_drop]
  bytePlace := h.afterCalls?_eq k
  slice := by rw [h.afterCalls?_eq, Option.bind_some, h.call?_drop, Option.map_some]

end IsSplit

/-- A text can be split into lines with their ends in exactly one way, and reading hands out just
these lines in order: it comes to the end of the text after as many calls as there are lines and
stays there. -/
theorem exists_isSplit_handsOut (text : List Char) :
    ∃ rows, (∀ rows', IsSplit rows' text ↔ rows' = rows) ∧ linesOf text = rows.map Row.line ∧
      ∀ k, HandsOut rows text k := by
  obtain ⟨rows, hrows⟩ := exists_isSplit text
  refine ⟨rows, fun rows' => ⟨fun h => h.unique hrows, ?_⟩, hrows.linesOf_eq, hrows.handsOut⟩
  rintro rfl
  exact hrows

/-- A carriage return, both together and a line feed: two empty lines stand between two others. -/
example : linesOf "é\r\r\n\nb".toList = ["é".toList, [], [], ['b']] := by decide +kernel

end CurrentDrift.Text
