import CurrentDrift.Mesh.File
import Mathlib.Data.List.TakeDrop

/-! # Mesh files that come in pieces

A reader knows the piece at hand and nothing of the later ones. Main statement: wherever a file is
cut into pieces, reading it piece by piece comes to the same as having it whole, also where the line
breaks after the preamble go on in the next piece, end with a piece, or end with the file. -/

namespace CurrentDrift

namespace ByteReader

/-! ## Taking and skipping bytes -/

theorem remaining_ofPieces (pieces : List Piece) :
    (ofPieces pieces).remaining = pieces.flatMap Subtype.val :=
  rfl

theorem remaining_of_piece_fill_eq_nil {r : ByteReader} (h : r.fill.piece = []) :
    r.remaining = [] := by
  unfold fill at h
  split at h
  · next next later => exact absurd h next.property
  · next hne =>
    obtain ⟨piece, later⟩ := r
    obtain rfl : piece = [] := h
    cases later with
    | nil => rfl
    | cons next later => exact absurd rfl (hne next later)

theorem take?_of_lt {n : Nat} {r : ByteReader} (h : r.remaining.length < n) : r.take? n = none := by
  induction n generalizing r with
  | zero => contradiction
  | succ n ih =>
      rw [← r.remaining_fill] at h
      rw [take?]
      split
      · rfl
      · next b bs later hfill =>
        rw [hfill] at h
        rw [ih, Option.map_none]
        exact Nat.lt_of_succ_lt_succ h

theorem take?_of_le {n : Nat} {r : ByteReader} (h : n ≤ r.remaining.length) :
    ∃ r', r.take? n = some (r.remaining.take n, r') ∧ r'.remaining = r.remaining.drop n := by
  induction n generalizing r with
  | zero => exact ⟨r, rfl, rfl⟩
  | succ n ih =>
      rw [take?]
      split
      · next later hfill =>
        rw [remaining_of_piece_fill_eq_nil (congrArg piece hfill)] at h
        contradiction
      · next b bs later hfill =>
        have hr : r.remaining = b :: (ByteReader.mk bs later).remaining := by
          rw [← r.remaining_fill, hfill]
          rfl
        rw [hr] at h ⊢
        obtain ⟨r', htake, hdrop⟩ := ih (Nat.le_of_succ_le_succ h)
        exact ⟨r', by rw [htake]; rfl, hdrop⟩

theorem drop_length_takeWhile (test : UInt8 → Bool) (bytes : List UInt8) :
    bytes.drop (bytes.takeWhile test).length = bytes.dropWhile test :=
  calc bytes.drop (bytes.takeWhile test).length
      = (bytes.takeWhile test ++ bytes.dropWhile test).drop (bytes.takeWhile test).length := by
        rw [List.takeWhile_append_dropWhile]
    _ = bytes.dropWhile test := List.drop_left

theorem remaining_consume_takeWhile (test : UInt8 → Bool) (r : ByteReader) :
    (r.consume (r.piece.takeWhile test).length).remaining =
      r.piece.dropWhile test ++ r.later.flatMap Subtype.val := by
  rw [← drop_length_takeWhile]
  rfl

/-- Skipping piece by piece skips what would be skipped in the whole, and not a byte more. -/
theorem remaining_skipWhile (test : UInt8 → Bool) (r : ByteReader) :
    (r.skipWhile test).remaining = r.remaining.dropWhile test := by
  fun_induction skipWhile test r with
  | case1 r filled hfilled =>
      rw [r.remaining_fill, remaining_of_piece_fill_eq_nil hfilled]
      rfl
  | case2 r filled hfilled n hn ih =>
      have hpiece : filled.piece.dropWhile test = [] := by
        rw [← drop_length_takeWhile, List.drop_eq_nil_iff]
        exact Nat.le_of_eq hn.symm
      have hrest := filled.remaining_consume_takeWhile test
      rw [hpiece, List.nil_append] at hrest
      rw [ih, hrest, ← r.remaining_fill, remaining, List.dropWhile_append, hpiece]
      rfl
  | case3 r filled hfilled n hn =>
      have hpiece : filled.piece.dropWhile test ≠ [] := by
        rw [← drop_length_takeWhile, ne_eq, List.drop_eq_nil_iff]
        have := (List.takeWhile_prefix test (l := filled.piece)).length_le
        omega
      rw [filled.remaining_consume_takeWhile, ← r.remaining_fill, remaining, List.dropWhile_append,
        List.isEmpty_eq_false_iff.mpr hpiece]
      rfl

end ByteReader

/-! ## Reading a mesh file -/

namespace MeshFile

/-- Reading hands over what cutting the preamble and the line breaks off the rest of the file
leaves. -/
theorem readBody_eq_bodyOf (r : ByteReader) : readBody r = bodyOf r.remaining := by
  rw [readBody, bodyOf]
  split
  · next htake =>
    have hshort : r.remaining.length < preambleSize := by
      by_contra hlong
      obtain ⟨r', htake', -⟩ := ByteReader.take?_of_le (Nat.le_of_not_lt hlong)
      rw [htake] at htake'
      contradiction
    rw [if_pos hshort]
  · next taken place htake =>
    have hlong : ¬ r.remaining.length < preambleSize := by
      intro hshort
      rw [ByteReader.take?_of_lt hshort] at htake
      contradiction
    obtain ⟨r', htake', hdrop⟩ := ByteReader.take?_of_le (Nat.le_of_not_lt hlong)
    obtain ⟨-, rfl⟩ := Prod.mk.inj (Option.some.inj (htake.symm.trans htake'))
    rw [if_neg hlong, ByteReader.remaining_skipWhile, hdrop]

theorem flatMap_pieces (size : Nat) (bytes : List UInt8) :
    (pieces size bytes).flatMap Subtype.val = bytes := by
  fun_induction pieces size bytes with
  | case1 => rfl
  | case2 b bs ih => rw [List.flatMap_cons, ih, List.cons_append, List.take_append_drop]

end MeshFile

namespace FlowField

theorem ofReader_eq_ofBytes (r : ByteReader) : ofReader r = ofBytes r.remaining := by
  rw [ofReader, ofBytes, MeshFile.readBody_eq_bodyOf]

/-- Reading through a buffer comes to the same as having the whole content. -/
theorem ofFile_eq_ofBytes (bytes : List UInt8) : ofFile bytes = ofBytes bytes := by
  rw [ofFile, ofReader_eq_ofBytes, MeshFile.reader, ByteReader.remaining_ofPieces,
    MeshFile.flatMap_pieces]

/-- In whatever pieces a file is handed out, it is read as its whole content is: it gives the same
body and the same field, or the same error. A file that is shorter than the preamble is refused.
After the preamble all line breaks are skipped up to the first other byte or the end of the file,
and nothing else is, wherever the pieces end. -/
theorem ofReader_ofPieces {bytes : List UInt8} {pieces : List Piece}
    (h : pieces.flatMap Subtype.val = bytes) :
    let start := ByteReader.ofPieces pieces
    ofReader start = ofBytes bytes ∧
    MeshFile.readBody start = MeshFile.bodyOf bytes ∧
    (bytes.length < MeshFile.preambleSize →
      MeshFile.readBody start = .error (.malformed .preamble 0 .tooShort)) ∧
    ∀ preamble breaks rest, bytes = preamble ++ (breaks ++ rest) →
      preamble.length = MeshFile.preambleSize →
      (∀ b ∈ breaks, MeshFile.isLineBreak b = true) →
      (∀ b ∈ rest.head?, MeshFile.isLineBreak b = false) →
        ∃ place, start.take? MeshFile.preambleSize = some (preamble, place) ∧
          (place.skipWhile MeshFile.isLineBreak).remaining = rest := by
  intro start
  have hremaining : start.remaining = bytes := h
  have hbody : MeshFile.readBody start = MeshFile.bodyOf bytes := by
    rw [MeshFile.readBody_eq_bodyOf, hremaining]
  refine ⟨?_, hbody, ?_, ?_⟩
  · rw [ofReader_eq_ofBytes, hremaining]
  · intro hshort
    rw [hbody, MeshFile.bodyOf, if_pos hshort]
  · rintro preamble breaks rest hbytes hsize hbreaks hrest
    have hlong : MeshFile.preambleSize ≤ start.remaining.length := by
      rw [hremaining, hbytes, ← hsize, List.length_append]
      exact Nat.le_add_right _ _
    obtain ⟨place, htake, hplace⟩ := ByteReader.take?_of_le hlong
    rw [hremaining, hbytes, ← hsize, List.take_left] at htake
    rw [hremaining, hbytes, ← hsize, List.drop_left] at hplace
    refine ⟨place, hsize ▸ htake, ?_⟩
    rw [ByteReader.remaining_skipWhile, hplace, List.dropWhile_append_of_pos hbreaks]
    cases rest with
    | nil => rfl
    | cons b bs => rw [List.dropWhile_cons_of_neg (by simpa using hrest)]

/-- Line breaks that go on from the first piece to the third, which ends with them. -/
theorem ofReader_ofPieces_breaks :
    let pieces : List Piece :=
      [⟨[68, 65, 71, 32, 49, 46, 48, 13], nofun⟩, ⟨[10], nofun⟩, ⟨[10, 13], nofun⟩, ⟨[86], nofun⟩]
    let bytes : List UInt8 := [68, 65, 71, 32, 49, 46, 48, 13, 10, 10, 13, 86]
    pieces.flatMap Subtype.val = bytes ∧
      ofReader (.ofPieces pieces) = ofBytes bytes ∧
      MeshFile.readBody (.ofPieces pieces) = .ok [86] := by
  intro pieces bytes
  have hbytes : pieces.flatMap Subtype.val = bytes := rfl
  obtain ⟨hfield, hbody, -, -⟩ := ofReader_ofPieces hbytes
  exact ⟨hbytes, hfield, hbody.trans rfl⟩

end FlowField

end CurrentDrift
