import CurrentDrift.Proofs.Mesh.FaultyLine

/-! # How the lines of a mesh file end

Only the lines of a text count. Main statement: if none of them is empty, it does not matter how
each of them ends, neither for the field that is read nor for the complaint and the line that it is
about. -/

namespace CurrentDrift

open Text

namespace FlowField

/-- Texts with the same lines are read alike. -/
theorem ofText_congr {text text' : List Char} (h : linesOf text = linesOf text') :
    ofText text = ofText text' := by
  have hlines : ∀ l ∈ linesOf text', IsLine l := fun l => isLine_of_mem_linesOf
  rcases MeshDocument.isLinewise_blocks 0 (linesOf text') hlines with
    ⟨used, after, x, heq, htakes⟩ | ⟨used, after, b, cause, heq, hstops, -⟩
  · obtain ⟨c, hc, -⟩ := htakes.reads (LineReader.ofText text) after ⟨rfl, h.trans heq⟩
    obtain ⟨c', hc', -⟩ := htakes.reads (LineReader.ofText text') after ⟨rfl, heq⟩
    obtain ⟨d, hd, hu⟩ := MeshDocument.written_of_blocks_eq_ok hc
    obtain ⟨d', hd', hu'⟩ := MeshDocument.written_of_blocks_eq_ok hc'
    rw [MeshDocument.ofText_of_written hd hu, MeshDocument.ofText_of_written hd' hu']
    rw [h] at hd
    rw [hd.unique hd']
  · have hfails := hstops.fails (LineReader.ofText text) after ⟨rfl, h.trans heq⟩ rfl
    have hfails' := hstops.fails (LineReader.ofText text') after ⟨rfl, heq⟩ rfl
    rw [MeshDocument.ofText_of_blocks_eq_error hfails,
      MeshDocument.ofText_of_blocks_eq_error hfails']

/-- Lines that are not empty are read as the same field, or complained about in the same way,
however each of them is ended and whether or not the last one is. -/
theorem ofBody_eq_of_isTextOf {ls : List (List Char)} {text text' : List Char}
    (hls : ∀ l ∈ ls, l ≠ [] ∧ IsLine l) (h : IsTextOf ls text) (h' : IsTextOf ls text') :
    ofBody (text.flatMap String.utf8EncodeChar) = ofBody (text'.flatMap String.utf8EncodeChar) := by
  rw [ofBody_of_decode rfl, ofBody_of_decode rfl]
  exact ofText_congr ((h.linesOf_eq hls).trans (h'.linesOf_eq hls).symm)

/-- A vertex line of four words is the second line, also if the first one ends in a carriage return
and the second one does not end. -/
theorem ofBody_eq_of_isTextOf_vertices :
    let ls := ["Vertices 1".toList, "0 0 0 0".toList]
    let text := "Vertices 1\r0 0 0 0".toList
    let text' := "Vertices 1\r\n0 0 0 0\n".toList
    (∀ l ∈ ls, l ≠ [] ∧ IsLine l) ∧ IsTextOf ls text ∧ IsTextOf ls text' ∧
      ofBody (text.flatMap String.utf8EncodeChar) =
        ofBody (text'.flatMap String.utf8EncodeChar) ∧
      ofBody (text'.flatMap String.utf8EncodeChar) =
        .error (.malformed (.block .vertices) 2 (.fieldCount .vertices 4)) := by
  intro ls text text'
  have hls : ∀ l ∈ ls, l ≠ [] ∧ IsLine l := by
    intro l hl
    rcases List.mem_pair.mp hl with rfl | rfl
    · exact ⟨nofun, isLine_of_all rfl⟩
    · exact ⟨nofun, isLine_of_all rfl⟩
  have h : IsTextOf ls text := .cons _ .carriageReturn (.unended _)
  have h' : IsTextOf ls text' := .cons _ .both (.cons _ .lineFeed .nil)
  exact ⟨hls, h, h', ofBody_eq_of_isTextOf hls h h', (ofBody_of_decode rfl).trans (by rfl)⟩

end FlowField

end CurrentDrift
