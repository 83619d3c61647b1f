import CurrentDrift.Proofs.Mesh.Reading
import CurrentDrift.Proofs.Text.ByteLines

/-! # Room for the records of a mesh file

Once the header of a block has been read, room is made for the records that it declares, but for no
more than one for every two bytes that are left. Main statement: however many records are declared,
the room stays within this bound, and as many records as can be read fit into it. -/

namespace CurrentDrift

open Text

/-! ## Records of a block -/

namespace Block

variable {σ ρ : Type} {b : Block} {add : σ → Line → Except MeshError σ}
  {written : List Char → ρ → Prop} {push : σ → ρ → Option σ}

/-- Every record takes up two bytes, and only the last one can do with one. -/
theorem two_mul_le_of_lines (hadd : Adds add written push) (hwritten : ∀ r, ¬ written [] r)
    {k : Nat} {s s' : σ} {c c' : LineReader} (h : b.lines add k s c = .ok (s', c')) :
    2 * k ≤ c.remainingBytes + 1 := by
  induction k generalizing s c with
  | zero => omega
  | succ k ih =>
      obtain ⟨⟨l, c1⟩, hline, h⟩ := bind_eq_ok_iff.mp h
      obtain ⟨s1, hs1, h⟩ := bind_eq_ok_iff.mp h
      have hrest := ih h
      obtain ⟨r, hr, -⟩ := (hadd s l s1).mp hs1
      have hne : l.chars ≠ [] := fun hnil => hwritten r (hnil ▸ hr)
      have hnext : c.next? = some (l, c1) := by
        rw [line] at hline
        split at hline
        · next found hfound => rw [hfound, Except.ok.inj hline]
        · contradiction
      have := LineReader.remainingBytes_next? hnext hne
      omega

/-- Room is made for the `n` records that stand at a place after a header. -/
structure KeepsToRoom (b : Block) (add : σ → Line → Except MeshError σ) (init : Nat → σ)
    (sizes : σ → List Nat) (n : Nat) (c : LineReader) : Prop where
  /-- Whatever number is declared, there is room for one record and one more for every two bytes. -/
  le_half : ∀ declared, c.roomFor declared ≤ (bytesOf c.rest).length / 2 + 1
  /-- As long as records can be read, the buffers have room for them. -/
  sizes_le : ∀ k ≤ n, ∀ s rest, b.lines add k (init (c.roomFor n)) c = .ok (s, rest) →
    k ≤ c.roomFor n ∧ ∀ size ∈ sizes s, size ≤ k
  /-- If all of them can be read, room has been made for just as many. -/
  eq_of_lines : ∀ s rest, b.lines add n (init (c.roomFor n)) c = .ok (s, rest) → c.roomFor n = n

theorem keepsToRoom (hadd : Adds add written push) (hwritten : ∀ r, ¬ written [] r)
    {init : Nat → σ} {sizes : σ → List Nat}
    (hsizes : ∀ room (rs : List ρ) s, rs.foldlM push (init room) = some s →
      ∀ size ∈ sizes s, size ≤ rs.length) (n : Nat) (c : LineReader) :
    b.KeepsToRoom add init sizes n c := by
  have hroom : ∀ k ≤ n, ∀ s rest, b.lines add k (init (c.roomFor n)) c = .ok (s, rest) →
      k ≤ c.roomFor n := by
    intro k hk s rest h
    have := two_mul_le_of_lines hadd hwritten h
    rw [LineReader.roomFor]
    omega
  refine ⟨fun declared => ?_, fun k hk s rest h => ⟨hroom k hk s rest h, ?_⟩, fun s rest h => ?_⟩
  · rw [← LineReader.remainingBytes_eq]
    exact min_le_right _ _
  · obtain ⟨-, rs, -, rfl, -, hfold⟩ := lines_eq_ok hadd h
    exact hsizes _ rs s hfold
  · exact le_antisymm (min_le_left _ _) (hroom n le_rfl s rest h)

end Block

/-! ## The three blocks -/

/-- How many vertices and depths there are. -/
def VertexBlock.sizes (b : VertexBlock) : List Nat := [b.points.size, b.depths.size]

/-- How many triangles and velocities there are. -/
def TriangleBlock.sizes (b : TriangleBlock) : List Nat := [b.triangles.size, b.velocities.size]

theorem VertexRecord.not_written_nil (r : VertexRecord) : ¬ Written [] r := by
  rintro ⟨hw⟩ <;> simp [words] at *

theorem TriangleRecord.not_written_nil (r : TriangleRecord) : ¬ Written [] r := by
  rintro ⟨hw⟩ <;> simp [words] at *

theorem LocationNode.not_written_nil (r : LocationNode) : ¬ Written [] r := by
  rintro ⟨hw⟩
  simp [words] at *

theorem VertexBlock.sizes_le (room : Nat) (rs : List VertexRecord) (b : VertexBlock)
    (h : rs.foldlM push (empty room) = some b) : ∀ size ∈ b.sizes, size ≤ rs.length := by
  rw [foldlM_push] at h
  obtain rfl := Option.some.inj h
  simpa [sizes, empty] using List.length_filterMap_le VertexRecord.depth rs

theorem TriangleBlock.sizes_le (room : Nat) (rs : List TriangleRecord) (b : TriangleBlock)
    (h : rs.foldlM push (empty room) = some b) : ∀ size ∈ b.sizes, size ≤ rs.length := by
  obtain ⟨htriangles, hvelocities⟩ := eq_of_foldlM_push h
  rw [sizes, htriangles, hvelocities]
  simpa [empty] using List.length_filterMap_le TriangleRecord.velocity rs

theorem LocationNode.sizes_le (room : Nat) (rs : List LocationNode) (nodes : Array LocationNode)
    (h : rs.foldlM push (Array.emptyWithCapacity room) = some nodes) :
    ∀ size ∈ [nodes.size], size ≤ rs.length := by
  rw [foldlM_push] at h
  obtain rfl := Option.some.inj h
  simp

/-- Behind a header, each block is read into buffers with room for its records, which are never
outgrown. -/
theorem read_keepsToRoom (c : LineReader) :
    (∀ n after, Block.vertices.count c = .ok (n, after) →
      VertexBlock.read c = Block.vertices.lines VertexBlock.addLine n
        (VertexBlock.empty (after.roomFor n)) after ∧
      Block.vertices.KeepsToRoom VertexBlock.addLine VertexBlock.empty VertexBlock.sizes n after) ∧
    (∀ n after, Block.triangles.count c = .ok (n, after) →
      TriangleBlock.read c = Block.triangles.lines TriangleBlock.addLine n
        (TriangleBlock.empty (after.roomFor n)) after ∧
      Block.triangles.KeepsToRoom TriangleBlock.addLine TriangleBlock.empty TriangleBlock.sizes n
        after) ∧
    ∀ n after, Block.nodes.count c = .ok (n, after) →
      LocationNode.read c = Block.nodes.lines LocationNode.addLine n
        (Array.emptyWithCapacity (after.roomFor n)) after ∧
      Block.nodes.KeepsToRoom LocationNode.addLine Array.emptyWithCapacity (fun nodes => [nodes.size])
        n after := by
  refine ⟨fun n after h => ⟨?_, ?_⟩, fun n after h => ⟨?_, ?_⟩, fun n after h => ⟨?_, ?_⟩⟩
  · rw [VertexBlock.read, h]
    rfl
  · exact Block.keepsToRoom VertexBlock.adds VertexRecord.not_written_nil VertexBlock.sizes_le n after
  · rw [TriangleBlock.read, h]
    rfl
  · exact Block.keepsToRoom TriangleBlock.adds TriangleRecord.not_written_nil
      TriangleBlock.sizes_le n after
  · rw [LocationNode.read, h]
    rfl
  · exact Block.keepsToRoom LocationNode.adds LocationNode.not_written_nil LocationNode.sizes_le n
      after

end CurrentDrift
