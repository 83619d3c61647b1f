import CurrentDrift.Proofs.Mesh.Centroid

/-! # Bounding boxes of meshes

The box of a mesh is the least one around its vertices, whether it was found line by line in a file
or from the vertices of a mesh that is put together. Main statement: the center of a box and the
centroid of every triangle of a mesh lie in the box. They are worked out in 64-bit arithmetic
without leaving the range and are coordinates again. -/

namespace CurrentDrift

open Text

/-! ## The box line by line -/

/-- What every line keeps, all the lines of a block keep. -/
theorem Block.of_lines {σ : Type} {b : Block} {add : σ → Line → Except MeshError σ}
    {p : σ → Prop} (hadd : ∀ s line s', p s → add s line = .ok s' → p s') {n : Nat} {s s' : σ}
    {c c' : LineReader} (hs : p s) (h : b.lines add n s c = .ok (s', c')) : p s' := by
  induction n generalizing s c with
  | zero =>
      obtain ⟨rfl, rfl⟩ := Prod.mk.inj (Except.ok.inj h)
      exact hs
  | succ n ih =>
      obtain ⟨⟨line, c1⟩, -, h⟩ := bind_eq_ok_iff.mp h
      obtain ⟨s1, hs1, h⟩ := bind_eq_ok_iff.mp h
      exact ih (hadd s line s1 hs hs1) h

namespace VertexBlock

theorem bounds_of_addLine (b : VertexBlock) (line : Line) (b' : VertexBlock)
    (hb : b.bounds = Rect.ofPoints b.points) (h : b.addLine line = .ok b') :
    b'.bounds = Rect.ofPoints b'.points := by
  obtain ⟨r, -, hpush⟩ := (adds b line b').mp h
  obtain rfl := Option.some.inj hpush
  change b.bounds.insert r.point = Rect.ofPoints (b.points.push r.point)
  rw [Rect.ofPoints_push, hb]

theorem bounds_of_lines {k room : Nat} {c c' : LineReader} {b : VertexBlock}
    (h : Block.vertices.lines addLine k (empty room) c = .ok (b, c')) :
    b.bounds = Rect.ofPoints b.points :=
  Block.of_lines bounds_of_addLine rfl h

end VertexBlock

/-! ## Centroids -/

namespace Mesh

theorem mean_mem_range {x y z : Int32} {lo hi : Int} (hx : lo ≤ x.toInt ∧ x.toInt ≤ hi)
    (hy : lo ≤ y.toInt ∧ y.toInt ≤ hi) (hz : lo ≤ z.toInt ∧ z.toInt ≤ hi) :
    lo ≤ (mean x y z).toInt ∧ (mean x y z).toInt ≤ hi := by
  rw [toInt_mean]
  apply tdiv_mem_range <;> omega

variable {α : Type}

theorem contains_centroid {m : Mesh α} (h : m.IsBounded) (t : m.Index) :
    m.bounds.contains (m.centroid t) = true := by
  have h0 := Rect.contains_iff.mp (contains_corner h t 0)
  have h1 := Rect.contains_iff.mp (contains_corner h t 1)
  have h2 := Rect.contains_iff.mp (contains_corner h t 2)
  exact Rect.contains_iff.mpr ⟨mean_mem_range h0.1 h1.1 h2.1, mean_mem_range h0.2 h1.2 h2.2⟩

/-- `mean` on words, step by step. -/
def checkedMean (x y z : Int32) : Option Int32 := do
  let two ← Checked.add x.toInt64 y.toInt64
  let sum ← Checked.add two z.toInt64
  Checked.share sum 3

/-- `centroid` on words, from the corners. -/
def checkedCentroid (a b c : Point) : Option Point := do
  let long ← checkedMean a.long b.long c.long
  let lat ← checkedMean a.lat b.lat c.lat
  some ⟨long, lat⟩

theorem checkedMean_eq (x y z : Int32) : checkedMean x y z = some (mean x y z) := by
  have hx := toInt_mem_range x
  have hy := toInt_mem_range y
  have hz := toInt_mem_range z
  obtain ⟨two, htwo, htwo'⟩ := Checked.add_toInt64 x y
  have hword : IsWord (two.toInt + z.toInt64.toInt) := by
    rw [isWord_iff, htwo', Int32.toInt_toInt64]
    omega
  obtain ⟨sum, hsum, hvalue⟩ := Checked.add_of_isWord hword
  rw [htwo', Int32.toInt_toInt64] at hvalue
  have hthree : (3 : Int64).toInt = 3 := rfl
  rw [checkedMean, htwo, Option.bind_eq_bind, Option.bind_some, hsum, mean, ← hvalue]
  apply Checked.share_eq <;> omega

theorem checkedCentroid_eq (m : Mesh α) (t : m.Index) :
    checkedCentroid (m.corner t 0) (m.corner t 1) (m.corner t 2) = some (m.centroid t) := by
  rw [checkedCentroid, checkedMean_eq, checkedMean_eq]
  rfl

/-- The box of some points is empty exactly if there are none. It is the least one that holds all of
them, which is to say that a point is outside exactly if some box that holds them leaves it out, and
it does not depend on their order and on repetitions. After any number of lines that have been read,
the box is that of the points so far, as for a mesh that is put together from these points, and
every mesh has the box of its vertices. The center of a box that is not empty and all centroids of a
mesh lie in the box, and they are found in 64-bit arithmetic for all coordinates. -/
theorem bounds_spec :
    (∀ ps : Array Point,
      ((Rect.ofPoints ps).isEmpty = true ↔ ps = #[]) ∧
      IsLeast {r : Rect | ∀ p ∈ ps, r.contains p = true} (Rect.ofPoints ps) ∧
      (∀ q, (Rect.ofPoints ps).contains q = true ↔
        ∀ r : Rect, (∀ p ∈ ps, r.contains p = true) → r.contains q = true) ∧
      ∀ qs : Array Point, (∀ p, p ∈ ps ↔ p ∈ qs) → Rect.ofPoints ps = Rect.ofPoints qs) ∧
    (∀ k room c b c', Block.vertices.lines VertexBlock.addLine k (VertexBlock.empty room) c =
        .ok (b, c') → b.bounds = Rect.ofPoints b.points ∧
      ∀ triangles velocities (m : Mesh Float),
        ofTriangles b.points triangles velocities = .ok m → m.bounds = b.bounds) ∧
    (∀ m : Mesh Float, m.IsBuilt → m.bounds = Rect.ofPoints m.vertices ∧
      ∀ t, m.bounds.contains (m.centroid t) = true) ∧
    (∀ r : Rect, r.isEmpty = false → r.contains r.center = true) ∧
    (∀ r : Rect, r.checkedCenter = some r.center) ∧
    ∀ (m : Mesh Float) t,
      checkedCentroid (m.corner t 0) (m.corner t 1) (m.corner t 2) = some (m.centroid t) := by
  refine ⟨fun ps => ⟨Rect.isEmpty_ofPoints_iff, Rect.isLeast_ofPoints ps,
    fun _ => Rect.contains_ofPoints_iff, fun _ => Rect.ofPoints_eq_of_mem_iff⟩, ?_,
    fun m h => ⟨h.bounds_eq, contains_centroid h.isBounded⟩, fun _ => Rect.contains_center,
    Rect.checkedCenter_eq, checkedCentroid_eq⟩
  intro k room c b c' h
  have hb := VertexBlock.bounds_of_lines h
  refine ⟨hb, fun triangles velocities m hm => ?_⟩
  obtain ⟨-, -, -, -, -, hbounds⟩ := ofParts_eq_ok_iff.mp hm
  rw [hb, hbounds]

end Mesh

end CurrentDrift
