import CurrentDrift.Proofs.Mesh.Cross
import CurrentDrift.Proofs.Mesh.Loading
import Mathlib.Algebra.BigOperators.Fin
import Mathlib.Logic.Equiv.Fin.Rotate

/-! # Orientations of triangles

The exact orientations of a point in a triangle, of which a mesh works out the last 64 bits. All
three add up to twice the signed area, and the point is the mean of the corners with the
orientations as weights. Main statements: if the bounding box of a mesh holds its vertices, it holds
every point of a counterclockwise triangle, and if it is small enough for the point, a mesh works
out the exact orientations. -/

namespace CurrentDrift

/-! ## Points and triangles -/

/-- A weighted mean lies between the ends of every range that holds what it is the mean of. -/
theorem mem_range_of_weights {u v w a b c x lo hi : Int} (hu : 0 ≤ u) (hv : 0 ≤ v) (hw : 0 ≤ w)
    (hpos : 0 < u + v + w) (hmean : (u + v + w) * x = u * a + v * b + w * c)
    (ha : lo ≤ a ∧ a ≤ hi) (hb : lo ≤ b ∧ b ≤ hi) (hc : lo ≤ c ∧ c ≤ hi) : lo ≤ x ∧ x ≤ hi := by
  constructor
  · apply le_of_mul_le_mul_left _ hpos
    calc (u + v + w) * lo = u * lo + v * lo + w * lo := by ring
      _ ≤ u * a + v * b + w * c := by gcongr <;> omega
      _ = (u + v + w) * x := hmean.symm
  · apply le_of_mul_le_mul_left _ hpos
    calc (u + v + w) * x = u * a + v * b + w * c := hmean
      _ ≤ u * hi + v * hi + w * hi := by gcongr <;> omega
      _ = (u + v + w) * hi := by ring

namespace Mesh

variable {α : Type}

/-- The corner that a side leads to. -/
def target (m : Mesh α) (t : m.Index) (side : Fin 3) : Point := m.corner t (finRotate 3 side)

theorem target_eq_corner (m : Mesh α) (t : m.Index) (side : Fin 3) :
    m.target t side = m.corner t (side + 1) := by
  rw [target, finRotate_apply]

@[simp]
theorem target_zero (m : Mesh α) (t : m.Index) : m.target t 0 = m.corner t 1 := rfl

@[simp]
theorem target_one (m : Mesh α) (t : m.Index) : m.target t 1 = m.corner t 2 := rfl

@[simp]
theorem target_two (m : Mesh α) (t : m.Index) : m.target t 2 = m.corner t 0 := rfl

/-- On which side of a triangle's side a point lies, as a whole number; positive is the inside. -/
def orientation (m : Mesh α) (t : m.Index) (side : Fin 3) (p : Point) : Int :=
  Point.cross (m.corner t side) (m.target t side) p

/-- A point lies in a counterclockwise triangle or on its border. -/
def covers (m : Mesh α) (t : m.Index) (p : Point) : Bool :=
  decide (∀ side, 0 ≤ m.orientation t side p)

theorem covers_iff {m : Mesh α} {t : m.Index} {p : Point} :
    m.covers t p = true ↔ ∀ side, 0 ≤ m.orientation t side p :=
  decide_eq_true_iff

/-- The orientations of a point add up to that of the last corner at the first side, which is
positive if the corners go round counterclockwise. -/
theorem orientation_add (m : Mesh α) (t : m.Index) (p : Point) :
    m.orientation t 0 p + m.orientation t 1 p + m.orientation t 2 p =
      m.orientation t 0 (m.corner t 2) :=
  Point.cross_add _ _ _ p

/-- Twice the signed area of a triangle, from the coordinates of its corners: positive if they go
round counterclockwise, zero if they lie on a line. -/
def doubleArea (m : Mesh α) (t : m.Index) : Int :=
  ∑ side : Fin 3, ((m.corner t side).long.toInt * (m.target t side).lat.toInt -
    (m.target t side).long.toInt * (m.corner t side).lat.toInt)

theorem doubleArea_eq_orientation (m : Mesh α) (t : m.Index) :
    m.doubleArea t = m.orientation t 0 (m.corner t 2) := by
  change _ = Point.cross (m.corner t 0) (m.corner t 1) (m.corner t 2)
  simp only [doubleArea, Fin.sum_univ_three, target_zero, target_one, target_two, Point.cross]
  ring

theorem contains_iff {m : Mesh α} {t : m.Index} {p : Point} :
    m.contains t p = true ↔ ∀ side, 0 ≤ m.turn t side p := by
  simp only [contains, Bool.and_eq_true, decide_eq_true_eq, Fin.forall_fin_succ, and_assoc]
  simp

/-- The bounding box that a mesh was put together with holds all vertices. -/
def IsBounded (m : Mesh α) : Prop := ∀ v ∈ m.vertices, m.bounds.contains v = true

instance (m : Mesh α) : Decidable m.IsBounded :=
  inferInstanceAs (Decidable (∀ v ∈ m.vertices, m.bounds.contains v = true))

theorem bounds_of_ofTriangles [Scalar α] {vertices : Array Point} {triangles : Array Triangle}
    {velocities : Array (Velocity α)} {m : Mesh α}
    (h : ofTriangles vertices triangles velocities = .ok m) :
    m.bounds = Rect.ofPoints m.vertices := by
  obtain ⟨-, hvertices, -, -, -, hbounds⟩ := ofParts_eq_ok_iff.mp h
  rw [hbounds, hvertices]

theorem contains_corner {m : Mesh α} (h : m.IsBounded) (t : m.Index) (side : Fin 3) :
    m.bounds.contains (m.corner t side) = true :=
  h _ (Array.getElem_mem _)

theorem contains_target {m : Mesh α} (h : m.IsBounded) (t : m.Index) (side : Fin 3) :
    m.bounds.contains (m.target t side) = true :=
  contains_corner h t _

theorem turn_eq (m : Mesh α) (t : m.Index) (side : Fin 3) (p : Point) :
    m.turn t side p = Point.turn (m.corner t side) (m.target t side) p := by
  rw [turn, target_eq_corner]

theorem toInt_turn_of_isWord {m : Mesh α} {t : m.Index} {side : Fin 3} {p : Point}
    (h : IsWord (m.orientation t side p)) :
    (m.turn t side p).toInt = m.orientation t side p := by
  rw [turn_eq]
  exact Point.toInt_turn_of_isWord h

/-- The bounding box is small enough for the orientations of a point to be words: its area is a word
if the point is inside, and it is together no wider and higher than half the range of coordinates if
the point may be anywhere. -/
def IsSmallFor (m : Mesh α) (p : Point) : Prop :=
  m.bounds.contains p = true ∧ m.bounds.width * m.bounds.height ≤ 2 ^ 63 - 1 ∨
    m.bounds.width + m.bounds.height ≤ 2 ^ 31

theorem toInt_turn_of_checkedCross {m : Mesh α} {t : m.Index} {side : Fin 3} {p : Point} {c : Int64}
    (h : Point.checkedCross (m.corner t side) (m.target t side) p = some c) :
    c = m.turn t side p ∧ c.toInt = m.orientation t side p := by
  rw [turn_eq]
  exact Point.checkedCross_eq_some h

/-- Under a box that is small enough, no step of an orientation leaves the range. -/
theorem exists_checkedCross {m : Mesh α} (h : m.IsBounded) {p : Point} (hsmall : m.IsSmallFor p)
    (t : m.Index) (side : Fin 3) :
    ∃ c, Point.checkedCross (m.corner t side) (m.target t side) p = some c := by
  have hfrom := contains_corner h t side
  have hto := contains_target h t side
  rcases hsmall with ⟨hin, harea⟩ | hwide
  · exact Point.checkedCross_of_contains hfrom hto hin harea
  · exact Point.checkedCross_of_width_add_height_le hfrom hto hwide p

theorem toInt_turn {m : Mesh α} (h : m.IsBounded) {p : Point} (hsmall : m.IsSmallFor p)
    (t : m.Index) (side : Fin 3) : (m.turn t side p).toInt = m.orientation t side p := by
  obtain ⟨c, hc⟩ := exists_checkedCross h hsmall t side
  obtain ⟨rfl, hvalue⟩ := toInt_turn_of_checkedCross hc
  exact hvalue

theorem contains_eq_covers_of_toInt_turn {m : Mesh α} {t : m.Index} {p : Point}
    (h : ∀ side, (m.turn t side p).toInt = m.orientation t side p) :
    m.contains t p = m.covers t p := by
  rw [Bool.eq_iff_iff, contains_iff, covers_iff]
  refine forall_congr' fun side => ?_
  rw [Int64.le_iff_toInt_le, h side, Int64.toInt_zero]

theorem contains_eq_covers {m : Mesh α} (h : m.IsBounded) {p : Point} (hsmall : m.IsSmallFor p)
    (t : m.Index) : m.contains t p = m.covers t p :=
  contains_eq_covers_of_toInt_turn (toInt_turn h hsmall t)

/-- No point of a counterclockwise triangle is outside the bounding box. -/
theorem contains_of_covers {m : Mesh α} (h : m.IsBounded) {t : m.Index}
    (ht : 0 < m.orientation t 0 (m.corner t 2)) {p : Point} (hp : m.covers t p = true) :
    m.bounds.contains p = true := by
  have hweight := covers_iff.mp hp
  have h0 := Rect.contains_iff.mp (contains_corner h t 0)
  have h1 := Rect.contains_iff.mp (contains_corner h t 1)
  have h2 := Rect.contains_iff.mp (contains_corner h t 2)
  rw [← m.orientation_add t p] at ht
  rw [Rect.contains_iff]
  constructor
  · exact mem_range_of_weights (hweight 0) (hweight 1) (hweight 2) ht
      (Point.cross_add_mul_long _ _ _ p) h2.1 h0.1 h1.1
  · exact mem_range_of_weights (hweight 0) (hweight 1) (hweight 2) ht
      (Point.cross_add_mul_lat _ _ _ p) h2.2 h0.2 h1.2

end Mesh

/-! ## Where meshes come from -/

theorem FlowField.bounds_of_ofBody {bytes : List UInt8} {f : FlowField Float}
    (h : ofBody bytes = .ok f) : f.mesh.bounds = Rect.ofPoints f.mesh.vertices := by
  rcases malformed_or_isBody bytes with ⟨part, line, cause, he⟩ | ⟨d, -, hu, hfield⟩
  · rw [he] at h
    contradiction
  · have hread := hfield.symm.trans h
    obtain ⟨f', hf', hshows⟩ := (MeshDocument.isSound_of_field? hu hread).exists_field
    obtain rfl := Except.ok.inj (hread.symm.trans hf')
    exact hshows.bounds

/-- A mesh that has been put together from triangles, with the box around its vertices, or read from
the body of a file. -/
inductive Mesh.IsBuilt : Mesh Float → Prop where
  | ofTriangles {vertices : Array Point} {triangles : Array Triangle}
      {velocities : Array (Velocity Float)} {m : Mesh Float} :
      Mesh.ofTriangles vertices triangles velocities = .ok m → IsBuilt m
  | ofBody {bytes : List UInt8} {f : FlowField Float} :
      FlowField.ofBody bytes = .ok f → IsBuilt f.mesh

/-- The box of a mesh is the one around its vertices, wherever the mesh comes from. -/
theorem Mesh.IsBuilt.bounds_eq {m : Mesh Float} (h : m.IsBuilt) :
    m.bounds = Rect.ofPoints m.vertices := by
  cases h with
  | ofTriangles h => exact bounds_of_ofTriangles h
  | ofBody h => exact FlowField.bounds_of_ofBody h

theorem Mesh.IsBuilt.isBounded {m : Mesh Float} (h : m.IsBuilt) : m.IsBounded := by
  intro v hv
  rw [h.bounds_eq]
  exact Rect.contains_ofPoints hv

/-- A mesh without depths is put together from its own parts if its box is the smallest one. -/
theorem Mesh.ofTriangles_self {α : Type} [Scalar α] {m : Mesh α} (hdepths : m.depths = none)
    (hbounds : m.bounds = Rect.ofPoints m.vertices) :
    ofTriangles m.vertices m.triangles m.velocities = .ok m := by
  have hmoving : m.velocities.isEmpty = false := by
    rw [Array.isEmpty_eq_false_iff, ← Array.size_pos_iff, m.velocities_size]
    exact m.triangles_pos
  have hflow : flow m.triangles m.velocities = m.velocities := by
    rw [flow, hmoving, if_neg Bool.false_ne_true]
  refine ofParts_eq_ok_iff.mpr ⟨⟨m.vertices_pos.ne', m.triangles_pos.ne', ?_, ?_, m.isWithin⟩,
    rfl, hdepths, rfl, hflow.symm, hbounds⟩
  · simp
  · rw [hflow, m.velocities_size]

/-- A triangle on its own in its bounding box. -/
def Mesh.single (a b c : Point) : Mesh Float where
  vertices := #[a, b, c]
  depths := none
  triangles := #[⟨Vector.ofFn Fin.val, Vector.replicate 3 (-1)⟩]
  velocities := #[⟨1.0, 0.0⟩]
  bounds := Rect.ofPoints #[a, b, c]
  vertices_pos := by simp
  triangles_pos := by simp
  depths_size := by simp
  velocities_size := rfl
  isWithin := by simp [Triangle.IsWithin]

theorem Mesh.isBuilt_single (a b c : Point) : (single a b c).IsBuilt :=
  .ofTriangles (ofTriangles_self rfl rfl)

end CurrentDrift
