import CurrentDrift.Geo.Rect
import CurrentDrift.Geo.Velocity
import CurrentDrift.Mesh.Error

/-!
# Triangle meshes

Vertices, triangles with their neighbours, and a velocity for each triangle. The corners of a
triangle go round counterclockwise. Side `s` runs from corner `s` to the next one, and the
neighbour across it is stored at the corner that it does not touch. A `Mesh` carries the proof
that all indices in it are in range.
-/

namespace CurrentDrift

/-- A triangle by the numbers of its vertices. A neighbour `-1` is the outside of the mesh. -/
structure Triangle where
  vertices : Vector Nat 3
  neighbors : Vector Int 3
  deriving DecidableEq, Repr

namespace Triangle

/-- The vertices that a side leads from and to. -/
def ends (t : Triangle) (side : Fin 3) : Nat × Nat := (t.vertices[side], t.vertices[side + 1])

/-- The stored neighbour on the right of a side. -/
def rightOf (t : Triangle) (side : Fin 3) : Int := t.neighbors[side + 2]

/-- The triangle on the right of a side, if there is one. -/
def neighbor? (t : Triangle) (side : Fin 3) : Option Nat :=
  if 0 ≤ t.rightOf side then some (t.rightOf side).toNat else none

/-- All indices of the triangle belong to a mesh of that many vertices and triangles. -/
def IsWithin (t : Triangle) (vertices triangles : Nat) : Prop :=
  (∀ v ∈ t.vertices, v < vertices) ∧ ∀ n ∈ t.neighbors, -1 ≤ n ∧ n < triangles

/-- The first index of triangle number `i` that is out of range: corners first. -/
def fault? (t : Triangle) (i vertices triangles : Nat) : Option Corruption :=
  match t.vertices.toList.find? (fun v => decide (vertices ≤ v)) with
  | some v => some (.vertexIndex i v vertices)
  | none =>
    (t.neighbors.toList.find? (fun n => decide (n < -1 ∨ (triangles : Int) ≤ n))).map
      (Corruption.neighborIndex i)

theorem isWithin_of_fault?_eq_none {t : Triangle} {i vertices triangles : Nat}
    (h : t.fault? i vertices triangles = none) : t.IsWithin vertices triangles := by
  unfold fault? at h
  split at h
  · cases h
  · next hv =>
    rw [List.find?_eq_none] at hv
    rw [Option.map_eq_none_iff, List.find?_eq_none] at h
    refine ⟨fun v hm => ?_, fun n hm => ?_⟩
    · simpa using hv v (by simpa using hm)
    · have := h n (by simpa using hm)
      simp only [decide_eq_true_eq, not_or, Int.not_lt, Int.not_le] at this
      exact this

end Triangle

/-- Vertices, triangles and velocities that fit together. -/
structure Mesh (α : Type) where
  vertices : Array Point
  /-- The depth of every vertex, or of none. -/
  depths : Option (Array α)
  triangles : Array Triangle
  velocities : Array (Velocity α)
  bounds : Rect
  vertices_pos : 0 < vertices.size
  triangles_pos : 0 < triangles.size
  depths_size : ∀ d ∈ depths, d.size = vertices.size
  velocities_size : velocities.size = triangles.size
  isWithin : ∀ t ∈ triangles, t.IsWithin vertices.size triangles.size

/-- The first index out of range in a list of triangles. -/
def Mesh.firstFault? (triangles : Array Triangle) (vertices : Nat) : Option Corruption :=
  triangles.toList.zipIdx.findSome? fun (t, i) => t.fault? i vertices triangles.size

theorem Mesh.isWithin_of_firstFault?_eq_none {triangles : Array Triangle} {vertices : Nat}
    (h : Mesh.firstFault? triangles vertices = none) :
    ∀ t ∈ triangles, t.IsWithin vertices triangles.size := by
  intro t ht
  obtain ⟨i, hi, rfl⟩ := List.getElem_of_mem (Array.mem_toList_iff.2 ht)
  rw [firstFault?, List.findSome?_eq_none_iff] at h
  exact Triangle.isWithin_of_fault?_eq_none
    (h (triangles.toList[i], i) (List.mk_mem_zipIdx_iff_getElem?.2 (by simp)))

namespace Mesh

variable {α : Type}

/-- Puts a mesh together from its parts, among them the bounding box of the vertices. Without
velocities the water stands still everywhere. -/
def ofParts [Scalar α] (vertices : Array Point) (depths : Option (Array α))
    (triangles : Array Triangle) (velocities : Array (Velocity α)) (bounds : Rect) :
    Except MeshError (Mesh α) :=
  if hv : vertices.size = 0 then .error (.corrupt .noVertices)
  else if ht : triangles.size = 0 then .error (.corrupt .noTriangles)
  else if hd : ∀ d ∈ depths, d.size = vertices.size then
    let flow :=
      if velocities.isEmpty then Array.replicate triangles.size Velocity.zero else velocities
    if hs : flow.size = triangles.size then
      match hf : firstFault? triangles vertices.size with
      | some fault => .error (.corrupt fault)
      | none => .ok
        { vertices, depths, triangles, velocities := flow, bounds
          vertices_pos := Nat.pos_of_ne_zero hv
          triangles_pos := Nat.pos_of_ne_zero ht
          depths_size := hd
          velocities_size := hs
          isWithin := isWithin_of_firstFault?_eq_none hf }
    else .error (.corrupt (.velocityCount velocities.size triangles.size))
  else .error (.corrupt (.depthCount (depths.elim 0 Array.size) vertices.size))

/-- Puts a mesh without depths together. -/
def ofTriangles [Scalar α] (vertices : Array Point) (triangles : Array Triangle)
    (velocities : Array (Velocity α)) : Except MeshError (Mesh α) :=
  ofParts vertices none triangles velocities (Rect.ofPoints vertices)

/-- The number of a triangle of the mesh. -/
abbrev Index (m : Mesh α) : Type := Fin m.triangles.size

theorem vertex_lt (m : Mesh α) (t : m.Index) (side : Fin 3) :
    m.triangles[t].vertices[side] < m.vertices.size :=
  (m.isWithin m.triangles[t] (Array.getElem_mem t.isLt)).1 _ (Vector.getElem_mem side.isLt)

theorem rightOf_lt (m : Mesh α) (t : m.Index) (side : Fin 3) :
    m.triangles[t].rightOf side < m.triangles.size :=
  ((m.isWithin m.triangles[t] (Array.getElem_mem t.isLt)).2 _
    (Vector.getElem_mem (side + 2).isLt)).2

/-- A corner of a triangle. -/
def corner (m : Mesh α) (t : m.Index) (side : Fin 3) : Point :=
  have := m.vertex_lt t side
  m.vertices[m.triangles[t].vertices[side]]

/-- The velocity in a triangle. -/
def velocity (m : Mesh α) (t : m.Index) : Velocity α :=
  have : t.val < m.velocities.size := m.velocities_size.symm ▸ t.isLt
  m.velocities[t.val]

/-- The triangle on the right of a side, if there is one. -/
def across (m : Mesh α) (t : m.Index) (side : Fin 3) : Option m.Index :=
  if h : 0 ≤ m.triangles[t].rightOf side then
    some ⟨(m.triangles[t].rightOf side).toNat, by have := m.rightOf_lt t side; omega⟩
  else none

/-- Whether the water moves in any triangle. -/
def isMoving [Scalar α] (m : Mesh α) : Bool := m.velocities.any fun v => !v.isZero

/-- The mean of three coordinates, without its fraction. -/
def mean (x y z : Int32) : Int32 := Int32.ofInt ((x.toInt + y.toInt + z.toInt).tdiv 3)

def centroid (m : Mesh α) (t : m.Index) : Point :=
  let a := m.corner t 0
  let b := m.corner t 1
  let c := m.corner t 2
  ⟨mean a.long b.long c.long, mean a.lat b.lat c.lat⟩

end Mesh

/-- Twice the signed area of the triangle `a b p`: positive if `p` is on the left of the way from
`a` to `b`, zero if it is on the line. It is worked out on words of 64 bits, which hold it as long
as the points are not too far apart, and wrap around beyond that. -/
@[irreducible]
def Point.turn (a b p : Point) : Int64 :=
  (b.long.toInt64 - a.long.toInt64) * (p.lat.toInt64 - a.lat.toInt64) -
    (b.lat.toInt64 - a.lat.toInt64) * (p.long.toInt64 - a.long.toInt64)

namespace Mesh

variable {α : Type}

/-- On which side of a triangle's side a point lies; positive is the inside. -/
def turn (m : Mesh α) (t : m.Index) (side : Fin 3) (p : Point) : Int64 :=
  Point.turn (m.corner t side) (m.corner t (side + 1)) p

/-- Whether a point lies in a counterclockwise triangle or on its border. -/
def contains (m : Mesh α) (t : m.Index) (p : Point) : Bool :=
  0 ≤ m.turn t 0 p && 0 ≤ m.turn t 1 p && 0 ≤ m.turn t 2 p

end Mesh

end CurrentDrift
