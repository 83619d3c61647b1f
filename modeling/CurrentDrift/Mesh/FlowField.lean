import CurrentDrift.Mesh.Basic
import CurrentDrift.Mesh.LocationDag

/-!
# Flow fields

A mesh with the graph that finds the triangle of a point in it: from a point to a velocity.
-/

namespace CurrentDrift

/-- A mesh and a location graph that only asks about sides of its triangles. -/
structure FlowField (α : Type) where
  mesh : Mesh α
  dag : LocationDag
  segment_lt : ∀ n ∈ dag.nodes, n.segment < 3 * mesh.triangles.size

namespace FlowField

variable {α : Type}

/-- The first node that asks about a side of no triangle, with its number. -/
def firstOutside? (nodes : Array LocationNode) (triangles : Nat) : Option (LocationNode × Nat) :=
  nodes.toList.zipIdx.find? fun (n, _) => decide (3 * triangles ≤ n.segment)

theorem segment_lt_of_firstOutside?_eq_none {nodes : Array LocationNode} {triangles : Nat}
    (h : firstOutside? nodes triangles = none) : ∀ n ∈ nodes, n.segment < 3 * triangles := by
  intro n hn
  obtain ⟨i, hi, rfl⟩ := List.getElem_of_mem (Array.mem_toList_iff.2 hn)
  rw [firstOutside?, List.find?_eq_none] at h
  have := h (nodes.toList[i], i) (List.mk_mem_zipIdx_iff_getElem?.2 (by simp))
  exact Nat.lt_of_not_le fun hle => this (decide_eq_true hle)

/-- Puts a mesh and a location graph together if they fit. -/
def ofParts (mesh : Mesh α) (dag : LocationDag) : Except MeshError (FlowField α) :=
  match h : firstOutside? dag.nodes mesh.triangles.size with
  | some (n, i) => .error (.corrupt (.segmentOutside i n.segment mesh.triangles.size))
  | none => .ok ⟨mesh, dag, segment_lt_of_firstOutside?_eq_none h⟩

/-- The triangle that a node asks about. -/
def triangleAt (f : FlowField α) (i : f.dag.Index) : f.mesh.Index :=
  ⟨(f.dag.node i).triangle, by
    have := f.segment_lt (f.dag.node i) (f.dag.node_mem i)
    unfold LocationNode.triangle
    omega⟩

/-- Whether a point is on the left of the side that a node asks about, or on its line. -/
def onLeft (f : FlowField α) (i : f.dag.Index) (p : Point) : Bool :=
  0 ≤ f.mesh.turn (f.triangleAt i) (f.dag.node i).side p

/-- What a node says about a point for which it ends the search: the node's own triangle on the
left, the one across the side on the right. -/
def answer (f : FlowField α) (i : f.dag.Index) (p : Point) : Option f.mesh.Index :=
  if f.onLeft i p then some (f.triangleAt i)
  else f.mesh.across (f.triangleAt i) (f.dag.node i).side

/-- The answer for a point from a node on, unless that takes more than the given number of nodes. -/
def descend (f : FlowField α) (p : Point) : Nat → f.dag.Index → Option (Option f.mesh.Index)
  | 0, _ => none
  | steps + 1, i =>
    match f.dag.next? i (f.onLeft i p) with
    | some j => f.descend p steps j
    | none => some (f.answer i p)

/-- The triangle that the location graph names for a point. A search that takes more nodes than
there are has gone in a circle. -/
def search (f : FlowField α) (p : Point) : Except MeshError (Option f.mesh.Index) :=
  match f.descend p f.dag.nodes.size f.dag.root with
  | some found => .ok found
  | none => .error (.corrupt (.cycle f.dag.nodes.size))

/-- The triangle of a point. Points outside the bounding box are not searched for. -/
def locate (f : FlowField α) (p : Point) : Except MeshError f.mesh.Index :=
  if f.mesh.bounds.contains p then
    match f.search p with
    | .ok (some t) => .ok t
    | .ok none => .error (.outside p)
    | .error e => .error e
  else .error (.outside p)

/-- The velocity stored for the triangle of a point. -/
def sample (f : FlowField α) (p : Point) : Except MeshError (Velocity α) :=
  (f.locate p).map f.mesh.velocity

end FlowField

end CurrentDrift
