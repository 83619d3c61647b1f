import CurrentDrift.Binary64
import CurrentDrift.Proofs.Mesh.CheckedSearch
import CurrentDrift.Proofs.Mesh.Depth

/-! # Lookups in the tables of a flow field

The search for a point, spelled out over the bare tables: every number that is looked up in a table
may be out of range. Main statement: over the tables of a flow field that could be put together no
number ever is, and the lookups come to what the flow field says. -/

namespace CurrentDrift

/-- The tables that a flow field looks things up in, whatever numbers are in them. -/
structure FlowTables (α : Type) where
  vertices : Array Point
  triangles : Array Triangle
  velocities : Array (Velocity α)
  bounds : Rect
  nodes : Array LocationNode

namespace LocationNode

/-- The number of the node to go on with, if the search goes on. No table has a place for a number
below `-1`. -/
def follower? (n : LocationNode) (onLeft : Bool) : Option (Option Nat) :=
  if n.child onLeft = -1 then some none else (n.child onLeft).toNat?.map some

/-- The numbers of the nodes that follow, the one on the right first. -/
def followers? (n : LocationNode) : Option (List Nat) := do
  let right ← n.follower? false
  let left ← n.follower? true
  return right.toList ++ left.toList

end LocationNode

namespace FlowTables

variable {α : Type}

/-- A corner of a triangle: its number is looked up first, and then the place of the vertex. -/
def corner? (T : FlowTables α) (t corner : Nat) : Option Point := do
  let triangle ← T.triangles[t]?
  let vertex ← triangle.vertices[corner]?
  T.vertices[vertex]?

/-- On which side of a triangle's side a point lies. -/
def turn? (T : FlowTables α) (t side : Nat) (p : Point) : Option Int64 := do
  let a ← T.corner? t side
  let b ← T.corner? t ((side + 1) % 3)
  return Point.turn a b p

def corners? (T : FlowTables α) (t : Nat) : Option (Point × Point × Point) := do
  return (← T.corner? t 0, ← T.corner? t 1, ← T.corner? t 2)

def centroid? (T : FlowTables α) (t : Nat) : Option Point := do
  let (a, b, c) ← T.corners? t
  return ⟨Mesh.mean a.long b.long c.long, Mesh.mean a.lat b.lat c.lat⟩

/-- Whether a point lies in a triangle; the sides are asked in order up to the first `no`. -/
def contains? (T : FlowTables α) (t : Nat) (p : Point) : Option Bool :=
  [0, 1, 2].allM fun side => do return decide (0 ≤ (← T.turn? t side p))

/-- The number of the triangle on the right of a side, if there is one. -/
def across? (T : FlowTables α) (t side : Nat) : Option (Option Nat) := do
  let triangle ← T.triangles[t]?
  let neighbor ← triangle.neighbors[(side + 2) % 3]?
  return if 0 ≤ neighbor then some neighbor.toNat else none

/-- The search from a node on, over at most that many nodes. -/
def descend? (T : FlowTables α) (p : Point) : Nat → Nat → Option (Except MeshError (Option Nat))
  | 0, _ => some (.error (.corrupt (.cycle T.nodes.size)))
  | steps + 1, i => do
    let node ← T.nodes[i]?
    let onLeft := decide (0 ≤ (← T.turn? node.triangle (node.segment % 3) p))
    match ← node.follower? onLeft with
    | some j => T.descend? p steps j
    | none =>
      if onLeft then return .ok (some node.triangle)
      else return .ok (← T.across? node.triangle (node.segment % 3))

/-- What the nodes say about a point, wherever it lies. -/
def search? (T : FlowTables α) (p : Point) : Option (Except MeshError (Option Nat)) :=
  T.descend? p T.nodes.size 0

/-- The triangle of a point. -/
def locate? (T : FlowTables α) (p : Point) : Option (Except MeshError Nat) :=
  if T.bounds.contains p then do
    match ← T.search? p with
    | .ok (some t) => return .ok t
    | .ok none => return .error (.outside p)
    | .error e => return .error e
  else some (.error (.outside p))

/-- The velocity stored for the triangle of a point. -/
def sample? (T : FlowTables α) (p : Point) : Option (Except MeshError (Velocity α)) := do
  match ← T.locate? p with
  | .ok t => return .ok (← T.velocities[t]?)
  | .error e => return .error e

theorem count_false_setIfInBounds_lt {visited : Array Bool} {i : Nat}
    (h : visited[i]? = some false) :
    (visited.setIfInBounds i true).count false < visited.count false := by
  obtain ⟨hi, hfalse⟩ := Array.getElem?_eq_some_iff.mp h
  have hpos : 0 < visited.count false :=
    Array.count_pos_iff.mpr (hfalse ▸ Array.getElem_mem hi)
  rw [Array.setIfInBounds_def, dif_pos hi, Array.count_set]
  simpa [hfalse] using Nat.sub_lt hpos Nat.one_pos

/-- Goes through the nodes that are stacked up with their depths, each node once. -/
def deepest? (T : FlowTables α) (visited : Array Bool) (found : Nat) :
    List (Nat × Nat) → Option Nat
  | [] => some found
  | (i, depth) :: stack =>
    match _h : visited[i]? with
    | none => none
    | some true => T.deepest? visited found stack
    | some false => do
      let node ← T.nodes[i]?
      let followers ← node.followers?
      T.deepest? (visited.setIfInBounds i true) (max found depth)
        (followers.map (fun j => (j, depth + 1)) ++ stack)
termination_by stack => (visited.count false, stack.length)
decreasing_by
  · exact Prod.Lex.right _ (Nat.lt_succ_self _)
  · exact Prod.Lex.left _ _ (count_false_setIfInBounds_lt _h)

theorem deepest?_of_seen (T : FlowTables α) {visited : Array Bool} {i : Nat}
    (h : visited[i]? = some true) (found depth : Nat) (stack : List (Nat × Nat)) :
    T.deepest? visited found ((i, depth) :: stack) = T.deepest? visited found stack := by
  rw [deepest?]
  split
  · simp_all
  · rfl
  · simp_all

theorem deepest?_of_new (T : FlowTables α) {visited : Array Bool} {i : Nat}
    (h : visited[i]? = some false) (found depth : Nat) (stack : List (Nat × Nat)) :
    T.deepest? visited found ((i, depth) :: stack) = (do
      let node ← T.nodes[i]?
      let followers ← node.followers?
      T.deepest? (visited.setIfInBounds i true) (max found depth)
        (followers.map (fun j => (j, depth + 1)) ++ stack)) := by
  rw [deepest?]
  split
  · simp_all
  · simp_all
  · rfl

/-- The depth of the location graph. -/
def depth? (T : FlowTables α) : Option Nat :=
  T.deepest? (Array.replicate T.nodes.size false) 0 [(0, 1)]

end FlowTables

/-! ## The tables of a flow field -/

namespace FlowField

variable {α : Type}

/-- The tables of a flow field. -/
def tables (f : FlowField α) : FlowTables α :=
  ⟨f.mesh.vertices, f.mesh.triangles, f.mesh.velocities, f.mesh.bounds, f.dag.nodes⟩

theorem corner?_tables (f : FlowField α) (t : f.mesh.Index) (side : Fin 3) :
    f.tables.corner? t side = some (f.mesh.corner t side) := by
  have hvertex := f.mesh.vertex_lt t side
  have htriangle : f.mesh.triangles[t.val]? = some f.mesh.triangles[t] :=
    Array.getElem?_eq_getElem t.isLt
  have hcorner : f.mesh.triangles[t].vertices[side.val]? =
      some f.mesh.triangles[t].vertices[side] := Vector.getElem?_eq_getElem side.isLt
  simp only [FlowTables.corner?, tables, htriangle, hcorner, Option.bind_eq_bind,
    Option.bind_some, Array.getElem?_eq_getElem hvertex]
  rfl

theorem turn?_tables (f : FlowField α) (t : f.mesh.Index) (side : Fin 3) (p : Point) :
    f.tables.turn? t side p = some (f.mesh.turn t side p) := by
  have hnext : (side.val + 1) % 3 = (side + 1).val := rfl
  rw [FlowTables.turn?, corner?_tables, hnext, corner?_tables]
  rfl

theorem corners?_tables (f : FlowField α) (t : f.mesh.Index) :
    f.tables.corners? t = some (f.mesh.corner t 0, f.mesh.corner t 1, f.mesh.corner t 2) := by
  have h0 := f.corner?_tables t 0
  have h1 := f.corner?_tables t 1
  have h2 := f.corner?_tables t 2
  simp only [Fin.val_zero, Fin.val_one, Fin.val_two] at h0 h1 h2
  simp only [FlowTables.corners?, h0, h1, h2]
  rfl

theorem centroid?_tables (f : FlowField α) (t : f.mesh.Index) :
    f.tables.centroid? t = some (f.mesh.centroid t) := by
  rw [FlowTables.centroid?, corners?_tables]
  rfl

theorem contains?_tables (f : FlowField α) (t : f.mesh.Index) (p : Point) :
    f.tables.contains? t p = some (f.mesh.contains t p) := by
  have h0 := f.turn?_tables t 0 p
  have h1 := f.turn?_tables t 1 p
  have h2 := f.turn?_tables t 2 p
  simp only [Fin.val_zero, Fin.val_one, Fin.val_two] at h0 h1 h2
  simp only [FlowTables.contains?, Mesh.contains, List.allM, h0, h1, h2, Option.bind_eq_bind,
    Option.bind_some, Option.pure_def]
  cases decide (0 ≤ f.mesh.turn t 0 p) with
  | false => rfl
  | true =>
      cases decide (0 ≤ f.mesh.turn t 1 p) with
      | false => rfl
      | true => cases decide (0 ≤ f.mesh.turn t 2 p) <;> rfl

theorem across?_tables (f : FlowField α) (t : f.mesh.Index) (side : Fin 3) :
    f.tables.across? t side = some ((f.mesh.across t side).map Fin.val) := by
  have htriangle : f.mesh.triangles[t.val]? = some f.mesh.triangles[t] :=
    Array.getElem?_eq_getElem t.isLt
  have hneighbor : f.mesh.triangles[t].neighbors[(side.val + 2) % 3]? =
      some (f.mesh.triangles[t].rightOf side) := Vector.getElem?_eq_getElem (side + 2).isLt
  simp only [FlowTables.across?, tables, htriangle, hneighbor, Option.bind_eq_bind,
    Option.bind_some, Mesh.across]
  split <;> rfl

theorem follower?_node (d : LocationDag) (i : d.Index) (onLeft : Bool) :
    (d.node i).follower? onLeft = some ((d.next? i onLeft).map Fin.val) := by
  have hrange := d.child_range (d.node i) (d.node_mem i) onLeft
  rw [LocationNode.follower?, LocationDag.next?]
  split
  · next hend =>
    rw [dif_neg (by omega)]
    rfl
  · next hgo =>
    have hpos : 0 ≤ (d.node i).child onLeft := by omega
    rw [dif_pos hpos, Int.mem_toNat?.mpr (Int.toNat_of_nonneg hpos).symm]
    rfl

theorem followers?_node (d : LocationDag) (i : d.Index) :
    (d.node i).followers? =
      some (((d.next? i false).toList ++ (d.next? i true).toList).map Fin.val) := by
  simp only [LocationNode.followers?, follower?_node, Option.bind_eq_bind, Option.bind_some,
    Option.pure_def, List.map_append]
  cases d.next? i false <;> cases d.next? i true <;> rfl

theorem nodes_tables (f : FlowField α) (i : f.dag.Index) :
    f.tables.nodes[i.val]? = some (f.dag.node i) :=
  Array.getElem?_eq_getElem i.isLt

/-- Every node that the search comes to is in the table, and so is every triangle that it asks
about: by induction on the nodes that are left to it. -/
theorem descend?_tables (f : FlowField α) (p : Point) (steps : Nat) (i : f.dag.Index) :
    f.tables.descend? p steps i = some (match f.descend p steps i with
      | some found => .ok (found.map Fin.val)
      | none => .error (.corrupt (.cycle f.dag.nodes.size))) := by
  induction steps generalizing i with
  | zero => rfl
  | succ steps ih =>
      have hturn : f.tables.turn? (f.dag.node i).triangle
          ((f.dag.node i).segment % 3) p = some _ :=
        f.turn?_tables (f.triangleAt i) (f.dag.node i).side p
      have hacross : f.tables.across? (f.dag.node i).triangle ((f.dag.node i).segment % 3) =
          some _ := f.across?_tables (f.triangleAt i) (f.dag.node i).side
      have honLeft : decide (0 ≤ f.mesh.turn (f.triangleAt i) (f.dag.node i).side p) =
          f.onLeft i p := rfl
      simp only [FlowTables.descend?, nodes_tables, Option.bind_eq_bind, Option.bind_some,
        hturn, honLeft, follower?_node, descend]
      cases hnext : f.dag.next? i (f.onLeft i p) with
      | some j => exact ih j
      | none =>
          simp only [answer, hacross]
          cases f.onLeft i p <;> rfl

theorem search?_tables (f : FlowField α) (p : Point) :
    f.tables.search? p = some ((f.search p).map (Option.map Fin.val)) := by
  have hdescend := f.descend?_tables p f.dag.nodes.size f.dag.root
  have hroot : f.tables.search? p = _ := hdescend
  rw [hroot, search]
  cases f.descend p f.dag.nodes.size f.dag.root <;> rfl

theorem locate?_tables (f : FlowField α) (p : Point) :
    f.tables.locate? p = some ((f.locate p).map Fin.val) := by
  have hbounds : f.tables.bounds = f.mesh.bounds := rfl
  simp only [FlowTables.locate?, locate, search?_tables, hbounds]
  split
  · cases f.search p with
    | error e => rfl
    | ok found => cases found <;> rfl
  · rfl

theorem velocities_tables (f : FlowField α) (t : f.mesh.Index) :
    f.tables.velocities[t.val]? = some (f.mesh.velocity t) :=
  Array.getElem?_eq_getElem (f.mesh.velocities_size.symm ▸ t.isLt)

theorem sample?_tables (f : FlowField α) (p : Point) :
    f.tables.sample? p = some (f.sample p) := by
  simp only [FlowTables.sample?, sample, locate?_tables, Option.bind_eq_bind, Option.bind_some]
  cases f.locate p with
  | error e => rfl
  | ok t =>
      simp only [Except.map, velocities_tables]
      rfl

/-- The nodes that are stacked up are all in the table. -/
theorem deepest?_tables (f : FlowField α) (visited : Vector Bool f.dag.nodes.size) (found : Nat)
    (stack : List (f.dag.Index × Nat)) :
    f.tables.deepest? visited.toArray found (stack.map fun x => (x.1.val, x.2)) =
      some (f.dag.deepest visited found stack) := by
  induction visited, found, stack using LocationDag.deepest.induct with
  | case1 visited found => simp [FlowTables.deepest?, LocationDag.deepest]
  | case2 visited found i depth stack hseen ih =>
      have hlookup : visited.toArray[i.val]? = some true := by
        rw [Vector.getElem?_toArray, Vector.getElem?_eq_getElem i.isLt]
        exact congrArg some hseen
      rw [List.map_cons, FlowTables.deepest?_of_seen _ hlookup, ih, LocationDag.deepest,
        dif_pos hseen]
  | case3 visited found i depth stack hnew ih =>
      have hlookup : visited.toArray[i.val]? = some false := by
        rw [Vector.getElem?_toArray, Vector.getElem?_eq_getElem i.isLt]
        exact congrArg some (Bool.not_eq_true _ ▸ hnew)
      have hset : visited.toArray.setIfInBounds i true = (visited.set i true).toArray := by
        simp [Array.setIfInBounds_def]
      rw [List.map_cons, FlowTables.deepest?_of_new _ hlookup, LocationDag.deepest, dif_neg hnew,
        ← ih, nodes_tables, hset]
      simp only [Option.bind_eq_bind, Option.bind_some, followers?_node,
        LocationDag.successors, List.map_append, List.map_map]
      rfl

theorem depth?_tables (f : FlowField α) : f.tables.depth? = some f.dag.depth := by
  rw [LocationDag.depth_eq_deepest]
  exact f.deepest?_tables (Vector.replicate f.dag.nodes.size false) 0 [(f.dag.root, 1)]

/-! ## Fields that are put together -/

theorem eq_of_ofParts {mesh : Mesh α} {dag : LocationDag} {f : FlowField α}
    (h : ofParts mesh dag = .ok f) : f.mesh = mesh ∧ f.dag = dag := by
  unfold ofParts at h
  split at h
  · contradiction
  · obtain rfl := Except.ok.inj h
    exact ⟨rfl, rfl⟩

/-- The only complaints are that a point is outside and that the nodes lead in a circle. -/
theorem locate_eq_error {f : FlowField α} {p : Point} {e : MeshError}
    (h : f.locate p = .error e) : e = .outside p ∨ e = .corrupt (.cycle f.dag.nodes.size) := by
  unfold locate at h
  split at h
  · split at h
    · contradiction
    · exact .inl (Except.error.inj h).symm
    · next e' he =>
      obtain rfl := Except.error.inj h
      exact .inr (search_eq_error_iff.mp he).1
  · exact .inl (Except.error.inj h).symm

theorem sample_of_locate {f : FlowField α} {p : Point} {t : f.mesh.Index}
    (h : f.locate p = .ok t) : f.sample p = .ok (f.mesh.velocity t) := by
  rw [sample, h]
  rfl

theorem locate_eq_error_of_sample {f : FlowField α} {p : Point} {e : MeshError}
    (h : f.sample p = .error e) : f.locate p = .error e := by
  cases hlocate : f.locate p with
  | ok t =>
      rw [sample_of_locate hlocate] at h
      contradiction
  | error e' =>
      rw [sample, hlocate] at h
      obtain rfl := Except.error.inj h
      rfl

variable [Scalar α]

theorem tables_of_parts {vertices : Array Point} {depths : Option (Array α)}
    {triangles : Array Triangle} {velocities : Array (Velocity α)} {bounds : Rect}
    {nodes : Array LocationNode} {segments : Nat} {mesh : Mesh α} {dag : LocationDag}
    {f : FlowField α} (hmesh : Mesh.ofParts vertices depths triangles velocities bounds = .ok mesh)
    (hdag : LocationDag.ofSegments nodes segments = .ok dag) (hfield : ofParts mesh dag = .ok f) :
    f.tables = ⟨vertices, triangles, Mesh.flow triangles velocities, mesh.bounds, nodes⟩ := by
  obtain ⟨hfmesh, hfdag⟩ := eq_of_ofParts hfield
  obtain ⟨-, hvertices, -, htriangles, hvelocities, -⟩ := Mesh.ofParts_eq_ok_iff.mp hmesh
  obtain ⟨-, hnodes⟩ := LocationDag.ofSegments_eq_ok_iff.mp hdag
  rw [tables, hfmesh, hfdag, hvertices, htriangles, hvelocities, hnodes]

/-- Over the tables that a flow field was put together from, no lookup is out of range, whatever the
number of sides that the nodes were first checked against, be it three for each triangle or not: all
come to what the flow field says. A triangle that is found is one of the mesh, and the velocity that
is returned is the one stored for it. With checked orientations a point is located in the same way,
unless a step leaves the range, and none does if the bounding box holds the vertices and its area is
a word. -/
theorem lookups_in_range {vertices : Array Point} {depths : Option (Array α)}
    {triangles : Array Triangle} {velocities : Array (Velocity α)} {bounds : Rect}
    {nodes : Array LocationNode} {segments : Nat} {mesh : Mesh α} {dag : LocationDag}
    {f : FlowField α}
    (hmesh : Mesh.ofParts vertices depths triangles velocities bounds = .ok mesh ∨
      Mesh.ofTriangles vertices triangles velocities = .ok mesh)
    (hdag : LocationDag.ofSegments nodes segments = .ok dag)
    (hfield : ofParts mesh dag = .ok f) (p : Point) :
    let T : FlowTables α :=
      ⟨vertices, triangles, Mesh.flow triangles velocities, mesh.bounds, nodes⟩
    (∀ t < triangles.size,
      (∀ side < 3, (T.turn? t side p).isSome = true) ∧ (T.corners? t).isSome = true ∧
        (T.centroid? t).isSome = true ∧ (T.contains? t p).isSome = true) ∧
    T.depth? = some f.dag.depth ∧
    T.search? p = some ((f.search p).map (Option.map Fin.val)) ∧
    T.locate? p = some ((f.locate p).map Fin.val) ∧
    T.sample? p = some (f.sample p) ∧
    (∀ t, f.locate p = .ok t → t.val < triangles.size ∧
      ∃ v, (Mesh.flow triangles velocities)[t.val]? = some v ∧ f.sample p = .ok v) ∧
    (∀ e, f.locate p = .error e ∨ f.sample p = .error e →
      e = .outside p ∨ e = .corrupt (.cycle nodes.size)) ∧
    (∀ found, f.checkedLocate p = some found → found = f.locate p) ∧
    (mesh.IsBounded → mesh.bounds.width * mesh.bounds.height ≤ 2 ^ 63 - 1 →
      f.checkedLocate p = some (f.locate p)) ∧
    (mesh.IsBounded → mesh.IsSmallFor p →
      ∀ t side, f.checkedOrientation t side p = some (f.mesh.turn t side p)) := by
  intro T
  have hT : T = f.tables := by
    rcases hmesh with hmesh | hmesh
    · exact (tables_of_parts hmesh hdag hfield).symm
    · have hparts : Mesh.ofParts vertices none triangles velocities (Rect.ofPoints vertices) =
          .ok mesh := hmesh
      exact (tables_of_parts hparts hdag hfield).symm
  have htriangles : triangles = f.mesh.triangles := congrArg FlowTables.triangles hT
  have hvelocities : Mesh.flow triangles velocities = f.mesh.velocities :=
    congrArg FlowTables.velocities hT
  have hnodes : nodes = f.dag.nodes := congrArg FlowTables.nodes hT
  obtain ⟨rfl, -⟩ := eq_of_ofParts hfield
  rw [hT, hvelocities, htriangles, hnodes]
  refine ⟨fun t ht => ⟨fun side hside => ?_, ?_, ?_, ?_⟩, f.depth?_tables, f.search?_tables p,
    f.locate?_tables p, f.sample?_tables p, fun t ht => ?_, fun e he => ?_,
    fun found => checkedLocate_eq_some,
    fun hbounded hsize => checkedLocate_of_area hbounded hsize p,
    fun hbounded hsmall => checkedOrientation_of_isSmallFor hbounded hsmall⟩
  · exact Option.isSome_of_eq_some (f.turn?_tables ⟨t, ht⟩ ⟨side, hside⟩ p)
  · exact Option.isSome_of_eq_some (f.corners?_tables ⟨t, ht⟩)
  · exact Option.isSome_of_eq_some (f.centroid?_tables ⟨t, ht⟩)
  · exact Option.isSome_of_eq_some (f.contains?_tables ⟨t, ht⟩ p)
  · exact ⟨t.isLt, f.mesh.velocity t, f.velocities_tables t, sample_of_locate ht⟩
  · exact locate_eq_error (he.elim id locate_eq_error_of_sample)

/-- The nodes of the single triangle pass the first check for seven triangles as well. -/
theorem sample?_oneTriangle :
    (FlowTables.sample? ⟨#[⟨0, 0⟩, ⟨1000000, 0⟩, ⟨0, 1000000⟩],
      #[⟨#v[0, 1, 2], #v[-1, -1, -1]⟩],
      Mesh.flow #[⟨#v[0, 1, 2], #v[-1, -1, -1]⟩] #[(⟨1.0, 0.0⟩ : Velocity Float)],
      ⟨0, 0, 1000000, 1000000⟩, #[⟨0, 1, -1⟩, ⟨1, 2, -1⟩, ⟨2, -1, -1⟩]⟩ ⟨100000, 100000⟩) =
        some (.ok ⟨1.0, 0.0⟩) := by
  have hmesh : Mesh.ofParts #[⟨0, 0⟩, ⟨1000000, 0⟩, ⟨0, 1000000⟩] none
      #[⟨#v[0, 1, 2], #v[-1, -1, -1]⟩] #[(⟨1.0, 0.0⟩ : Velocity Float)]
      ⟨0, 0, 1000000, 1000000⟩ = .ok (oneTriangle ⟨1.0, 0.0⟩).mesh :=
    Mesh.ofParts_eq_ok_iff.mpr
      ⟨⟨by decide, by decide, by simp, rfl, (oneTriangle ⟨1.0, 0.0⟩).mesh.isWithin⟩,
        rfl, rfl, rfl, rfl, rfl⟩
  have hdag : LocationDag.ofSegments #[⟨0, 1, -1⟩, ⟨1, 2, -1⟩, ⟨2, -1, -1⟩] 21 =
      .ok (oneTriangle (⟨1.0, 0.0⟩ : Velocity Float)).dag :=
    LocationDag.ofSegments_eq_ok_iff.mpr ⟨⟨by decide, by simp [LocationNode.child]⟩, rfl⟩
  obtain ⟨-, -, -, -, hsample, -⟩ := lookups_in_range (.inl hmesh) hdag
    (ofParts_of_segment_lt (oneTriangle ⟨1.0, 0.0⟩).segment_lt) ⟨100000, 100000⟩
  exact hsample.trans (congrArg some sample_oneTriangle_inside)

end FlowField

end CurrentDrift
