import CurrentDrift.Mesh.FlowField

/-! # Putting a flow field together

Main statements: a mesh, a location graph and a flow field can be put together exactly if their
parts fit, and then they consist of these parts. -/

namespace CurrentDrift

/-- Parts that are each right but do not fit together. -/
def Corruption.IsMismatch : Corruption → Prop
  | .depthCount _ _ => True
  | .velocityCount _ _ => True
  | .segmentOutside _ _ _ => True
  | _ => False

/-! ## Meshes -/

namespace Triangle

theorem fault?_eq_none_iff {t : Triangle} {i vertices triangles : Nat} :
    t.fault? i vertices triangles = none ↔ t.IsWithin vertices triangles := by
  refine ⟨isWithin_of_fault?_eq_none, fun h => ?_⟩
  have hv : t.vertices.toList.find? (fun v => decide (vertices ≤ v)) = none := by
    rw [List.find?_eq_none]
    intro v hm
    simpa using h.1 v (by simpa using hm)
  have hn : t.neighbors.toList.find? (fun n => decide (n < -1 ∨ (triangles : Int) ≤ n)) =
      none := by
    rw [List.find?_eq_none]
    intro n hm
    have := h.2 n (by simpa using hm)
    simp only [decide_eq_true_eq]
    omega
  rw [fault?, hv, hn]
  rfl

theorem not_isMismatch_of_fault? {t : Triangle} {i vertices triangles : Nat} {cause : Corruption}
    (h : t.fault? i vertices triangles = some cause) : ¬ cause.IsMismatch := by
  unfold fault? at h
  split at h
  · obtain rfl := Option.some.inj h
    exact id
  · obtain ⟨n, -, rfl⟩ := Option.map_eq_some_iff.mp h
    exact id

end Triangle

namespace Mesh

variable {α : Type}

theorem firstFault?_eq_none_iff {triangles : Array Triangle} {vertices : Nat} :
    firstFault? triangles vertices = none ↔
      ∀ t ∈ triangles, t.IsWithin vertices triangles.size := by
  refine ⟨isWithin_of_firstFault?_eq_none, fun h => ?_⟩
  rw [firstFault?, List.findSome?_eq_none_iff]
  rintro ⟨t, i⟩ hm
  exact Triangle.fault?_eq_none_iff.mpr
    (h t (Array.mem_toList_iff.mp (List.fst_mem_of_mem_zipIdx hm)))

theorem not_isMismatch_of_firstFault? {triangles : Array Triangle} {vertices : Nat}
    {cause : Corruption} (h : firstFault? triangles vertices = some cause) :
    ¬ cause.IsMismatch := by
  obtain ⟨⟨t, i⟩, -, ht⟩ := List.exists_of_findSome?_eq_some h
  exact Triangle.not_isMismatch_of_fault? ht

variable [Scalar α]

/-- The velocities of a mesh that is put together: none are given where the water stands still. -/
def flow (triangles : Array Triangle) (velocities : Array (Velocity α)) : Array (Velocity α) :=
  if velocities.isEmpty then Array.replicate triangles.size Velocity.zero else velocities

theorem flow_eq (triangles : Array Triangle) (velocities : Array (Velocity α)) :
    (if velocities.isEmpty then Array.replicate triangles.size Velocity.zero else velocities) =
      flow triangles velocities :=
  rfl

theorem ofParts_eq_ok_iff {vertices : Array Point} {depths : Option (Array α)}
    {triangles : Array Triangle} {velocities : Array (Velocity α)} {bounds : Rect} {m : Mesh α} :
    ofParts vertices depths triangles velocities bounds = .ok m ↔
      (vertices.size ≠ 0 ∧ triangles.size ≠ 0 ∧ (∀ d ∈ depths, d.size = vertices.size) ∧
        (flow triangles velocities).size = triangles.size ∧
        ∀ t ∈ triangles, t.IsWithin vertices.size triangles.size) ∧
      m.vertices = vertices ∧ m.depths = depths ∧ m.triangles = triangles ∧
        m.velocities = flow triangles velocities ∧ m.bounds = bounds := by
  unfold ofParts
  constructor
  · intro h
    split at h
    · contradiction
    · next hv =>
      split at h
      · contradiction
      · next ht =>
        split at h
        · next hd =>
          dsimp only at h
          rw [flow_eq] at h
          split at h
          · next hs =>
            split at h
            · contradiction
            · next hf =>
              obtain rfl := Except.ok.inj h
              exact ⟨⟨hv, ht, hd, hs, firstFault?_eq_none_iff.mp hf⟩, rfl, rfl, rfl, rfl, rfl⟩
          · contradiction
        · contradiction
  · rintro ⟨⟨hv, ht, hd, hs, hw⟩, hvertices, hdepths, htriangles, hflow, hbounds⟩
    cases m
    dsimp only at hvertices hdepths htriangles hflow hbounds
    subst hvertices hdepths htriangles hflow hbounds
    rw [dif_neg hv, dif_neg ht, dif_pos hd]
    dsimp only
    rw [flow_eq, dif_pos hs]
    split
    · next fault hf =>
      rw [firstFault?_eq_none_iff.mpr hw] at hf
      contradiction
    · rfl

/-- If the numbers of depths and velocities are right, all complaints are about a single part. -/
theorem not_isMismatch_of_ofParts {vertices : Array Point} {depths : Option (Array α)}
    {triangles : Array Triangle} {velocities : Array (Velocity α)} {bounds : Rect}
    (hd : ∀ d ∈ depths, d.size = vertices.size)
    (hs : (flow triangles velocities).size = triangles.size) {e : MeshError}
    (h : ofParts vertices depths triangles velocities bounds = .error e) :
    ∃ cause : Corruption, e = .corrupt cause ∧ ¬ cause.IsMismatch := by
  unfold ofParts at h
  split at h
  · exact ⟨_, (Except.error.inj h).symm, id⟩
  · split at h
    · exact ⟨_, (Except.error.inj h).symm, id⟩
    · dsimp only at h
      rw [flow_eq, dif_pos hs] at h
      split at h
      · next fault hf =>
        exact ⟨fault, (Except.error.inj h).symm, not_isMismatch_of_firstFault? hf⟩
      · contradiction

end Mesh

/-! ## Location graphs -/

namespace LocationNode

theorem fault?_eq_none_iff {n : LocationNode} {i nodes segments : Nat} :
    n.fault? i nodes segments = none ↔
      n.segment < segments ∧ ∀ onLeft, -1 ≤ n.child onLeft ∧ n.child onLeft < nodes := by
  constructor
  · intro h
    refine ⟨?_, child_of_fault?_eq_none h⟩
    unfold fault? at h
    split at h
    · contradiction
    · omega
  · rintro ⟨hs, hc⟩
    have hl : -1 ≤ n.left ∧ n.left < nodes := hc true
    have hr : -1 ≤ n.right ∧ n.right < nodes := hc false
    unfold fault?
    rw [if_neg (by omega), if_neg (by omega), if_neg (by omega)]

theorem not_isMismatch_of_fault? {n : LocationNode} {i nodes segments : Nat} {cause : Corruption}
    (h : n.fault? i nodes segments = some cause) : ¬ cause.IsMismatch := by
  unfold fault? at h
  split at h
  · obtain rfl := Option.some.inj h
    exact id
  · split at h
    · obtain rfl := Option.some.inj h
      exact id
    · split at h
      · obtain rfl := Option.some.inj h
        exact id
      · contradiction

end LocationNode

namespace LocationDag

theorem firstFault?_eq_none_iff {nodes : Array LocationNode} {segments : Nat} :
    firstFault? nodes segments = none ↔ ∀ n ∈ nodes, n.segment < segments ∧
      ∀ onLeft, -1 ≤ n.child onLeft ∧ n.child onLeft < nodes.size := by
  rw [firstFault?, List.findSome?_eq_none_iff]
  constructor
  · intro h n hn
    obtain ⟨i, hi, rfl⟩ := List.getElem_of_mem (Array.mem_toList_iff.mpr hn)
    exact LocationNode.fault?_eq_none_iff.mp
      (h (nodes.toList[i], i) (List.mk_mem_zipIdx_iff_getElem?.mpr (by simp)))
  · rintro h ⟨n, i⟩ hm
    exact LocationNode.fault?_eq_none_iff.mpr
      (h n (Array.mem_toList_iff.mp (List.fst_mem_of_mem_zipIdx hm)))

theorem ofSegments_eq_ok_iff {nodes : Array LocationNode} {segments : Nat} {d : LocationDag} :
    ofSegments nodes segments = .ok d ↔
      (nodes.size ≠ 0 ∧ ∀ n ∈ nodes, n.segment < segments ∧
        ∀ onLeft, -1 ≤ n.child onLeft ∧ n.child onLeft < nodes.size) ∧ d.nodes = nodes := by
  unfold ofSegments
  constructor
  · intro h
    split at h
    · contradiction
    · next hn =>
      split at h
      · contradiction
      · next hf =>
        obtain rfl := Except.ok.inj h
        exact ⟨⟨hn, firstFault?_eq_none_iff.mp hf⟩, rfl⟩
  · rintro ⟨⟨hn, hw⟩, rfl⟩
    rw [dif_neg hn]
    split
    · next fault hf =>
      rw [firstFault?_eq_none_iff.mpr hw] at hf
      contradiction
    · rfl

theorem ofNodes_eq_ok_iff {nodes : Array LocationNode} {triangles : Nat} {d : LocationDag} :
    ofNodes nodes triangles = .ok d ↔
      (nodes.size ≠ 0 ∧ ∀ n ∈ nodes, n.segment < 3 * triangles ∧
        ∀ onLeft, -1 ≤ n.child onLeft ∧ n.child onLeft < nodes.size) ∧ d.nodes = nodes :=
  ofSegments_eq_ok_iff

theorem not_isMismatch_of_ofNodes {nodes : Array LocationNode} {triangles : Nat} {e : MeshError}
    (h : ofNodes nodes triangles = .error e) :
    ∃ cause : Corruption, e = .corrupt cause ∧ ¬ cause.IsMismatch := by
  unfold ofNodes ofSegments at h
  split at h
  · exact ⟨_, (Except.error.inj h).symm, id⟩
  · split at h
    · next fault hf =>
      obtain ⟨⟨n, i⟩, -, hn⟩ := List.exists_of_findSome?_eq_some hf
      exact ⟨fault, (Except.error.inj h).symm, LocationNode.not_isMismatch_of_fault? hn⟩
    · contradiction

end LocationDag

/-! ## Flow fields -/

namespace FlowField

variable {α : Type}

theorem firstOutside?_eq_none_iff {nodes : Array LocationNode} {triangles : Nat} :
    firstOutside? nodes triangles = none ↔ ∀ n ∈ nodes, n.segment < 3 * triangles := by
  refine ⟨segment_lt_of_firstOutside?_eq_none, fun h => ?_⟩
  rw [firstOutside?, List.find?_eq_none]
  rintro ⟨n, i⟩ hm
  have := h n (Array.mem_toList_iff.mp (List.fst_mem_of_mem_zipIdx hm))
  simp only [decide_eq_true_eq]
  omega

/-- Where no node asks about a triangle that is not there, any mesh fits. -/
theorem ofParts_of_segment_lt {mesh : Mesh α} {dag : LocationDag}
    (h : ∀ n ∈ dag.nodes, n.segment < 3 * mesh.triangles.size) :
    ofParts mesh dag = .ok ⟨mesh, dag, h⟩ := by
  unfold ofParts
  split
  · next hf =>
    rw [firstOutside?_eq_none_iff.mpr h] at hf
    contradiction
  · rfl

end FlowField

end CurrentDrift
