import CurrentDrift.Proofs.Mesh.CheckedSearch

/-! # Chains of triangles

The plainest location graph asks about the sides of the first triangle, then of the second one, and
so on: a side that a point is on the right of leads to the next triangle. All three nodes of a
triangle share that successor. Main statement: over a chain the search names the first triangle that
is found to contain the point. -/

namespace CurrentDrift

/-! ## The table -/

/-- Node number `i` of the chain of so many triangles. -/
def LocationNode.inChain (triangles i : Nat) : LocationNode where
  segment := i
  left := if i % 3 < 2 then (i : Int) + 1 else -1
  right := if i / 3 + 1 < triangles then 3 * ((i : Int) / 3 + 1) else -1

namespace LocationDag

/-- The table of three nodes for each triangle. -/
def chainNodes (triangles : Nat) : Array LocationNode :=
  Array.ofFn fun i : Fin (3 * triangles) => LocationNode.inChain triangles i

theorem size_chainNodes (triangles : Nat) : (chainNodes triangles).size = 3 * triangles :=
  Array.size_ofFn

theorem mem_chainNodes {triangles : Nat} {n : LocationNode} :
    n ∈ chainNodes triangles ↔ ∃ i < 3 * triangles, LocationNode.inChain triangles i = n := by
  simp only [chainNodes, Array.mem_ofFn, Fin.exists_iff, exists_prop]

theorem child_inChain {triangles i : Nat} (hi : i < 3 * triangles) (onLeft : Bool) :
    -1 ≤ (LocationNode.inChain triangles i).child onLeft ∧
      (LocationNode.inChain triangles i).child onLeft < 3 * triangles := by
  cases onLeft <;> simp only [LocationNode.child, LocationNode.inChain] <;> split <;> grind

def chain (triangles : Nat) (h : 0 < triangles) : LocationDag where
  nodes := chainNodes triangles
  nodes_pos := by
    rw [size_chainNodes]
    omega
  child_range := by
    intro n hn onLeft
    obtain ⟨i, hi, rfl⟩ := mem_chainNodes.mp hn
    rw [size_chainNodes]
    exact_mod_cast child_inChain hi onLeft

end LocationDag

/-! ## The scan -/

theorem Triangle.rightOf_eq {t : Triangle} (h : t.neighbors = #v[-1, -1, -1]) (side : Fin 3) :
    t.rightOf side = -1 := by
  rw [rightOf, h]
  match side with
  | 0 => rfl
  | 1 => rfl
  | 2 => rfl

namespace Mesh

variable {α : Type}

/-- The first triangle that contains a point, found by looking at one after the other. -/
def firstContaining? (m : Mesh α) (p : Point) : Option m.Index := Fin.find? fun t => m.contains t p

theorem firstContaining?_eq_some {m : Mesh α} {p : Point} {t : m.Index}
    (h : m.contains t p = true) (hearlier : ∀ u < t, m.contains u p = false) :
    m.firstContaining? p = some t :=
  Fin.find?_eq_some_iff.mpr ⟨h, hearlier⟩

theorem firstContaining?_eq_none {m : Mesh α} {p : Point} (h : ∀ t, m.contains t p = false) :
    m.firstContaining? p = none :=
  Fin.find?_eq_none_iff.mpr h

end Mesh

namespace FlowField

variable {α : Type}

/-- A mesh with the chain of its triangles. -/
abbrev chain (m : Mesh α) : FlowField α where
  mesh := m
  dag := LocationDag.chain m.triangles.size m.triangles_pos
  segment_lt := by
    intro n hn
    obtain ⟨i, hi, rfl⟩ := LocationDag.mem_chainNodes.mp hn
    exact hi

namespace chain

variable {m : Mesh α} {p : Point}

/-- The node that asks about a side of a triangle. -/
def place (m : Mesh α) (t : m.Index) (side : Fin 3) : (chain m).dag.Index :=
  ⟨3 * t.val + side.val, by
    have hsize : (chain m).dag.nodes.size = 3 * m.triangles.size :=
      LocationDag.size_chainNodes m.triangles.size
    omega⟩

theorem node_place (t : m.Index) (side : Fin 3) :
    (chain m).dag.node (place m t side) =
      { segment := 3 * t.val + side.val
        left := if side.val < 2 then 3 * (t.val : Int) + side.val + 1 else -1
        right := if t.val + 1 < m.triangles.size then 3 * (t.val : Int) + 3 else -1 } := by
  have hnode : (chain m).dag.node (place m t side) =
      LocationNode.inChain m.triangles.size (3 * t.val + side.val) := Array.getElem_ofFn ..
  have hdiv : (3 * t.val + side.val) / 3 = t.val := by omega
  have hmod : (3 * t.val + side.val) % 3 = side.val := by omega
  rw [hnode, LocationNode.inChain, hdiv, hmod]
  congr 2
  omega

theorem triangleAt_place (t : m.Index) (side : Fin 3) :
    (chain m).triangleAt (place m t side) = t := by
  apply Fin.ext
  change ((chain m).dag.node (place m t side)).segment / 3 = t.val
  rw [node_place]
  dsimp only
  omega

theorem side_place (t : m.Index) (side : Fin 3) :
    ((chain m).dag.node (place m t side)).side = side := by
  apply Fin.ext
  change ((chain m).dag.node (place m t side)).segment % 3 = side.val
  rw [node_place]
  dsimp only
  omega

theorem onLeft_place (t : m.Index) (side : Fin 3) :
    (chain m).onLeft (place m t side) p = decide (0 ≤ m.turn t side p) := by
  rw [onLeft, triangleAt_place, side_place]

/-- A side that the point is not on the right of leads to the next side, or ends the search. -/
theorem follow_of_left {t : m.Index} {side : Fin 3} (h : 0 ≤ m.turn t side p) :
    (chain m).follow p (place m t side) =
      if side.val < 2 then 3 * (t.val : Int) + side.val + 1 else -1 := by
  rw [follow_eq_child, onLeft_place, decide_eq_true h, node_place]
  rfl

/-- A side that the point is on the right of leads to the next triangle, or ends the search. -/
theorem follow_of_right {t : m.Index} {side : Fin 3} (h : ¬ 0 ≤ m.turn t side p) :
    (chain m).follow p (place m t side) =
      if t.val + 1 < m.triangles.size then 3 * (t.val : Int) + 3 else -1 := by
  rw [follow_eq_child, onLeft_place, decide_eq_false h, node_place]
  rfl

/-! ## The walk through a triangle -/

theorem visits_next_side {k : Nat} {t : m.Index} {side : Fin 3} (next : Fin 3)
    (hnext : next.val = side.val + 1) (hv : Visits (chain m) p k (place m t side))
    (h : 0 ≤ m.turn t side p) : Visits (chain m) p (k + 1) (place m t next) := by
  refine hv.step ?_
  rw [follow_of_left h, if_pos (by omega)]
  simp only [place, hnext]
  omega

/-- A point that a triangle contains walks past its three sides. -/
theorem visits_of_contains {k : Nat} {t : m.Index} (hv : Visits (chain m) p k (place m t 0))
    (h : m.contains t p = true) : Visits (chain m) p (k + 2) (place m t 2) := by
  have hleft := Mesh.contains_iff.mp h
  exact visits_next_side 2 rfl (visits_next_side 1 rfl hv (hleft 0)) (hleft 1)

/-- A point that a triangle does not contain comes to a side that it is on the right of. -/
theorem visits_right_side {k : Nat} {t : m.Index} (hv : Visits (chain m) p k (place m t 0))
    (h : ¬ m.contains t p = true) :
    ∃ l side, Visits (chain m) p l (place m t side) ∧ ¬ 0 ≤ m.turn t side p := by
  by_cases h0 : 0 ≤ m.turn t 0 p
  · have hv1 := visits_next_side 1 rfl hv h0
    by_cases h1 : 0 ≤ m.turn t 1 p
    · refine ⟨k + 2, 2, visits_next_side 2 rfl hv1 h1, fun h2 => h ?_⟩
      simp [Mesh.contains, h0, h1, h2]
    · exact ⟨k + 1, 1, hv1, h1⟩
  · exact ⟨k, 0, hv, h0⟩

theorem answer_of_left {t : m.Index} {side : Fin 3} (h : 0 ≤ m.turn t side p) :
    (chain m).answer (place m t side) p = some t := by
  rw [answer, onLeft_place, if_pos (decide_eq_true h), triangleAt_place]

theorem answer_of_right (hn : ∀ t ∈ m.triangles, t.neighbors = #v[-1, -1, -1]) {t : m.Index}
    {side : Fin 3} (h : ¬ 0 ≤ m.turn t side p) :
    (chain m).answer (place m t side) p = none := by
  have hacross : m.across t side = none := by
    have hneighbors : m.triangles[t].neighbors = #v[-1, -1, -1] := hn _ (Array.getElem_mem t.isLt)
    rw [Mesh.across, dif_neg]
    rw [Triangle.rightOf_eq hneighbors]
    decide
  rw [answer, onLeft_place, if_neg (by simpa using h), triangleAt_place, side_place]
  exact hacross

/-! ## The walk through the chain -/

/-- From the first side of a triangle on, if the earlier ones do not contain the point, the walk
ends with the first triangle that does: by induction on the triangles that are left. -/
theorem ends_of_visits (hn : ∀ t ∈ m.triangles, t.neighbors = #v[-1, -1, -1]) {k : Nat}
    {t : m.Index} (hv : Visits (chain m) p k (place m t 0))
    (hearlier : ∀ u < t, m.contains u p = false) :
    ∃ l i, Visits (chain m) p l i ∧ (chain m).follow p i = -1 ∧
      (chain m).answer i p = (chain m).mesh.firstContaining? p := by
  induction hrest : m.triangles.size - t.val generalizing k t with
  | zero => omega
  | succ rest ih =>
      by_cases h : m.contains t p = true
      · have hleft := Mesh.contains_iff.mp h 2
        exact ⟨k + 2, place m t 2, visits_of_contains hv h, follow_of_left hleft,
          (answer_of_left hleft).trans (Mesh.firstContaining?_eq_some h hearlier).symm⟩
      · obtain ⟨l, side, hl, hright⟩ := visits_right_side hv h
        rw [Bool.not_eq_true] at h
        by_cases hlast : t.val + 1 < m.triangles.size
        · refine ih (t := ⟨t.val + 1, hlast⟩) (hl.step ?_) (fun u hu => ?_) (by dsimp only; omega)
          · rw [follow_of_right hright, if_pos hlast]
            simp only [place, Fin.val_zero]
            omega
          · rcases Nat.lt_or_eq_of_le (Nat.le_of_lt_succ hu) with hlt | heq
            · exact hearlier u hlt
            · rw [Fin.ext heq, h]
        · refine ⟨l, place m t side, hl, ?_, (answer_of_right hn hright).trans ?_⟩
          · rw [follow_of_right hright, if_neg hlast]
          · refine (Mesh.firstContaining?_eq_none fun u => ?_).symm
            rcases Nat.lt_or_eq_of_le (Nat.le_of_lt_succ (u.isLt.trans_le (by omega :
              m.triangles.size ≤ t.val + 1))) with hlt | heq
            · exact hearlier u hlt
            · rw [Fin.ext heq, h]

theorem search_eq_firstContaining? (hn : ∀ t ∈ m.triangles, t.neighbors = #v[-1, -1, -1])
    (p : Point) : (chain m).search p = .ok ((chain m).mesh.firstContaining? p) := by
  obtain ⟨l, i, hv, hend, hanswer⟩ :=
    ends_of_visits hn (t := ⟨0, m.triangles_pos⟩) (p := p) .root fun u hu => by
      simp [Fin.lt_def] at hu
  rw [search_of_ends hv hend, hanswer]

end chain

/-- The triangle with the given corners that has no neighbours. -/
def alone (corners : Vector Nat 3) : Triangle := ⟨corners, Vector.replicate 3 (-1)⟩

end FlowField

end CurrentDrift
