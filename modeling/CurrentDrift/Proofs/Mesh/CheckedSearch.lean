import CurrentDrift.Proofs.Mesh.Descent
import CurrentDrift.Proofs.Mesh.Orientation

/-! # The search in 64-bit arithmetic

The search asks for orientations that are worked out on words of 64 bits and wrap around. It is
stated once more over checked arithmetic, which has no value as soon as a step leaves the range.
Main statements: the search, checked or not, finds where the walk of the point ends, and where the
checked search has no value the walk comes to a node whose orientation leaves the range. If the area
of the bounding box fits into a word, that happens for no point that is searched for, and all
orientations are the exact ones. -/

namespace CurrentDrift

namespace FlowField

variable {α : Type}

/-! ## The checked search -/

/-- `orientation` on words. -/
def checkedOrientation (f : FlowField α) (t : f.mesh.Index) (side : Fin 3) (p : Point) :
    Option Int64 :=
  Point.checkedCross (f.mesh.corner t side) (f.mesh.target t side) p

/-- `onLeft` on words. -/
def checkedOnLeft (f : FlowField α) (i : f.dag.Index) (p : Point) : Option Bool :=
  (f.checkedOrientation (f.triangleAt i) (f.dag.node i).side p).map fun c => decide (0 ≤ c)

/-- `descend` on words, with the answer of the last node. -/
def checkedDescend (f : FlowField α) (p : Point) :
    Nat → f.dag.Index → Option (Option (Option f.mesh.Index))
  | 0, _ => some none
  | steps + 1, i => do
    let left ← f.checkedOnLeft i p
    match f.dag.next? i left with
    | some j => f.checkedDescend p steps j
    | none =>
      some (some (if left then some (f.triangleAt i)
        else f.mesh.across (f.triangleAt i) (f.dag.node i).side))

/-- `search` on words. -/
def checkedSearch (f : FlowField α) (p : Point) :
    Option (Except MeshError (Option f.mesh.Index)) := do
  match ← f.checkedDescend p f.dag.nodes.size f.dag.root with
  | some found => some (.ok found)
  | none => some (.error (.corrupt (.cycle f.dag.nodes.size)))

/-- `locate` on words. -/
def checkedLocate (f : FlowField α) (p : Point) : Option (Except MeshError f.mesh.Index) :=
  if f.mesh.bounds.contains p then do
    match ← f.checkedSearch p with
    | .ok (some t) => some (.ok t)
    | .ok none => some (.error (.outside p))
    | .error e => some (.error e)
  else some (.error (.outside p))

/-! ## One node -/

variable {f : FlowField α} {p : Point}

theorem checkedOrientation_eq_some {t : f.mesh.Index} {side : Fin 3} {c : Int64}
    (h : f.checkedOrientation t side p = some c) :
    c = f.mesh.turn t side p ∧ c.toInt = f.mesh.orientation t side p :=
  Mesh.toInt_turn_of_checkedCross h

/-- A node that can be asked on checked words answers as it does on words that wrap around. -/
theorem checkedOnLeft_eq_some {i : f.dag.Index} {left : Bool}
    (h : f.checkedOnLeft i p = some left) : left = f.onLeft i p := by
  obtain ⟨c, hc, rfl⟩ := Option.map_eq_some_iff.mp h
  rw [(checkedOrientation_eq_some hc).1, onLeft]

theorem checkedOnLeft_eq_none_iff {i : f.dag.Index} :
    f.checkedOnLeft i p = none ↔
      f.checkedOrientation (f.triangleAt i) (f.dag.node i).side p = none :=
  Option.map_eq_none_iff

/-- A node that can be asked leads on, or ends the search, as without checks. -/
theorem checkedDescend_succ {i : f.dag.Index} {left : Bool} (h : f.checkedOnLeft i p = some left)
    (steps : Nat) : f.checkedDescend p (steps + 1) i =
      match f.dag.next? i (f.onLeft i p) with
      | some j => f.checkedDescend p steps j
      | none => some (some (f.answer i p)) := by
  obtain rfl := checkedOnLeft_eq_some h
  rw [checkedDescend, h]
  rfl

/-! ## From node to node -/

/-- Where the checked search has a value, it is that of the search: by induction on the nodes that
are left to it. -/
theorem checkedDescend_eq_some {steps : Nat} {i : f.dag.Index}
    {found : Option (Option f.mesh.Index)}
    (h : f.checkedDescend p steps i = some found) : found = f.descend p steps i := by
  induction steps generalizing i with
  | zero => exact (Option.some.inj h).symm
  | succ steps ih =>
      cases hleft : f.checkedOnLeft i p with
      | none =>
          rw [checkedDescend, hleft] at h
          contradiction
      | some left =>
          rw [checkedDescend_succ hleft] at h
          rw [descend]
          cases hnext : f.dag.next? i (f.onLeft i p) with
          | some j =>
              rw [hnext] at h
              exact ih h
          | none =>
              rw [hnext] at h
              exact (Option.some.inj h).symm

/-- The checked search stops without a value at a node of the walk. -/
theorem checkedDescend_eq_none {steps k : Nat} {i : f.dag.Index} (hi : Visits f p k i)
    (h : f.checkedDescend p steps i = none) :
    ∃ l j, l < steps ∧ Visits f p (k + l) j ∧
      f.checkedOrientation (f.triangleAt j) (f.dag.node j).side p = none := by
  induction steps generalizing k i with
  | zero => contradiction
  | succ steps ih =>
      cases hleft : f.checkedOnLeft i p with
      | none => exact ⟨0, i, Nat.succ_pos steps, hi, checkedOnLeft_eq_none_iff.mp hleft⟩
      | some left =>
          rw [checkedDescend_succ hleft] at h
          split at h
          · next j hj =>
            obtain ⟨l, x, hl, hx, hnone⟩ := ih (hi.step ((f.next?_eq_some_iff p i j).mp hj)) h
            refine ⟨l + 1, x, Nat.succ_lt_succ hl, ?_, hnone⟩
            rwa [Nat.add_right_comm] at hx
          · contradiction

/-- If the checked search has a value, no node that the walk comes to in as many steps leaves the
range. -/
theorem checkedOrientation_ne_none_of_visits {steps k l : Nat} {i j : f.dag.Index}
    {found : Option (Option f.mesh.Index)} (hi : Visits f p k i)
    (h : f.checkedDescend p steps i = some found) (hl : l < steps) (hj : Visits f p (k + l) j) :
    f.checkedOrientation (f.triangleAt j) (f.dag.node j).side p ≠ none := by
  induction steps generalizing k l i with
  | zero => contradiction
  | succ steps ih =>
      cases hleft : f.checkedOnLeft i p with
      | none =>
          rw [checkedDescend, hleft] at h
          contradiction
      | some left =>
          cases l with
          | zero =>
              obtain rfl := hi.unique hj
              intro hnone
              rw [checkedOnLeft_eq_none_iff.mpr hnone] at hleft
              contradiction
          | succ l =>
              rw [checkedDescend_succ hleft] at h
              split at h
              · next x hx =>
                refine ih (hi.step ((f.next?_eq_some_iff p i x).mp hx)) h
                  (Nat.lt_of_succ_lt_succ hl) (l := l) ?_
                rwa [Nat.add_right_comm]
              · next hend =>
                have := hi.le_of_ends ((f.next?_eq_none_iff p i).mp hend) hj
                omega

/-! ## The search -/

theorem checkedSearch_eq_some {found : Except MeshError (Option f.mesh.Index)}
    (h : f.checkedSearch p = some found) : found = f.search p := by
  obtain ⟨descent, hdescent, hfound⟩ := Option.bind_eq_some_iff.mp h
  rw [search, ← checkedDescend_eq_some hdescent]
  cases descent <;> exact (Option.some.inj hfound).symm

/-- The checked search has no value exactly if the walk, before it has been at more nodes than there
are, comes to a node whose orientation leaves the range. -/
theorem checkedSearch_eq_none_iff :
    f.checkedSearch p = none ↔ ∃ k i, k < f.dag.nodes.size ∧ Visits f p k i ∧
      f.checkedOrientation (f.triangleAt i) (f.dag.node i).side p = none := by
  cases hdescent : f.checkedDescend p f.dag.nodes.size f.dag.root with
  | none =>
      obtain ⟨l, j, hl, hj, hnone⟩ := checkedDescend_eq_none .root hdescent
      rw [Nat.zero_add] at hj
      rw [checkedSearch, hdescent]
      exact iff_of_true rfl ⟨l, j, hl, hj, hnone⟩
  | some descent =>
      refine iff_of_false ?_ ?_
      · rw [checkedSearch, hdescent]
        cases descent <;> exact Option.some_ne_none _
      · rintro ⟨k, i, hk, hi, hnone⟩
        rw [← Nat.zero_add k] at hi
        exact checkedOrientation_ne_none_of_visits .root hdescent hk hi hnone

theorem checkedSearch_eq
    (h : ∀ i, f.checkedOrientation (f.triangleAt i) (f.dag.node i).side p ≠ none) :
    f.checkedSearch p = some (f.search p) := by
  cases hsearch : f.checkedSearch p with
  | none =>
      obtain ⟨k, i, -, -, hnone⟩ := checkedSearch_eq_none_iff.mp hsearch
      exact (h i hnone).elim
  | some found => rw [checkedSearch_eq_some hsearch]

theorem checkedOrientation_of_isSmallFor (h : f.mesh.IsBounded) (hsmall : f.mesh.IsSmallFor p)
    (t : f.mesh.Index) (side : Fin 3) :
    f.checkedOrientation t side p = some (f.mesh.turn t side p) := by
  obtain ⟨c, hc⟩ := Mesh.exists_checkedCross h hsmall t side
  rw [checkedOrientation, hc, (Mesh.toInt_turn_of_checkedCross hc).1]

theorem checkedSearch_of_isSmallFor (h : f.mesh.IsBounded) (hsmall : f.mesh.IsSmallFor p) :
    f.checkedSearch p = some (f.search p) := by
  refine checkedSearch_eq fun i => ?_
  rw [checkedOrientation_of_isSmallFor h hsmall]
  exact Option.some_ne_none _

/-- The search answers with the node's own triangle where the walk leaves through a left `-1`, and
with the triangle across the side where it leaves through a right one. It reports a circle exactly
if the walk meets a node again, that is, if it never leaves; with an acyclic table it always
answers. All that is so with orientations that wrap around, wherever the point is. If every step is
checked instead, there is the same answer, or there is none, and then the walk comes to a node whose
orientation leaves the range. None does if the bounding box is small enough, and then all
orientations are the exact ones. -/
theorem search_spec (f : FlowField α) (p : Point) :
    (∀ k i, Visits f p k i → f.follow p i = -1 →
      f.search p = .ok (if 0 ≤ f.mesh.turn (f.triangleAt i) (f.dag.node i).side p
        then some (f.triangleAt i)
        else f.mesh.across (f.triangleAt i) (f.dag.node i).side)) ∧
    (∀ e, f.search p = .error e ↔ e = .corrupt (.cycle f.dag.nodes.size) ∧ Revisits f p) ∧
    (Revisits f p ↔ ∀ k i, Visits f p k i → f.follow p i ≠ -1) ∧
    (f.dag.IsAcyclic → ∃ found, f.search p = .ok found) ∧
    (∀ found, f.checkedSearch p = some found → found = f.search p) ∧
    (f.checkedSearch p = none ↔ ∃ k i, k < f.dag.nodes.size ∧ Visits f p k i ∧
      f.checkedOrientation (f.triangleAt i) (f.dag.node i).side p = none) ∧
    (f.mesh.IsBounded → f.mesh.IsSmallFor p → f.checkedSearch p = some (f.search p) ∧
      ∀ t side, (f.mesh.turn t side p).toInt = f.mesh.orientation t side p) := by
  refine ⟨?_, fun e => search_eq_error_iff, revisits_iff_never_ends, ?_,
    fun found => checkedSearch_eq_some, checkedSearch_eq_none_iff, fun hbounded hsmall =>
      ⟨checkedSearch_of_isSmallFor hbounded hsmall, Mesh.toInt_turn hbounded hsmall⟩⟩
  · intro k i hi hend
    rw [search_of_ends hi hend, answer, onLeft]
    simp only [decide_eq_true_eq]
  · intro hacyclic
    cases hs : f.search p with
    | ok found => exact ⟨found, rfl⟩
    | error e =>
        exact (not_revisits_of_isAcyclic hacyclic p (search_eq_error_iff.mp hs).2).elim

/-- The walk of a point inside the triangle passes through all nodes before it ends, and no step
leaves the range. -/
theorem search_oneTriangle_inside :
    Visits (oneTriangle (⟨1.0, 0.0⟩ : Velocity Float)) ⟨100000, 100000⟩ 2 ⟨2, Nat.lt_succ_self 2⟩ ∧
      (oneTriangle (⟨1.0, 0.0⟩ : Velocity Float)).search ⟨100000, 100000⟩ =
        .ok (some ⟨0, Nat.one_pos⟩) ∧
      (oneTriangle (⟨1.0, 0.0⟩ : Velocity Float)).checkedSearch ⟨100000, 100000⟩ =
        some (.ok (some ⟨0, Nat.one_pos⟩)) := by
  obtain ⟨hends, -, -, -, -, -, hchecked⟩ :=
    search_spec (oneTriangle (⟨1.0, 0.0⟩ : Velocity Float)) ⟨100000, 100000⟩
  have hleft := onLeft_oneTriangle_inside (⟨1.0, 0.0⟩ : Velocity Float) ⟨2, Nat.lt_succ_self 2⟩
  have hsearch := (hends 2 _ visits_oneTriangle_inside (follow_oneTriangle_inside _ _)).trans
    (congrArg Except.ok (if_pos (of_decide_eq_true hleft)))
  have hbounded : (oneTriangle (⟨1.0, 0.0⟩ : Velocity Float)).mesh.IsBounded := by decide +kernel
  obtain ⟨hsame, -⟩ := hchecked hbounded (.inr (by decide))
  exact ⟨visits_oneTriangle_inside, hsearch, hsame.trans (congrArg some hsearch)⟩

/-! ## Points in the bounding box -/

theorem checkedLocate_eq (h : f.mesh.bounds.contains p = true →
    f.checkedSearch p = some (f.search p)) : f.checkedLocate p = some (f.locate p) := by
  by_cases hbox : f.mesh.bounds.contains p = true
  · rw [checkedLocate, if_pos hbox, h hbox, locate_of_contains hbox]
    dsimp only [Option.bind_eq_bind, Option.bind_some]
    rcases f.search p with e | _ | t <;> rfl
  · rw [checkedLocate, if_neg hbox, locate_of_not_contains hbox]

theorem checkedLocate_eq_some {found : Except MeshError f.mesh.Index}
    (h : f.checkedLocate p = some found) : found = f.locate p := by
  have hsearch : f.mesh.bounds.contains p = true → f.checkedSearch p = some (f.search p) := by
    intro hbox
    rw [checkedLocate, if_pos hbox] at h
    obtain ⟨answer, hanswer, -⟩ := Option.bind_eq_some_iff.mp h
    rw [hanswer, checkedSearch_eq_some hanswer]
  rw [checkedLocate_eq hsearch] at h
  exact (Option.some.inj h).symm

theorem checkedLocate_of_area (h : f.mesh.IsBounded)
    (hsize : f.mesh.bounds.width * f.mesh.bounds.height ≤ 2 ^ 63 - 1) (p : Point) :
    f.checkedLocate p = some (f.locate p) :=
  checkedLocate_eq fun hbox => checkedSearch_of_isSmallFor h (.inl ⟨hbox, hsize⟩)

/-- If the area of the bounding box of a mesh is a word, locating a point never leaves the range of
64-bit arithmetic and gives the exact answer, wherever the point is. For a point of the box, the
orientation at every side of every triangle is worked out exactly, and it is at most the area of the
box; a point outside is turned away without working out any. -/
theorem checkedLocate_eq_locate {f : FlowField Float} (h : f.mesh.IsBuilt)
    (hsize : f.mesh.bounds.width * f.mesh.bounds.height ≤ 2 ^ 63 - 1) (p : Point) :
    f.checkedLocate p = some (f.locate p) ∧
    (f.mesh.bounds.contains p = true → ∀ t side, ∃ c : Int64,
      f.checkedOrientation t side p = some c ∧ c = f.mesh.turn t side p ∧
        c.toInt = f.mesh.orientation t side p ∧
        |c.toInt| ≤ f.mesh.bounds.width * f.mesh.bounds.height) ∧
    (f.mesh.bounds.contains p = false → f.locate p = .error (.outside p)) := by
  refine ⟨checkedLocate_of_area h.isBounded hsize p, fun hp t side => ?_, fun hp => ?_⟩
  · have hexact := Mesh.toInt_turn h.isBounded (.inl ⟨hp, hsize⟩) t side
    refine ⟨f.mesh.turn t side p, ?_, rfl, hexact, ?_⟩
    · exact checkedOrientation_of_isSmallFor h.isBounded (.inl ⟨hp, hsize⟩) t side
    · rw [hexact]
      exact Point.abs_cross_le_of_contains (Mesh.contains_corner h.isBounded t side)
        (Mesh.contains_target h.isBounded t side) hp
  · exact locate_of_not_contains (Bool.not_eq_true _ ▸ hp)

/-- A triangle that is as wide as the range of longitudes and half as high as it is wide. -/
def widest : FlowField Float where
  mesh := .single ⟨-2147483648, -2147483648⟩ ⟨2147483647, -2147483648⟩ ⟨-2147483648, 0⟩
  dag := (oneTriangle (⟨1.0, 0.0⟩ : Velocity Float)).dag
  segment_lt := (oneTriangle (⟨1.0, 0.0⟩ : Velocity Float)).segment_lt

theorem checkedLocate_eq_locate_widest :
    widest.mesh.IsBuilt ∧ widest.mesh.bounds.width * widest.mesh.bounds.height ≤ 2 ^ 63 - 1 ∧
      ∀ p, widest.checkedLocate p = some (widest.locate p) := by
  have hbuilt : widest.mesh.IsBuilt := Mesh.isBuilt_single _ _ _
  have hsize : widest.mesh.bounds.width * widest.mesh.bounds.height ≤ 2 ^ 63 - 1 := by
    decide +kernel
  refine ⟨hbuilt, hsize, fun p => ?_⟩
  exact (checkedLocate_eq_locate hbuilt hsize p).1

end FlowField

end CurrentDrift
