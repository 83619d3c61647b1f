import CurrentDrift.Mesh.FlowField
import Mathlib.Data.Fintype.Pigeonhole
import Mathlib.Logic.Relation

/-! # The descent through a location graph

A point walks from node to node until a node ends the search. The walk is stated by local rules that
do not invoke the search. Main statements: the search finds where the walk ends, and reports a
circle exactly for the walks that meet a node again. -/

namespace CurrentDrift

/-- No chain of successors, whatever the answers on the way, leads from a node back to it. -/
def LocationDag.IsAcyclic (d : LocationDag) : Prop :=
  ∀ i : d.Index, ¬ Relation.TransGen
    (fun i j : d.Index => (d.node i).left = (j.val : Int) ∨ (d.node i).right = (j.val : Int)) i i

namespace FlowField

variable {α : Type}

/-! ## The walk of a point -/

/-- The number that a node names for a point: the left one if the point is on the left of the node's
side or on its line. -/
def follow (f : FlowField α) (p : Point) (i : f.dag.Index) : Int :=
  if 0 ≤ f.mesh.turn (f.triangleAt i) (f.dag.node i).side p then (f.dag.node i).left
  else (f.dag.node i).right

/-- The walk of a point from the root on is at a node after so many steps. -/
inductive Visits (f : FlowField α) (p : Point) : Nat → f.dag.Index → Prop where
  | root : Visits f p 0 f.dag.root
  | step {k i} {j : f.dag.Index} : Visits f p k i → f.follow p i = (j.val : Int) →
      Visits f p (k + 1) j

theorem follow_eq_child (f : FlowField α) (p : Point) (i : f.dag.Index) :
    f.follow p i = (f.dag.node i).child (f.onLeft i p) := by
  simp only [follow, LocationNode.child, onLeft, decide_eq_true_eq]

theorem next?_eq_some_iff (f : FlowField α) (p : Point) (i j : f.dag.Index) :
    f.dag.next? i (f.onLeft i p) = some j ↔ f.follow p i = (j.val : Int) := by
  rw [follow_eq_child, LocationDag.next?]
  split
  · next h =>
    simp only [Option.some.injEq, Fin.ext_iff]
    omega
  · next h =>
    simp only [reduceCtorEq, false_iff]
    omega

/-- The search ends at a node exactly if the node names `-1`. -/
theorem next?_eq_none_iff (f : FlowField α) (p : Point) (i : f.dag.Index) :
    f.dag.next? i (f.onLeft i p) = none ↔ f.follow p i = -1 := by
  have hrange := f.dag.child_range (f.dag.node i) (f.dag.node_mem i) (f.onLeft i p)
  rw [follow_eq_child, LocationDag.next?]
  split
  · next h =>
    simp only [reduceCtorEq, false_iff]
    omega
  · next h =>
    simp only [true_iff]
    omega

theorem Visits.unique {f : FlowField α} {p : Point} {k : Nat} {i j : f.dag.Index}
    (hi : Visits f p k i) (hj : Visits f p k j) : i = j := by
  induction hi generalizing j with
  | root => cases hj; rfl
  | step _ hf ih =>
      cases hj with
      | step hv hf' =>
          obtain rfl := ih hv
          exact Fin.ext (by omega)

/-- A walk that has made so many steps has made every smaller number of steps before. -/
theorem Visits.exists_of_le {f : FlowField α} {p : Point} {k l : Nat} {i : f.dag.Index}
    (h : Visits f p k i) (hl : l ≤ k) : ∃ j, Visits f p l j := by
  induction h with
  | root =>
      obtain rfl := Nat.le_zero.mp hl
      exact ⟨_, .root⟩
  | @step k i j hv hf ih =>
      rcases Nat.lt_or_eq_of_le hl with hlt | rfl
      · exact ih (Nat.le_of_lt_succ hlt)
      · exact ⟨j, hv.step hf⟩

/-- No step leads on from a node that names `-1`. -/
theorem Visits.le_of_ends {f : FlowField α} {p : Point} {k l : Nat} {i j : f.dag.Index}
    (hi : Visits f p k i) (hend : f.follow p i = -1) (hj : Visits f p l j) : l ≤ k := by
  by_contra hlt
  obtain ⟨j', hj'⟩ := hj.exists_of_le (Nat.lt_of_not_le hlt)
  cases hj' with
  | step hv hf =>
      obtain rfl := hi.unique hv
      omega

/-- A walk can end in one way only. -/
theorem Visits.unique_of_ends {f : FlowField α} {p : Point} {k l : Nat} {i j : f.dag.Index}
    (hi : Visits f p k i) (hiend : f.follow p i = -1) (hj : Visits f p l j)
    (hjend : f.follow p j = -1) : i = j := by
  obtain rfl := Nat.le_antisymm (hj.le_of_ends hjend hi) (hi.le_of_ends hiend hj)
  exact hi.unique hj

/-! ## Circles -/

/-- The walk of a point meets a node again. -/
def Revisits (f : FlowField α) (p : Point) : Prop :=
  ∃ j k i, j < k ∧ Visits f p j i ∧ Visits f p k i

/-- From a node on the walk goes the same way again. -/
theorem Visits.shift {f : FlowField α} {p : Point} {j k n : Nat} {i x : f.dag.Index}
    (hj : Visits f p j i) (hk : Visits f p k i) (hx : Visits f p (j + n) x) :
    Visits f p (k + n) x := by
  induction n generalizing x with
  | zero =>
      obtain rfl := hj.unique hx
      exact hk
  | succ n ih =>
      cases hx with
      | step hv hf => exact (ih hv).step hf

theorem Revisits.exists_visits {f : FlowField α} {p : Point} (h : Revisits f p) (n : Nat) :
    ∃ i, Visits f p n i := by
  obtain ⟨j, k, i, hlt, hj, hk⟩ := h
  -- Going round once more takes at least one more step, so there is no last one.
  have hround : ∀ m, ∃ l, m ≤ l ∧ Visits f p l i := by
    intro m
    induction m with
    | zero => exact ⟨j, Nat.zero_le j, hj⟩
    | succ m ih =>
        obtain ⟨l, hl, hv⟩ := ih
        refine ⟨l + (k - j), by omega, ?_⟩
        exact hj.shift hv (by rwa [Nat.add_sub_cancel' hlt.le])
  obtain ⟨l, hl, hv⟩ := hround n
  exact hv.exists_of_le hl

theorem Revisits.not_ends {f : FlowField α} {p : Point} (h : Revisits f p) {k : Nat}
    {i : f.dag.Index} (hi : Visits f p k i) : f.follow p i ≠ -1 := by
  intro hend
  obtain ⟨j, hj⟩ := h.exists_visits (k + 1)
  have := hi.le_of_ends hend hj
  omega

/-- A walk of as many steps as there are nodes has been at one more node than there are. -/
theorem revisits_of_visits_size {f : FlowField α} {p : Point} {i : f.dag.Index}
    (h : Visits f p f.dag.nodes.size i) : Revisits f p := by
  choose node hnode using fun k : Fin (f.dag.nodes.size + 1) =>
    h.exists_of_le (Nat.le_of_lt_succ k.isLt)
  obtain ⟨j, k, hne, heq⟩ := Fintype.exists_ne_map_eq_of_card_lt node (by simp)
  have hj := hnode j
  have hk := hnode k
  rcases Nat.lt_or_gt_of_ne (Fin.val_ne_of_ne hne) with hlt | hgt
  · exact ⟨j, k, node j, hlt, hj, heq ▸ hk⟩
  · exact ⟨k, j, node j, hgt, heq ▸ hk, hj⟩

theorem not_revisits_of_isAcyclic {f : FlowField α} (h : f.dag.IsAcyclic) (p : Point) :
    ¬ Revisits f p := by
  rintro ⟨j, k, i, hlt, hj, hk⟩
  have hpath : ∀ n x, Visits f p (j + (n + 1)) x → Relation.TransGen
      (fun a b : f.dag.Index =>
        (f.dag.node a).left = (b.val : Int) ∨ (f.dag.node a).right = (b.val : Int)) i x := by
    intro n
    induction n with
    | zero =>
        intro x hx
        cases hx with
        | step hv hf =>
            obtain rfl := hj.unique hv
            unfold follow at hf
            split at hf
            · exact .single (.inl hf)
            · exact .single (.inr hf)
    | succ n ih =>
        intro x hx
        cases hx with
        | step hv hf =>
            unfold follow at hf
            split at hf
            · exact (ih _ hv).tail (.inl hf)
            · exact (ih _ hv).tail (.inr hf)
  obtain ⟨n, rfl⟩ := Nat.exists_eq_add_of_lt hlt
  exact h i (hpath n i hk)

/-! ## The search follows the walk -/

theorem descend_eq_some {f : FlowField α} {p : Point} {n k : Nat} {i : f.dag.Index}
    {found : Option f.mesh.Index} (hi : Visits f p k i) (h : f.descend p n i = some found) :
    ∃ l j, Visits f p l j ∧ f.follow p j = -1 ∧ found = f.answer j p := by
  induction n generalizing k i with
  | zero => contradiction
  | succ n ih =>
      rw [descend] at h
      split at h
      · next j hj => exact ih (hi.step ((f.next?_eq_some_iff p i j).mp hj)) h
      · next hend =>
        exact ⟨k, i, hi, (f.next?_eq_none_iff p i).mp hend, (Option.some.inj h).symm⟩

theorem descend_eq_none {f : FlowField α} {p : Point} {n k : Nat} {i : f.dag.Index}
    (hi : Visits f p k i) (h : f.descend p n i = none) : ∃ j, Visits f p (k + n) j := by
  induction n generalizing k i with
  | zero => exact ⟨i, hi⟩
  | succ n ih =>
      rw [descend] at h
      split at h
      · next j hj =>
        rw [Nat.add_comm n, ← Nat.add_assoc]
        exact ih (hi.step ((f.next?_eq_some_iff p i j).mp hj)) h
      · contradiction

theorem search_of_ends {f : FlowField α} {p : Point} {k : Nat} {i : f.dag.Index}
    (hi : Visits f p k i) (hend : f.follow p i = -1) : f.search p = .ok (f.answer i p) := by
  unfold search
  split
  · next found h =>
    obtain ⟨l, j, hj, hjend, rfl⟩ := descend_eq_some .root h
    rw [hi.unique_of_ends hend hj hjend]
  · next h =>
    obtain ⟨j, hj⟩ := descend_eq_none .root h
    rw [Nat.zero_add] at hj
    exact ((revisits_of_visits_size hj).not_ends hi hend).elim

/-- The search reports nothing but circles, and reports them exactly where the walk has one. -/
theorem search_eq_error_iff {f : FlowField α} {p : Point} {e : MeshError} :
    f.search p = .error e ↔ e = .corrupt (.cycle f.dag.nodes.size) ∧ Revisits f p := by
  unfold search
  split
  · next found h =>
    obtain ⟨l, j, hj, hjend, rfl⟩ := descend_eq_some .root h
    simp only [reduceCtorEq, false_iff, not_and]
    exact fun _ hr => hr.not_ends hj hjend
  · next h =>
    obtain ⟨j, hj⟩ := descend_eq_none .root h
    rw [Nat.zero_add] at hj
    simp only [Except.error.injEq, revisits_of_visits_size hj, and_true]
    exact eq_comm

theorem revisits_iff_never_ends {f : FlowField α} {p : Point} :
    Revisits f p ↔ ∀ k i, Visits f p k i → f.follow p i ≠ -1 := by
  constructor
  · exact fun hr k i hi => hr.not_ends hi
  · intro h
    cases hd : f.descend p f.dag.nodes.size f.dag.root with
    | none =>
        obtain ⟨j, hj⟩ := descend_eq_none .root hd
        rw [Nat.zero_add] at hj
        exact revisits_of_visits_size hj
    | some found =>
        obtain ⟨l, j, hj, hjend, -⟩ := descend_eq_some .root hd
        exact (h l j hj hjend).elim

/-! ## The bounding box -/

theorem locate_of_contains {f : FlowField α} {p : Point} (h : f.mesh.bounds.contains p = true) :
    f.locate p = match f.search p with
      | .ok (some t) => .ok t
      | .ok none => .error (.outside p)
      | .error e => .error e :=
  if_pos h

theorem locate_of_not_contains {f : FlowField α} {p : Point}
    (h : ¬ f.mesh.bounds.contains p = true) : f.locate p = .error (.outside p) :=
  if_neg h

/-! ## The smallest field -/

/-- A single triangle with a right angle, half a degree in each direction from its middle, whose
three nodes ask about its three sides in turn. -/
def oneTriangle (v : Velocity α) : FlowField α where
  mesh :=
    { vertices := #[⟨0, 0⟩, ⟨1000000, 0⟩, ⟨0, 1000000⟩]
      depths := none
      triangles := #[⟨#v[0, 1, 2], #v[-1, -1, -1]⟩]
      velocities := #[v]
      bounds := ⟨0, 0, 1000000, 1000000⟩
      vertices_pos := by decide
      triangles_pos := by decide
      depths_size := by simp
      velocities_size := rfl
      isWithin := by simp [Triangle.IsWithin] }
  dag :=
    { nodes := #[⟨0, 1, -1⟩, ⟨1, 2, -1⟩, ⟨2, -1, -1⟩]
      nodes_pos := by decide
      child_range := by simp [LocationNode.child] }
  segment_lt := by simp

theorem onLeft_oneTriangle_inside (v : Velocity α) (i : (oneTriangle v).dag.Index) :
    (oneTriangle v).onLeft i ⟨100000, 100000⟩ = true := by
  -- No side depends on the velocity, so that a triangle without one can be evaluated instead.
  have hunit : ∀ i, (oneTriangle (⟨(), ()⟩ : Velocity Unit)).onLeft i ⟨100000, 100000⟩ = true := by
    decide +kernel
  exact hunit i

theorem follow_oneTriangle_inside (v : Velocity α) (i : (oneTriangle v).dag.Index) :
    (oneTriangle v).follow ⟨100000, 100000⟩ i = ((oneTriangle v).dag.node i).left := by
  have hchild := (oneTriangle v).follow_eq_child ⟨100000, 100000⟩ i
  rw [onLeft_oneTriangle_inside] at hchild
  exact hchild

theorem visits_oneTriangle_inside {v : Velocity α} :
    Visits (oneTriangle v) ⟨100000, 100000⟩ 2 ⟨2, Nat.lt_succ_self 2⟩ := by
  have hone : Visits (oneTriangle v) ⟨100000, 100000⟩ 1 ⟨1, Nat.one_lt_succ_succ 1⟩ :=
    Visits.root.step (follow_oneTriangle_inside v _)
  exact hone.step (follow_oneTriangle_inside v _)

theorem sample_oneTriangle_inside {v : Velocity α} :
    (oneTriangle v).sample ⟨100000, 100000⟩ = .ok v := by
  have hin : (oneTriangle v).mesh.bounds.contains ⟨100000, 100000⟩ = true := by
    change Rect.contains ⟨0, 0, 1000000, 1000000⟩ ⟨100000, 100000⟩ = true
    decide
  have hanswer : (oneTriangle v).answer ⟨2, Nat.lt_succ_self 2⟩ ⟨100000, 100000⟩ =
      some ((oneTriangle v).triangleAt ⟨2, Nat.lt_succ_self 2⟩) :=
    if_pos (onLeft_oneTriangle_inside v _)
  have hfound := search_of_ends visits_oneTriangle_inside (follow_oneTriangle_inside v _)
  have honly : ∀ t : Fin 1, (oneTriangle v).mesh.velocity t = v := by
    intro t
    obtain rfl := Subsingleton.elim t 0
    rfl
  rw [sample, locate_of_contains hin, hfound, hanswer]
  exact congrArg Except.ok (honly _)

end FlowField

end CurrentDrift
