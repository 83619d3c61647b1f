import CurrentDrift.Proofs.Mesh.Depth
import Mathlib.Data.List.Chain
import Mathlib.Data.Set.Card

/-! # The worklist of the search for the depth

The search for the depth is a loop over a stack. A round takes the entry on top, and if its node is
a new one, marks the node and stacks up what follows it. The table may lead in circles. Main
statement: the loop ends after as many rounds as entries were stacked up. It has then marked the
nodes behind the root and no others, each of them once, and the depth is the number of nodes on a
path from the root that comes by no node twice. -/

namespace CurrentDrift

namespace LocationDag

variable {d : LocationDag}

/-! ## Paths without repetition -/

/-- The nodes on a path from the root that comes by no node twice. -/
structure IsSimplePath (d : LocationDag) (path : List d.Index) : Prop where
  begins : path.head? = some d.root
  follows : path.IsChain d.Follows
  nodup : path.Nodup

/-- The nodes on a path from the root up to a node, each of them once. The node itself is not
counted among them and may be one of them all the same. -/
structure IsPathTo (d : LocationDag) (path : List d.Index) (i : d.Index) : Prop where
  begins : (path ++ [i]).head? = some d.root
  follows : (path ++ [i]).IsChain d.Follows
  nodup : path.Nodup

theorem isPathTo_root : d.IsPathTo [] d.root where
  begins := rfl
  follows := .singleton _
  nodup := .nil

theorem IsPathTo.reaches {path : List d.Index} {i : d.Index} (h : d.IsPathTo path i) :
    d.Reaches d.root i := by
  cases path with
  | nil =>
      obtain rfl : i = d.root := Option.some.inj h.begins
      exact .refl
  | cons first path =>
      obtain rfl : first = d.root := Option.some.inj h.begins
      exact List.relationReflTransGen_of_exists_isChain_cons (path ++ [i]) h.follows (by simp)

theorem IsPathTo.isSimplePath {path : List d.Index} {i : d.Index} (h : d.IsPathTo path i)
    (hi : i ∉ path) : d.IsSimplePath (path ++ [i]) where
  begins := h.begins
  follows := h.follows
  nodup := by
    rw [List.nodup_append]
    refine ⟨h.nodup, List.nodup_singleton i, ?_⟩
    rintro j hj k hk rfl
    exact hi (List.mem_singleton.mp hk ▸ hj)

theorem IsPathTo.snoc {path : List d.Index} {i j : d.Index} (h : d.IsPathTo path i)
    (hi : i ∉ path) (hj : d.Follows i j) : d.IsPathTo (path ++ [i]) j where
  begins := by
    rw [List.head?_append, h.begins]
    rfl
  follows := by
    refine List.isChain_append.mpr ⟨h.follows, .singleton j, ?_⟩
    simpa using hj
  nodup := (h.isSimplePath hi).nodup

theorem IsSimplePath.length_pos {path : List d.Index} (h : d.IsSimplePath path) :
    0 < path.length := by
  cases path with
  | nil => exact absurd h.begins (by simp)
  | cons first path => exact Nat.succ_pos _

/-! ## Rounds of the loop -/

theorem length_successors_le (d : LocationDag) (i : d.Index) (depth : Nat) :
    (d.successors i depth).length ≤ 2 := by
  have hright : (d.next? i false).toList.length ≤ 1 := Option.length_toList_le
  have hleft : (d.next? i true).toList.length ≤ 1 := Option.length_toList_le
  rw [successors, List.length_map, List.length_append]
  omega

namespace Worklist

variable {w w' : Worklist d}

/-- So many rounds one after another. -/
def afterRounds? : Nat → Worklist d → Option (Worklist d)
  | 0, w => some w
  | k + 1, w => w.step?.bind (afterRounds? k)

/-- What holds at first and is kept by every round holds after any number of them. -/
theorem afterRounds?_induction {p : Nat → Worklist d → Prop} (hw : p 0 w)
    (hstep : ∀ k v v', p k v → v.step? = some v' → p (k + 1) v') {k : Nat}
    (h : w.afterRounds? k = some w') : p k w' := by
  induction k generalizing w p with
  | zero => exact Option.some.inj h ▸ hw
  | succ k ih =>
      obtain ⟨next, hnext, hrest⟩ := Option.bind_eq_some_iff.mp h
      exact ih (p := fun j => p (j + 1)) (hstep 0 w next hw hnext) (fun j => hstep (j + 1)) hrest

/-- Every round takes an entry from the stack. -/
theorem stack_length_of_step? (h : w.step? = some w') :
    w'.stack.length + 1 + w.pushes = w.stack.length + w'.pushes := by
  obtain ⟨i, depth, stack, hstack, ⟨-, rfl⟩ | ⟨-, rfl⟩⟩ := step?_eq_some_iff.mp h
  · simp only [skip, hstack, List.length_cons]
  · simp only [visit, hstack, List.length_cons, List.length_append]
    omega

theorem stack_length_of_afterRounds? {k : Nat} (h : w.afterRounds? k = some w') :
    w'.stack.length + k + w.pushes = w.stack.length + w'.pushes := by
  refine afterRounds?_induction (p := fun k v =>
    v.stack.length + k + w.pushes = w.stack.length + v.pushes) rfl (fun k v v' hv hstep => ?_) h
  have := stack_length_of_step? hstep
  omega

theorem deepest_of_afterRounds? {k : Nat} (h : w.afterRounds? k = some w') :
    d.deepest w'.visited w'.found w'.stack = d.deepest w.visited w.found w.stack :=
  afterRounds?_induction (p := fun _ v =>
      d.deepest v.visited v.found v.stack = d.deepest w.visited w.found w.stack) rfl
    (fun _ _ _ hv hstep => (deepest_of_step? hstep).trans hv) h

theorem run_of_step? (h : w.step? = some w') : w'.run = w.run := by
  conv => rhs; rw [run]
  split
  · next v hv => rw [Option.some.inj (h.symm.trans hv)]
  · next hend =>
    rw [h] at hend
    contradiction

theorem run_of_afterRounds? {k : Nat} (h : w.afterRounds? k = some w') : w'.run = w.run :=
  afterRounds?_induction (p := fun _ v => v.run = w.run) rfl
    (fun _ _ _ hv hstep => (run_of_step? hstep).trans hv) h

theorem step?_run (w : Worklist d) : w.run.step? = none := by
  fun_induction run w with
  | case1 w w' hstep ih => exact ih
  | case2 w hstep => exact hstep

/-- The loop ends after some number of rounds. -/
theorem exists_afterRounds? (w : Worklist d) : ∃ k, w.afterRounds? k = some w.run := by
  fun_induction run w with
  | case1 w w' hstep ih =>
    obtain ⟨k, hrounds⟩ := ih
    exact ⟨k + 1, Option.bind_eq_some_iff.mpr ⟨w', hstep, hrounds⟩⟩
  | case2 w hstep => exact ⟨0, rfl⟩

/-! ## What every round keeps -/

/-- A node is marked or stacked up. -/
def Meets (w : Worklist d) (i : d.Index) : Prop := i ∈ w.marks ∨ ∃ depth, (i, depth) ∈ w.stack

/-- What holds of the marks and the stack between two rounds. -/
structure IsSound (w : Worklist d) : Prop where
  visited_iff : ∀ i, w.visited.get i = true ↔ i ∈ w.marks
  nodup : w.marks.Nodup
  reaches : ∀ i ∈ w.marks, d.Reaches d.root i
  /-- An entry comes with the length of a path over marked nodes. -/
  stacked : ∀ e ∈ w.stack, ∃ path ⊆ w.marks, d.IsPathTo path e.1 ∧ path.length + 1 = e.2
  /-- The depth found so far is the length of a path over marked nodes. -/
  measured : w.marks ≠ [] → ∃ path ⊆ w.marks, d.IsSimplePath path ∧ path.length = w.found
  unmeasured : w.marks = [] → w.found = 0
  meets_root : w.Meets d.root
  meets_next : ∀ i ∈ w.marks, ∀ j, d.Follows i j → w.Meets j
  pushes_le : w.pushes ≤ 1 + 2 * w.marks.length

theorem isSound_start (d : LocationDag) : (start d).IsSound where
  visited_iff i := by
    have hnew : (start d).visited.get i = false := Vector.getElem_replicate i.isLt
    rw [hnew]
    exact ⟨fun h => by contradiction, fun h => by contradiction⟩
  nodup := .nil
  reaches i hi := by contradiction
  stacked e he := by
    obtain rfl := List.mem_singleton.mp he
    exact ⟨[], List.nil_subset _, isPathTo_root, rfl⟩
  measured h := absurd rfl h
  unmeasured _ := rfl
  meets_root := .inr ⟨1, List.mem_singleton_self _⟩
  meets_next i hi := by contradiction
  pushes_le := le_rfl

variable {i : d.Index} {depth : Nat} {stack : List (d.Index × Nat)}

theorem Meets.skip (hstack : w.stack = (i, depth) :: stack) (hi : i ∈ w.marks) {j : d.Index}
    (h : w.Meets j) : (w.skip stack).Meets j := by
  rcases h with hj | ⟨n, hj⟩
  · exact .inl hj
  · rw [hstack] at hj
    rcases List.mem_cons.mp hj with heq | hj
    · obtain ⟨rfl, -⟩ := Prod.mk.inj heq
      exact .inl hi
    · exact .inr ⟨n, hj⟩

theorem Meets.visit (hstack : w.stack = (i, depth) :: stack) {j : d.Index} (h : w.Meets j) :
    (w.visit i depth stack).Meets j := by
  rcases h with hj | ⟨n, hj⟩
  · exact .inl (List.mem_cons_of_mem i hj)
  · rw [hstack] at hj
    rcases List.mem_cons.mp hj with heq | hj
    · obtain ⟨rfl, -⟩ := Prod.mk.inj heq
      exact .inl List.mem_cons_self
    · exact .inr ⟨n, List.mem_append_right _ hj⟩

theorem visited_visit {j : d.Index} :
    (w.visit i depth stack).visited.get j = true ↔ j = i ∨ w.visited.get j = true := by
  have hset : (w.visit i depth stack).visited.get j = false ↔ i ≠ j ∧ w.visited.get j = false :=
    unvisited_set
  rw [← not_iff_not, Bool.not_eq_true, hset, not_or, Bool.not_eq_true, ne_comm]

theorem IsSound.skip (h : w.IsSound) (hstack : w.stack = (i, depth) :: stack)
    (hi : w.visited.get i = true) : (w.skip stack).IsSound :=
  { h with
    stacked := fun e he => h.stacked e (hstack ▸ List.mem_cons_of_mem _ he)
    meets_root := h.meets_root.skip hstack ((h.visited_iff i).mp hi)
    meets_next := fun j hj k hk => (h.meets_next j hj k hk).skip hstack ((h.visited_iff i).mp hi) }

theorem IsSound.visit (h : w.IsSound) (hstack : w.stack = (i, depth) :: stack)
    (hi : w.visited.get i = false) : (w.visit i depth stack).IsSound := by
  have hnew : i ∉ w.marks := fun hmem => by
    rw [(h.visited_iff i).mpr hmem] at hi
    contradiction
  obtain ⟨path, hpath, hto, hlength⟩ := h.stacked (i, depth) (hstack ▸ List.mem_cons_self)
  have hi' : i ∉ path := fun hmem => hnew (hpath hmem)
  have hpath' : path ++ [i] ⊆ i :: w.marks := by
    intro j hj
    rcases List.mem_append.mp hj with hj | hj
    · exact List.mem_cons_of_mem i (hpath hj)
    · exact List.mem_singleton.mp hj ▸ List.mem_cons_self
  have hlength' : (path ++ [i]).length = depth := by
    rw [List.length_append, List.length_singleton]
    exact hlength
  constructor
  case visited_iff =>
    intro j
    rw [visited_visit, h.visited_iff]
    exact List.mem_cons.symm
  case nodup => exact List.nodup_cons.mpr ⟨hnew, h.nodup⟩
  case reaches =>
    intro j hj
    rcases List.mem_cons.mp hj with rfl | hj
    · exact hto.reaches
    · exact h.reaches j hj
  case stacked =>
    intro e he
    rcases List.mem_append.mp he with he | he
    · obtain ⟨hfollows, hdepth⟩ := mem_successors.mp he
      exact ⟨path ++ [i], hpath', hto.snoc hi' hfollows, by rw [hlength', hdepth]⟩
    · obtain ⟨path, hpath, hto, hlength⟩ := h.stacked e (hstack ▸ List.mem_cons_of_mem _ he)
      exact ⟨path, fun j hj => List.mem_cons_of_mem i (hpath hj), hto, hlength⟩
  case measured =>
    intro _
    -- Before the first mark nothing is found, and the entry goes deeper than that.
    rcases max_choice w.found depth with hfound | hdepth
    · obtain ⟨path, hpath, hsimple, hlength⟩ := h.measured (fun hnil => by
        have := h.unmeasured hnil
        omega)
      exact ⟨path, fun j hj => List.mem_cons_of_mem i (hpath hj), hsimple,
        hlength.trans hfound.symm⟩
    · exact ⟨path ++ [i], hpath', hto.isSimplePath hi', hlength'.trans hdepth.symm⟩
  case unmeasured => exact fun hnil => absurd hnil (List.cons_ne_nil _ _)
  case meets_root => exact h.meets_root.visit hstack
  case meets_next =>
    intro j hj k hk
    rcases List.mem_cons.mp hj with rfl | hj
    · exact .inr ⟨depth + 1, List.mem_append_left _ (mem_successors.mpr ⟨hk, rfl⟩)⟩
    · exact (h.meets_next j hj k hk).visit hstack
  case pushes_le =>
    have := h.pushes_le
    have := length_successors_le d i depth
    simp only [Worklist.visit, List.length_cons]
    omega

theorem IsSound.of_step? (h : w.IsSound) (hstep : w.step? = some w') : w'.IsSound := by
  obtain ⟨i, depth, stack, hstack, ⟨hi, rfl⟩ | ⟨hi, rfl⟩⟩ := step?_eq_some_iff.mp hstep
  · exact h.skip hstack hi
  · exact h.visit hstack hi

theorem IsSound.of_afterRounds? (h : w.IsSound) {k : Nat} (hrounds : w.afterRounds? k = some w') :
    w'.IsSound :=
  afterRounds?_induction (p := fun _ => IsSound) h (fun _ _ _ => IsSound.of_step?) hrounds

/-! ## The end of the loop -/

theorem IsSound.mem_marks_iff (h : w.IsSound) (hstack : w.stack = []) {i : d.Index} :
    i ∈ w.marks ↔ d.Reaches d.root i := by
  have hmarked : ∀ j, w.Meets j → j ∈ w.marks := by
    rintro j (hj | ⟨n, hj⟩)
    · exact hj
    · rw [hstack] at hj
      contradiction
  refine ⟨h.reaches i, fun hreaches => ?_⟩
  induction hreaches with
  | refl => exact hmarked _ h.meets_root
  | tail _ hfollows ih => exact hmarked _ (h.meets_next _ ih _ hfollows)

theorem IsSound.ncard_reaches (h : w.IsSound) (hstack : w.stack = []) :
    {i | d.Reaches d.root i}.ncard = w.marks.length := by
  have heq : {i | d.Reaches d.root i} = (w.marks.toFinset : Set d.Index) := by
    ext i
    simp [h.mem_marks_iff hstack]
  rw [heq, Set.ncard_coe_finset, List.toFinset_card_of_nodup h.nodup]

end Worklist

/-- The search for the depth ends on every table. Its loop, which goes on to find the depth after
every round, takes as many rounds as entries are stacked up, at most two for each node behind the
root besides the first entry. Each node that can be reached from the root is marked once, and no
other node is. The depth is the number of nodes on a path from the root without repetition, and so
at least one and at most the number of these nodes. -/
theorem depth_worklist (d : LocationDag) :
    (∀ k w, (Worklist.start d).afterRounds? k = some w → w.run = (Worklist.start d).run ∧
      d.deepest w.visited w.found w.stack = d.depth) ∧
    (∃ w : Worklist d, (Worklist.start d).run = w ∧
      (Worklist.start d).afterRounds? w.pushes = some w ∧ w.step? = none ∧
      w.found = d.depth ∧
      w.marks.Nodup ∧ (∀ i, i ∈ w.marks ↔ d.Reaches d.root i) ∧
      (∀ i, w.visited.get i = true ↔ d.Reaches d.root i) ∧
      w.pushes ≤ 1 + 2 * {i | d.Reaches d.root i}.ncard) ∧
    (∃ path, d.IsSimplePath path ∧ path.length = d.depth) ∧
    1 ≤ d.depth ∧ d.depth ≤ {i | d.Reaches d.root i}.ncard := by
  have hrest : ∀ k w, (Worklist.start d).afterRounds? k = some w →
      w.run = (Worklist.start d).run ∧ d.deepest w.visited w.found w.stack = d.depth := by
    intro k w hw
    rw [depth_eq_deepest]
    exact ⟨Worklist.run_of_afterRounds? hw, Worklist.deepest_of_afterRounds? hw⟩
  obtain ⟨k, hrounds⟩ := (Worklist.start d).exists_afterRounds?
  have hend := (Worklist.start d).step?_run
  have hfound : (Worklist.start d).run.found = d.depth := rfl
  generalize (Worklist.start d).run = w at hrest hrounds hend hfound ⊢
  have hstack := Worklist.step?_eq_none_iff.mp hend
  have hsound := (Worklist.isSound_start d).of_afterRounds? hrounds
  have hmarks : ∀ i, i ∈ w.marks ↔ d.Reaches d.root i := fun i => hsound.mem_marks_iff hstack
  have hcard := hsound.ncard_reaches hstack
  have hpushes : k = w.pushes := by
    have := Worklist.stack_length_of_afterRounds? hrounds
    simp only [hstack, List.length_nil, Worklist.start, List.length_singleton] at this
    omega
  obtain ⟨path, hpath, hsimple, hlength⟩ :=
    hsound.measured (List.ne_nil_of_mem ((hmarks d.root).mpr .refl))
  rw [hfound] at hlength
  refine ⟨hrest, ⟨w, rfl, hpushes ▸ hrounds, hend, hfound,
    hsound.nodup, hmarks, fun i => (hsound.visited_iff i).trans (hmarks i),
    hcard ▸ hsound.pushes_le⟩, ⟨path, hsimple, hlength⟩, hlength ▸ hsimple.length_pos, ?_⟩
  rw [hcard, ← hlength]
  exact (List.subperm_of_subset hsimple.nodup hpath).length_le

end LocationDag

end CurrentDrift
