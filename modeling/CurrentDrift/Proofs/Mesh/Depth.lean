import CurrentDrift.Proofs.Mesh.Descent
import Mathlib.Order.Bounds.Basic

/-! # The depth of a location graph

The depth is found by a search that meets each node once and turns right first. Where paths come
together again, the node behind counts where the first of them meets it, which need not be where it
lies deepest. Main statement: the depth of an acyclic graph is the number of nodes on its longest
rightmost path, one that turns right wherever it can reach its end on the right. If no two paths
come together this is the longest path, and no search takes more nodes. -/

namespace CurrentDrift

namespace LocationDag

variable {d : LocationDag}

/-! ## Paths -/

/-- A node names another one to go on with. -/
def Follows (d : LocationDag) (i j : d.Index) : Prop :=
  (d.node i).left = (j.val : Int) ∨ (d.node i).right = (j.val : Int)

/-- Some answers on the way, or none, lead from a node to another one. -/
def Reaches (d : LocationDag) (i j : d.Index) : Prop := Relation.ReflTransGen d.Follows i j

/-- A path of so many nodes from one node to another. -/
inductive Path (d : LocationDag) : Nat → d.Index → d.Index → Prop where
  | single (i : d.Index) : Path d 1 i i
  | cons {n i j k} : d.Follows i j → Path d n j k → Path d (n + 1) i k

/-- A path that turns left only where its end cannot be reached on the right. -/
inductive RightmostPath (d : LocationDag) : Nat → d.Index → d.Index → Prop where
  | single (i : d.Index) : RightmostPath d 1 i i
  | right {n i j k} : (d.node i).right = (j.val : Int) → RightmostPath d n j k →
      RightmostPath d (n + 1) i k
  | left {n i j k} : (d.node i).left = (j.val : Int) →
      (∀ r : d.Index, (d.node i).right = (r.val : Int) → ¬ d.Reaches r k) →
      RightmostPath d n j k → RightmostPath d (n + 1) i k

theorem Path.reaches {n : Nat} {i k : d.Index} (h : d.Path n i k) : d.Reaches i k := by
  induction h with
  | single i => exact .refl
  | cons hfollows _ ih => exact .head hfollows ih

theorem Path.pos {n : Nat} {i k : d.Index} (h : d.Path n i k) : 0 < n := by
  cases h <;> exact Nat.succ_pos _

theorem Path.snoc {n : Nat} {i j k : d.Index} (h : d.Path n i j) (hk : d.Follows j k) :
    d.Path (n + 1) i k := by
  induction h with
  | single i => exact .cons hk (.single k)
  | cons hfollows _ ih => exact .cons hfollows (ih hk)

theorem RightmostPath.path {n : Nat} {i k : d.Index} (h : d.RightmostPath n i k) :
    d.Path n i k := by
  induction h with
  | single i => exact .single i
  | right hright _ ih => exact .cons (.inr hright) ih
  | left hleft _ _ ih => exact .cons (.inl hleft) ih

theorem next?_eq_some_iff {i j : d.Index} {onLeft : Bool} :
    d.next? i onLeft = some j ↔ (d.node i).child onLeft = (j.val : Int) := by
  rw [next?]
  split
  · next h =>
    simp only [Option.some.injEq, Fin.ext_iff]
    omega
  · next h =>
    simp only [reduceCtorEq, false_iff]
    omega

theorem follows_iff {i j : d.Index} :
    d.Follows i j ↔ d.next? i false = some j ∨ d.next? i true = some j := by
  rw [next?_eq_some_iff, next?_eq_some_iff, or_comm]
  rfl

theorem follows_iff_exists {i j : d.Index} :
    d.Follows i j ↔ ∃ onLeft, d.next? i onLeft = some j := by
  rw [follows_iff, Bool.exists_bool]

theorem mem_successors {i : d.Index} {depth : Nat} {e : d.Index × Nat} :
    e ∈ d.successors i depth ↔ d.Follows i e.1 ∧ e.2 = depth + 1 := by
  obtain ⟨j, n⟩ := e
  simp only [successors, List.mem_map, List.mem_append, Option.mem_toList, Prod.mk.injEq,
    follows_iff]
  constructor
  · rintro ⟨j', hj', rfl, rfl⟩
    exact ⟨hj', rfl⟩
  · rintro ⟨hj, rfl⟩
    exact ⟨j, hj, rfl, rfl⟩

/-- A path that does not end where it begins goes on in one of two ways. -/
theorem reaches_iff_of_ne {i k : d.Index} (h : i ≠ k) :
    d.Reaches i k ↔ ∃ j, d.Follows i j ∧ d.Reaches j k := by
  constructor
  · intro hreaches
    rcases hreaches.cases_head with rfl | ⟨j, hj, hjk⟩
    · contradiction
    · exact ⟨j, hj, hjk⟩
  · rintro ⟨j, hj, hjk⟩
    exact .head hj hjk

theorem isAcyclic_of_lt (h : ∀ i j, d.Follows i j → i < j) : d.IsAcyclic := by
  have hbehind : ∀ i j, Relation.TransGen d.Follows i j → i < j := by
    intro i j hij
    induction hij with
    | single hj => exact h _ _ hj
    | tail _ hj ih => exact ih.trans (h _ _ hj)
  exact fun i hi => (hbehind i i hi).false

theorem IsAcyclic.not_reaches (h : d.IsAcyclic) {i j : d.Index} (hj : d.Follows i j) :
    ¬ d.Reaches j i :=
  fun hreaches => h i (.head' hj hreaches)

theorem RightmostPath.eq_one (h : d.IsAcyclic) {n : Nat} {i : d.Index}
    (hpath : d.RightmostPath n i i) : n = 1 := by
  cases hpath with
  | single => rfl
  | right hright hrest => exact (h.not_reaches (.inr hright) hrest.path.reaches).elim
  | left hleft _ hrest => exact (h.not_reaches (.inl hleft) hrest.path.reaches).elim

/-! ## The search as a recursion -/

/-- Goes through the nodes that are stacked up with their depths, each node once, and returns the
greatest depth at which a node was first seen. -/
def deepest (d : LocationDag) (visited : Vector Bool d.nodes.size) (found : Nat) :
    List (d.Index × Nat) → Nat
  | [] => found
  | (i, depth) :: stack =>
    if h : visited[i] = true then d.deepest visited found stack
    else d.deepest (visited.set i true) (max found depth) (d.successors i depth ++ stack)
termination_by stack => (visited.count false, stack.length)
decreasing_by
  · exact Prod.Lex.right _ (Nat.lt_succ_self _)
  · exact Prod.Lex.left _ _ (count_false_set_lt visited i h)

theorem Worklist.step?_eq_some_iff {w w' : Worklist d} :
    w.step? = some w' ↔ ∃ i depth stack, w.stack = (i, depth) :: stack ∧
      (w.visited.get i = true ∧ w' = w.skip stack ∨
        w.visited.get i = false ∧ w' = w.visit i depth stack) := by
  unfold step?
  split
  · next h => simp [h]
  · next i depth stack h =>
    constructor
    · intro hstep
      refine ⟨i, depth, stack, h, ?_⟩
      split at hstep
      · next hi => exact .inl ⟨hi, (Option.some.inj hstep).symm⟩
      · next hi => exact .inr ⟨Bool.eq_false_of_not_eq_true hi, (Option.some.inj hstep).symm⟩
    · rintro ⟨i', depth', stack', heq, hcases⟩
      rw [h] at heq
      obtain ⟨⟨rfl, rfl⟩, rfl⟩ : (i = i' ∧ depth = depth') ∧ stack = stack' := by
        simpa only [List.cons.injEq, Prod.mk.injEq] using heq
      rcases hcases with ⟨hi, rfl⟩ | ⟨hi, rfl⟩
      · rw [if_pos hi]
      · rw [if_neg (by rw [hi]; decide)]

theorem Worklist.step?_eq_none_iff {w : Worklist d} : w.step? = none ↔ w.stack = [] := by
  unfold step?
  split
  · next h => simp [h]
  · next h =>
    rw [h]
    split <;> simp

/-- A round is a step of the recursion: what is found from there stays the same. -/
theorem Worklist.deepest_of_step? {w w' : Worklist d} (h : w.step? = some w') :
    d.deepest w'.visited w'.found w'.stack = d.deepest w.visited w.found w.stack := by
  obtain ⟨i, depth, stack, hstack, ⟨hi, rfl⟩ | ⟨hi, rfl⟩⟩ := step?_eq_some_iff.mp h
  · have hold : w.visited[i] = true := hi
    rw [hstack, deepest, dif_pos hold]
    rfl
  · have hnew : ¬ w.visited[i] = true := Bool.eq_false_iff.mp hi
    rw [hstack, deepest, dif_neg hnew]
    rfl

theorem Worklist.found_run (w : Worklist d) :
    w.run.found = d.deepest w.visited w.found w.stack := by
  fun_induction run w with
  | case1 w w' hstep ih => rw [ih, deepest_of_step? hstep]
  | case2 w hstep => rw [step?_eq_none_iff.mp hstep, deepest]

theorem depth_eq_deepest (d : LocationDag) :
    d.depth = d.deepest (Vector.replicate d.nodes.size false) 0 [(d.root, 1)] :=
  Worklist.found_run _

/-! ## What is stacked up -/

/-- The first entry of a stack that leads to a node, followed by the rightmost path from it, puts
the node at a depth. -/
def Puts (d : LocationDag) : List (d.Index × Nat) → d.Index → Nat → Prop
  | [], _, _ => False
  | (i, depth) :: stack, k, n =>
    (∃ l, d.RightmostPath l i k ∧ n + 1 = depth + l) ∨ ¬ d.Reaches i k ∧ d.Puts stack k n

/-- What a node that has been visited leads to and has not been visited yet can be reached from the
entries on top of the stack, which all are behind that node. -/
def IsOrdered (d : LocationDag) (visited : Vector Bool d.nodes.size)
    (stack : List (d.Index × Nat)) : Prop :=
  ∀ i : d.Index, visited.get i = true → ∃ above below, stack = above ++ below ∧
    (∀ e ∈ above, Relation.TransGen d.Follows i e.1) ∧
    ∀ k : d.Index, visited.get k = false → d.Reaches i k → ∃ e ∈ above, d.Reaches e.1 k

theorem unvisited_set {visited : Vector Bool d.nodes.size} {i k : d.Index} :
    (visited.set i true i.isLt).get k = false ↔ i ≠ k ∧ visited.get k = false := by
  have hget : (visited.set i true i.isLt).get k = if i.val = k.val then true else visited.get k :=
    Vector.getElem_set i.isLt k.isLt
  simp only [hget, Fin.val_inj]
  split
  · next h => simp [h]
  · next h => simp [h]

namespace IsOrdered

variable {visited : Vector Bool d.nodes.size} {i : d.Index} {depth : Nat}
  {stack : List (d.Index × Nat)}

theorem not_reaches (hacyclic : d.IsAcyclic) (h : d.IsOrdered visited ((i, depth) :: stack))
    (hi : visited.get i = true) {k : d.Index} (hk : visited.get k = false) : ¬ d.Reaches i k := by
  intro hreaches
  obtain ⟨above, below, hstack, habove, hunvisited⟩ := h i hi
  obtain ⟨e, he, -⟩ := hunvisited k hk hreaches
  cases above with
  | nil => contradiction
  | cons top above =>
      obtain ⟨rfl, -⟩ := List.cons.inj hstack
      exact hacyclic i (habove _ List.mem_cons_self)

theorem skip (hacyclic : d.IsAcyclic) (h : d.IsOrdered visited ((i, depth) :: stack))
    (hi : visited.get i = true) : d.IsOrdered visited stack := by
  intro j hj
  obtain ⟨above, below, hstack, habove, hunvisited⟩ := h j hj
  cases above with
  | nil =>
      refine ⟨[], stack, rfl, by simp, fun k hk hjk => ?_⟩
      obtain ⟨e, he, -⟩ := hunvisited k hk hjk
      contradiction
  | cons top above =>
      obtain ⟨rfl, rfl⟩ := List.cons.inj hstack
      refine ⟨above, below, rfl, fun e he => habove e (List.mem_cons_of_mem _ he),
        fun k hk hjk => ?_⟩
      obtain ⟨e, he, hek⟩ := hunvisited k hk hjk
      rcases List.mem_cons.mp he with rfl | he
      · exact (h.not_reaches hacyclic hi hk hek).elim
      · exact ⟨e, he, hek⟩

theorem visit (h : d.IsOrdered visited ((i, depth) :: stack)) :
    d.IsOrdered (visited.set i true i.isLt) (d.successors i depth ++ stack) := by
  have hset : ∀ k : d.Index, (visited.set i true i.isLt).get k = false →
      i ≠ k ∧ visited.get k = false :=
    fun k => unvisited_set.mp
  -- What the node itself leads to is behind one of its successors.
  have hbehind : ∀ k : d.Index, (visited.set i true i.isLt).get k = false → d.Reaches i k →
      ∃ e ∈ d.successors i depth, d.Reaches e.1 k := by
    intro k hk hik
    obtain ⟨j, hj, hjk⟩ := (reaches_iff_of_ne (hset k hk).1).mp hik
    exact ⟨(j, depth + 1), mem_successors.mpr ⟨hj, rfl⟩, hjk⟩
  intro j hj
  by_cases hji : j = i
  · subst hji
    exact ⟨d.successors j depth, stack, rfl,
      fun e he => .single (mem_successors.mp he).1, hbehind⟩
  · have hold : visited.get j = true := by
      by_contra hnew
      have := unvisited_set.mpr ⟨Ne.symm hji, Bool.eq_false_of_not_eq_true hnew⟩
      simp [hj] at this
    obtain ⟨above, below, hstack, habove, hunvisited⟩ := h j hold
    cases above with
    | nil =>
        refine ⟨[], _, rfl, by simp, fun k hk hjk => ?_⟩
        obtain ⟨e, he, -⟩ := hunvisited k (hset k hk).2 hjk
        contradiction
    | cons top above =>
        obtain ⟨rfl, rfl⟩ := List.cons.inj hstack
        refine ⟨d.successors i depth ++ above, below, (List.append_assoc ..).symm,
          fun e he => ?_, fun k hk hjk => ?_⟩
        · rcases List.mem_append.mp he with he | he
          · exact (habove _ List.mem_cons_self).tail (mem_successors.mp he).1
          · exact habove e (List.mem_cons_of_mem _ he)
        · obtain ⟨e, he, hek⟩ := hunvisited k (hset k hk).2 hjk
          rcases List.mem_cons.mp he with rfl | he
          · obtain ⟨e, he, hek⟩ := hbehind k hk hek
            exact ⟨e, List.mem_append_left above he, hek⟩
          · exact ⟨e, List.mem_append_right _ he, hek⟩

end IsOrdered

/-! ## Steps of the search -/

theorem puts_of_not_reaches {i k : d.Index} {depth n : Nat} {stack : List (d.Index × Nat)}
    (h : ¬ d.Reaches i k) : d.Puts ((i, depth) :: stack) k n ↔ d.Puts stack k n := by
  simp only [Puts, h, not_false_eq_true, true_and, or_iff_right_iff_imp]
  rintro ⟨l, hpath, -⟩
  exact (h hpath.path.reaches).elim

theorem puts_self (hacyclic : d.IsAcyclic) {i : d.Index} {depth n : Nat}
    {stack : List (d.Index × Nat)} : d.Puts ((i, depth) :: stack) i n ↔ n = depth := by
  constructor
  · rintro (⟨l, hpath, hn⟩ | ⟨hnot, -⟩)
    · obtain rfl := hpath.eq_one hacyclic
      omega
    · exact (hnot .refl).elim
  · rintro rfl
    exact .inl ⟨1, .single i, rfl⟩

/-- The entry of one of the two successors, if there is this one, above the rest of a stack. -/
theorem puts_toList {next : Option d.Index} {k : d.Index} {depth n : Nat}
    {stack : List (d.Index × Nat)} :
    d.Puts (next.toList.map (fun j => (j, depth)) ++ stack) k n ↔
      (∃ j l, next = some j ∧ d.RightmostPath l j k ∧ n + 1 = depth + l) ∨
        (∀ j, next = some j → ¬ d.Reaches j k) ∧ d.Puts stack k n := by
  cases next with
  | none => simp
  | some j => simp [Puts]

/-- The successors of a node put what is behind it where the node itself does. -/
theorem puts_successors {i k : d.Index} (hne : i ≠ k) {depth n : Nat}
    {stack : List (d.Index × Nat)} :
    d.Puts (d.successors i depth ++ stack) k n ↔ d.Puts ((i, depth) :: stack) k n := by
  rw [successors, List.map_append, List.append_assoc, puts_toList, puts_toList, Puts,
    reaches_iff_of_ne hne]
  simp only [follows_iff]
  constructor
  · rintro (⟨j, l, hj, hpath, hn⟩ | ⟨hright, ⟨j, l, hj, hpath, hn⟩ | ⟨hleft, hputs⟩⟩)
    · exact .inl ⟨l + 1, .right (next?_eq_some_iff.mp hj) hpath, by omega⟩
    · exact .inl ⟨l + 1, .left (next?_eq_some_iff.mp hj)
        (fun r hr => hright r (next?_eq_some_iff.mpr hr)) hpath, by omega⟩
    · refine .inr ⟨?_, hputs⟩
      rintro ⟨j, hj | hj, hjk⟩
      · exact hright j hj hjk
      · exact hleft j hj hjk
  · rintro (⟨l, hpath, hn⟩ | ⟨hnot, hputs⟩)
    · cases hpath with
      | single => contradiction
      | @right l _ j _ hj hpath =>
          exact .inl ⟨j, l, next?_eq_some_iff.mpr hj, hpath, by omega⟩
      | @left l _ j _ hj hright hpath =>
          exact .inr ⟨fun r hr => hright r (next?_eq_some_iff.mp hr),
            .inl ⟨j, l, next?_eq_some_iff.mpr hj, hpath, by omega⟩⟩
    · exact .inr ⟨fun j hj hjk => hnot ⟨j, .inl hj, hjk⟩,
        .inr ⟨fun j hj hjk => hnot ⟨j, .inr hj, hjk⟩, hputs⟩⟩

/-- The search finds the greatest depth at which the stack puts a node that has not been visited. -/
theorem isGreatest_deepest (hacyclic : d.IsAcyclic) {visited : Vector Bool d.nodes.size}
    (found : Nat) {stack : List (d.Index × Nat)} (h : d.IsOrdered visited stack) :
    IsGreatest {n | n = found ∨ ∃ k : d.Index, visited.get k = false ∧ d.Puts stack k n}
      (d.deepest visited found stack) := by
  fun_induction d.deepest visited found stack with
  | case1 visited found =>
    constructor
    · exact .inl rfl
    · rintro n (rfl | ⟨k, -, hputs⟩)
      · exact le_rfl
      · exact hputs.elim
  | case2 visited found i depth stack hi ih =>
    have heq :
        {n | n = found ∨ ∃ k : d.Index, visited.get k = false ∧ d.Puts ((i, depth) :: stack) k n} =
          {n | n = found ∨ ∃ k : d.Index, visited.get k = false ∧ d.Puts stack k n} := by
      ext n
      refine or_congr_right (exists_congr fun k => and_congr_right fun hk => ?_)
      exact puts_of_not_reaches (h.not_reaches hacyclic hi hk)
    rw [heq]
    exact ih (h.skip hacyclic hi)
  | case3 visited found i depth stack hi ih =>
    have hi : visited[i] = false := Bool.eq_false_of_not_eq_true hi
    have hputs : ∀ n, (∃ k : d.Index, visited.get k = false ∧ d.Puts ((i, depth) :: stack) k n) ↔
        n = depth ∨ ∃ k : d.Index, (visited.set i true i.isLt).get k = false ∧
          d.Puts (d.successors i depth ++ stack) k n := by
      intro n
      constructor
      · rintro ⟨k, hk, hputs⟩
        by_cases hki : i = k
        · subst hki
          exact .inl ((puts_self hacyclic).mp hputs)
        · exact .inr ⟨k, unvisited_set.mpr ⟨hki, hk⟩, (puts_successors hki).mpr hputs⟩
      · rintro (hn | ⟨k, hk, hputs⟩)
        · exact ⟨i, hi, (puts_self hacyclic).mpr hn⟩
        · obtain ⟨hki, hk⟩ := unvisited_set.mp hk
          exact ⟨k, hk, (puts_successors hki).mp hputs⟩
    obtain ⟨hmem, hgreatest⟩ := ih h.visit
    constructor
    · rcases hmem with hmax | hbehind
      · rcases max_choice found depth with hfound | hdepth
        · exact .inl (hmax.trans hfound)
        · exact .inr ((hputs _).mpr (.inl (hmax.trans hdepth)))
      · exact .inr ((hputs _).mpr (.inr hbehind))
    · rintro n (rfl | hn)
      · exact (le_max_left ..).trans (hgreatest (.inl rfl))
      · rcases (hputs n).mp hn with rfl | hbehind
        · exact (le_max_right ..).trans (hgreatest (.inl rfl))
        · exact hgreatest (.inr hbehind)

theorem isGreatest_depth (hacyclic : d.IsAcyclic) :
    IsGreatest {n | ∃ k, d.RightmostPath n d.root k} d.depth := by
  have hnew : ∀ k, (Vector.replicate d.nodes.size false).get k = false :=
    fun k => Vector.getElem_replicate k.isLt
  have hstart : d.IsOrdered (Vector.replicate d.nodes.size false) [(d.root, 1)] := by
    intro i hi
    rw [hnew] at hi
    contradiction
  have hputs : ∀ k n, d.Puts [(d.root, 1)] k n ↔ d.RightmostPath n d.root k := by
    intro k n
    rw [Puts, Puts, and_false, or_false]
    constructor
    · rintro ⟨l, hpath, hn⟩
      obtain rfl : n = l := by omega
      exact hpath
    · exact fun hpath => ⟨n, hpath, Nat.add_comm n 1⟩
  obtain ⟨hmem, hgreatest⟩ := isGreatest_deepest hacyclic 0 hstart
  rw [← depth_eq_deepest] at hmem hgreatest
  simp only [hputs, hnew, true_and] at hmem hgreatest
  refine ⟨?_, fun n hn => hgreatest (.inr hn)⟩
  rcases hmem with hzero | hpath
  · have : 1 ≤ d.depth := hgreatest (.inr ⟨d.root, .single d.root⟩)
    exact absurd hzero (Nat.ne_of_gt this)
  · exact hpath

/-! ## Graphs without shared nodes -/

/-- No two answers that can be given on the way from the root name the same node. -/
def IsUnshared (d : LocationDag) : Prop :=
  ∀ i j a b k, d.Reaches d.root i → d.Reaches d.root j → d.next? i a = some k →
    d.next? j b = some k → i = j ∧ a = b

theorem IsUnshared.eq_of_follows (h : d.IsUnshared) {i j k : d.Index}
    (hi : d.Reaches d.root i) (hj : d.Reaches d.root j) (hik : d.Follows i k)
    (hjk : d.Follows j k) : i = j := by
  obtain ⟨a, ha⟩ := follows_iff_exists.mp hik
  obtain ⟨b, hb⟩ := follows_iff_exists.mp hjk
  exact (h i j a b k hi hj ha hb).1

/-- Two nodes with something behind both of them lie one behind the other. -/
theorem IsUnshared.reaches_or_reaches (h : d.IsUnshared) {i j k : d.Index}
    (hi : d.Reaches d.root i) (hj : d.Reaches d.root j) (hik : d.Reaches i k)
    (hjk : d.Reaches j k) : d.Reaches i j ∨ d.Reaches j i := by
  induction hjk with
  | refl => exact .inl hik
  | @tail m k hjm hmk ih =>
      rcases hik.cases_tail with rfl | ⟨m', him', hm'k⟩
      · exact .inr (hjm.tail hmk)
      · obtain rfl := h.eq_of_follows (hi.trans him') (hj.trans hjm) hm'k hmk
        exact ih him'

/-- What one successor of a node leads to cannot be reached from the other one. -/
theorem IsUnshared.not_reaches (h : d.IsUnshared) (hacyclic : d.IsAcyclic) {i j r k : d.Index}
    (hi : d.Reaches d.root i) (hj : d.Follows i j) (hr : d.Follows i r) (hne : j ≠ r)
    (hjk : d.Reaches j k) : ¬ d.Reaches r k := by
  intro hrk
  -- If the one lay behind the other, the node before it would be `i` again.
  have hcircle : ∀ {x y : d.Index}, d.Follows i x → d.Follows i y → x ≠ y → ¬ d.Reaches x y := by
    intro x y hx hy hxy hreaches
    rcases hreaches.cases_tail with rfl | ⟨m, hxm, hmy⟩
    · exact hxy rfl
    · obtain rfl := h.eq_of_follows hi ((hi.tail hx).trans hxm) hy hmy
      exact hacyclic.not_reaches hx hxm
  rcases h.reaches_or_reaches (hi.tail hj) (hi.tail hr) hjk hrk with hjr | hrj
  · exact hcircle hj hr hne hjr
  · exact hcircle hr hj hne.symm hrj

theorem IsUnshared.rightmostPath (h : d.IsUnshared) (hacyclic : d.IsAcyclic) {n : Nat}
    {i k : d.Index} (hi : d.Reaches d.root i) (hpath : d.Path n i k) : d.RightmostPath n i k := by
  induction hpath with
  | single i => exact .single i
  | cons hfollows hrest ih =>
      have hrest' := ih (hi.tail hfollows)
      rcases hfollows with hleft | hright
      · refine .left hleft (fun r hr => ?_) hrest'
        refine h.not_reaches hacyclic hi (.inl hleft) (.inr hr) ?_ hrest.reaches
        rintro rfl
        have hsame := h _ _ true false _ hi hi (next?_eq_some_iff.mpr hleft)
          (next?_eq_some_iff.mpr hr)
        exact absurd hsame.2 (by decide)
      · exact .right hright hrest'

end LocationDag

/-! ## Searches -/

namespace FlowField

variable {α : Type} {f : FlowField α} {p : Point}

theorem follows_of_follow {i j : f.dag.Index} (h : f.follow p i = (j.val : Int)) :
    f.dag.Follows i j := by
  unfold follow at h
  split at h
  · exact .inl h
  · exact .inr h

/-- A search examines the nodes of a path. -/
theorem Visits.path {k : Nat} {i : f.dag.Index} (h : Visits f p k i) :
    f.dag.Path (k + 1) f.dag.root i := by
  induction h with
  | root => exact .single _
  | step _ hfollow ih => exact ih.snoc (follows_of_follow hfollow)

end FlowField

namespace LocationDag

variable {d : LocationDag}

/-- The depth of an acyclic graph is the number of nodes on its longest rightmost path. It is the
number of nodes on its longest path, and a bound for every search, if no node is shared; with shared
nodes it is so only if some rightmost path is as long as the longest one. -/
theorem depth_of_isAcyclic {α : Type} (hacyclic : d.IsAcyclic) :
    IsGreatest {n | ∃ k, d.RightmostPath n d.root k} d.depth ∧
    (IsGreatest {n | ∃ k, d.Path n d.root k} d.depth ↔
      ∀ n k, d.Path n d.root k → ∃ m l, n ≤ m ∧ d.RightmostPath m d.root l) ∧
    (d.IsUnshared → IsGreatest {n | ∃ k, d.Path n d.root k} d.depth ∧
      ∀ f : FlowField α, f.dag = d → ∀ p k i, FlowField.Visits f p k i → k + 1 ≤ d.depth) := by
  have hdepth := isGreatest_depth hacyclic
  obtain ⟨⟨deepest, hdeepest⟩, hgreatest⟩ := hdepth
  have hlongest : IsGreatest {n | ∃ k, d.Path n d.root k} d.depth ↔
      ∀ n k, d.Path n d.root k → ∃ m l, n ≤ m ∧ d.RightmostPath m d.root l := by
    constructor
    · intro hpaths n k hpath
      exact ⟨d.depth, deepest, hpaths.2 ⟨k, hpath⟩, hdeepest⟩
    · intro hmatched
      refine ⟨⟨deepest, hdeepest.path⟩, fun n ⟨k, hpath⟩ => ?_⟩
      obtain ⟨m, l, hle, hright⟩ := hmatched n k hpath
      exact hle.trans (hgreatest ⟨l, hright⟩)
  refine ⟨isGreatest_depth hacyclic, hlongest, fun hunshared => ?_⟩
  have hpaths : IsGreatest {n | ∃ k, d.Path n d.root k} d.depth :=
    hlongest.mpr fun n k hpath => ⟨n, k, le_rfl, hunshared.rightmostPath hacyclic .refl hpath⟩
  refine ⟨hpaths, ?_⟩
  rintro f rfl p k i hvisits
  exact hpaths.2 ⟨i, hvisits.path⟩

/-- The table of `FlowField.oneTriangle` with a way for the points on the right of the first side to
the last node, which thereby lies behind both others. -/
def shortcut : LocationDag where
  nodes := #[⟨0, 1, 2⟩, ⟨1, 2, -1⟩, ⟨2, -1, -1⟩]
  nodes_pos := by decide
  child_range := by simp [LocationNode.child]

theorem depth_shortcut : shortcut.depth = 2 := by
  simp [depth_eq_deepest, deepest, successors, next?, node, root, shortcut, LocationNode.child]

end LocationDag

namespace FlowField

def shortcutTriangle : FlowField Float :=
  { oneTriangle ⟨1.0, 0.0⟩ with
    dag := .shortcut
    segment_lt := by simp [LocationDag.shortcut, oneTriangle] }

theorem visits_shortcutTriangle :
    Visits shortcutTriangle ⟨100000, 100000⟩ 2 (⟨2, by decide⟩ : shortcutTriangle.dag.Index) := by
  have hone : Visits shortcutTriangle ⟨100000, 100000⟩ 1 ⟨1, by decide⟩ :=
    Visits.root.step (by decide +kernel)
  exact hone.step (by decide +kernel)

end FlowField

namespace LocationDag

/-- Every walk over the table of the single triangle meets at most as many nodes as it is deep. If
the first node leads to the last one as well, a walk meets three nodes and the depth is two. -/
theorem depth_oneTriangle_and_shortcut :
    (∀ p k i, FlowField.Visits (FlowField.oneTriangle (⟨1.0, 0.0⟩ : Velocity Float)) p k i →
      k + 1 ≤ (FlowField.oneTriangle (⟨1.0, 0.0⟩ : Velocity Float)).dag.depth) ∧
    IsGreatest {n | ∃ k, shortcut.RightmostPath n shortcut.root k} 2 ∧
    ¬ IsGreatest {n | ∃ k, shortcut.Path n shortcut.root k} 2 ∧ ¬ shortcut.IsUnshared := by
  have hone : (FlowField.oneTriangle (⟨1.0, 0.0⟩ : Velocity Float)).dag.IsAcyclic :=
    isAcyclic_of_lt (by unfold Follows; decide)
  have honly : (FlowField.oneTriangle (⟨1.0, 0.0⟩ : Velocity Float)).dag.IsUnshared := by
    have hnamed : ∀ i j a b k, (FlowField.oneTriangle (⟨1.0, 0.0⟩ : Velocity Float)).dag.next? i a =
        some k → (FlowField.oneTriangle (⟨1.0, 0.0⟩ : Velocity Float)).dag.next? j b = some k →
          i = j ∧ a = b := by
      decide
    exact fun i j a b k _ _ => hnamed i j a b k
  have hwalks := ((depth_of_isAcyclic (α := Float) hone).2.2 honly).2
  obtain ⟨hrightmost, -, hunshared⟩ := depth_of_isAcyclic (α := Float) (d := shortcut)
    (isAcyclic_of_lt (by unfold Follows; decide))
  rw [depth_shortcut] at hrightmost hunshared
  have hlong : ¬ IsGreatest {n | ∃ k, shortcut.Path n shortcut.root k} 2 := fun h =>
    absurd (h.2 ⟨_, FlowField.visits_shortcutTriangle.path⟩) (by decide)
  exact ⟨fun p k i => hwalks _ rfl p k i, hrightmost, hlong, fun h => hlong (hunshared h).1⟩

end LocationDag

end CurrentDrift
