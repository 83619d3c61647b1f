import CurrentDrift.Proofs.Mesh.Chain
import CurrentDrift.Proofs.Mesh.Depth

/-! # The depth of a chain

In a chain the three nodes of a triangle share their right successor, the first node of the next
triangle. The search for the depth meets that node from the first of the three and never looks at it
again. Main statement: the depth of a chain counts two nodes more than there are triangles, while
its longest path meets all nodes, three for each triangle. -/

namespace CurrentDrift

namespace LocationDag.chain

variable {triangles : Nat} {h : 0 < triangles}

theorem val_lt (i : (chain triangles h).Index) : i.val < 3 * triangles :=
  i.isLt.trans_eq (size_chainNodes triangles)

theorem node_eq (i : (chain triangles h).Index) :
    (chain triangles h).node i = LocationNode.inChain triangles i :=
  Array.getElem_ofFn ..

theorem right_iff {i j : (chain triangles h).Index} :
    ((chain triangles h).node i).right = (j.val : Int) ↔ j.val = 3 * (i.val / 3 + 1) := by
  have hj := val_lt j
  simp only [node_eq, LocationNode.inChain]
  split <;> omega

theorem left_iff {i j : (chain triangles h).Index} :
    ((chain triangles h).node i).left = (j.val : Int) ↔ i.val % 3 < 2 ∧ j.val = i.val + 1 := by
  simp only [node_eq, LocationNode.inChain]
  split <;> omega

theorem lt_of_follows {i j : (chain triangles h).Index} (hj : (chain triangles h).Follows i j) :
    i < j := by
  rw [Fin.lt_def]
  rcases hj with hj | hj
  · have := left_iff.mp hj
    omega
  · have := right_iff.mp hj
    omega

theorem isAcyclic (h : 0 < triangles) : (chain triangles h).IsAcyclic :=
  isAcyclic_of_lt fun _ _ => lt_of_follows

theorem Path.le {n : Nat} {i k : (chain triangles h).Index}
    (hpath : (chain triangles h).Path n i k) : n + i.val ≤ k.val + 1 := by
  induction hpath with
  | single i => omega
  | cons hfollows _ ih =>
      have := Fin.lt_def.mp (lt_of_follows hfollows)
      omega

/-- The first node of a triangle leads to all nodes behind it. -/
theorem reaches_of_le {i k : (chain triangles h).Index} (hi : i.val % 3 = 0) (hik : i ≤ k) :
    (chain triangles h).Reaches i k := by
  induction hk : k.val using Nat.strong_induction_on generalizing k with
  | _ m ih =>
    subst hk
    rw [Fin.le_def] at hik
    rcases Nat.eq_or_lt_of_le hik with heq | hlt
    · exact Fin.ext heq ▸ .refl
    · -- The node before `k`: on its left within a triangle, on its right from the triangle before.
      by_cases hfirst : k.val % 3 = 0
      · have hbefore := ih (k.val - 3) (by omega) (k := ⟨k.val - 3, by omega⟩)
          (Fin.le_def.mpr (by dsimp only; omega)) rfl
        exact hbefore.tail (.inr (right_iff.mpr (by dsimp only; omega)))
      · have hbefore := ih (k.val - 1) (by omega) (k := ⟨k.val - 1, by omega⟩)
          (Fin.le_def.mpr (by dsimp only; omega)) rfl
        exact hbefore.tail (.inl (left_iff.mpr (by dsimp only; omega)))

/-- A rightmost path takes one node from each triangle but the last one. -/
theorem RightmostPath.le {n : Nat} {i k : (chain triangles h).Index}
    (hpath : (chain triangles h).RightmostPath n i k) :
    (i.val / 3 = k.val / 3 → n + i.val ≤ k.val + 1) ∧ n + i.val / 3 ≤ k.val / 3 + 3 := by
  induction hpath with
  | single i => omega
  | @right n i j k hright hrest ih =>
      have hj := right_iff.mp hright
      have hk := Path.le hrest.path
      have hn : 0 < n := hrest.path.pos
      omega
  | @left n i j k hleft hnot hrest ih =>
      have hj := left_iff.mp hleft
      have hk := Path.le hrest.path
      have hlast := val_lt k
      have hn : 0 < n := hrest.path.pos
      have hsame : k.val / 3 = i.val / 3 := by
        by_contra hbehind
        have hsize : (chain triangles h).nodes.size = 3 * triangles := size_chainNodes triangles
        refine hnot ⟨3 * (i.val / 3 + 1), by omega⟩ (right_iff.mpr rfl) (reaches_of_le ?_ ?_)
        · dsimp only
          omega
        · rw [Fin.le_def]
          dsimp only
          omega
      omega

theorem exists_rightmostPath {rest : Nat} {i : (chain triangles h).Index}
    (hi : i.val + 3 * (rest + 1) = 3 * triangles) :
    ∃ k, (chain triangles h).RightmostPath (rest + 3) i k := by
  have hsize : (chain triangles h).nodes.size = 3 * triangles := size_chainNodes triangles
  induction rest generalizing i with
  | zero =>
      have hnoRight : ∀ j r : (chain triangles h).Index, i.val ≤ j.val →
          ((chain triangles h).node j).right = (r.val : Int) →
            ¬ (chain triangles h).Reaches r ⟨i.val + 2, by omega⟩ := by
        intro j r hij hr
        have := right_iff.mp hr
        have := val_lt r
        omega
      have hmiddle : (chain triangles h).RightmostPath 2 ⟨i.val + 1, by omega⟩
          ⟨i.val + 2, by omega⟩ :=
        .left (left_iff.mpr (by dsimp only; omega)) (fun r => hnoRight _ r (Nat.le_add_right ..))
          (.single _)
      exact ⟨_, .left (left_iff.mpr (by dsimp only; omega)) (fun r => hnoRight i r le_rfl) hmiddle⟩
  | succ rest ih =>
      obtain ⟨k, hpath⟩ := ih (i := ⟨i.val + 3, by omega⟩) (by dsimp only; omega)
      exact ⟨k, .right (right_iff.mpr (by dsimp only; omega)) hpath⟩

theorem exists_path {n : Nat} {i : (chain triangles h).Index}
    (hi : i.val + (n + 1) = 3 * triangles) : ∃ k, (chain triangles h).Path (n + 1) i k := by
  have hsize : (chain triangles h).nodes.size = 3 * triangles := size_chainNodes triangles
  induction n generalizing i with
  | zero => exact ⟨i, .single i⟩
  | succ n ih =>
      obtain ⟨k, hpath⟩ := ih (i := ⟨i.val + 1, by omega⟩) (by dsimp only; omega)
      refine ⟨k, .cons ?_ hpath⟩
      by_cases hside : i.val % 3 < 2
      · exact .inl (left_iff.mpr ⟨hside, rfl⟩)
      · exact .inr (right_iff.mpr (by dsimp only; omega))

/-- The depth of a chain counts one node for each triangle and two more, but its longest path meets
all three nodes of every triangle. -/
theorem depth_eq (triangles : Nat) (h : 0 < triangles) :
    (chain triangles h).depth = triangles + 2 ∧
      IsGreatest {n | ∃ k, (chain triangles h).Path n (chain triangles h).root k}
        (3 * triangles) := by
  obtain ⟨⟨deepest, hdeepest⟩, hgreatest⟩ := isGreatest_depth (isAcyclic h)
  refine ⟨Nat.le_antisymm ?_ ?_, ?_, ?_⟩
  · have hbound := (RightmostPath.le hdeepest).2
    have := val_lt deepest
    omega
  · obtain ⟨rest, rfl⟩ := Nat.exists_eq_add_one.mpr h
    exact hgreatest (exists_rightmostPath (by simp [root]))
  · obtain ⟨n, hn⟩ := Nat.exists_eq_add_one.mpr (by omega : 0 < 3 * triangles)
    rw [hn]
    exact exists_path (by simp [root, hn])
  · rintro n ⟨k, hpath⟩
    have := Path.le hpath
    have := val_lt k
    simp only [root] at *
    omega

end LocationDag.chain

end CurrentDrift
