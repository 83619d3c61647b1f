import CurrentDrift.Proofs.Mesh.Chain

/-! # Points outside the bounding box

A point outside the bounding box is turned away before the search. Main statement: no
counterclockwise triangle reaches out of the box, so that nothing is lost by that, whatever the
location graph, as long as it only names triangles that the point lies in. -/

namespace CurrentDrift

namespace Mesh

variable {α : Type}

/-- The three orientations of a point in a triangle that covers it cannot add up to less than
nothing. -/
theorem covers_eq_false_of_clockwise {m : Mesh α} {t : m.Index} (h : m.doubleArea t < 0)
    (p : Point) : m.covers t p = false := by
  rw [← Bool.not_eq_true, covers_iff]
  intro hweight
  rw [doubleArea_eq_orientation, ← m.orientation_add t p] at h
  have := hweight 0
  have := hweight 1
  have := hweight 2
  omega

end Mesh

namespace FlowField

variable {α : Type} {f : FlowField α} {p : Point}

/-- A triangle is the answer exactly if the search names it for a point of the box. -/
theorem locate_eq_ok_iff {t : f.mesh.Index} :
    f.locate p = .ok t ↔ f.mesh.bounds.contains p = true ∧ f.search p = .ok (some t) := by
  by_cases h : f.mesh.bounds.contains p = true
  · rw [locate_of_contains h]
    split <;> simp_all
  · rw [locate_of_not_contains h]
    simp [h]

/-- For every triangle and every point, the three orientations of the point add up to twice the
signed area. Therefore a clockwise triangle covers no point, and the bounding box holds all points
that a counterclockwise one covers. If the search for a point can only name a counterclockwise
triangle that covers it, the box does not change the answer: the same triangle, or none, is found
with it and without it. All that the box hides is that the search outside it goes in a circle. -/
theorem locate_eq_ok_iff_search {m : Mesh Float} (h : m.IsBuilt) :
    (∀ t p, m.orientation t 0 p + m.orientation t 1 p + m.orientation t 2 p = m.doubleArea t) ∧
    (∀ t, m.doubleArea t < 0 → ∀ p, m.covers t p = false) ∧
    (∀ t, 0 < m.doubleArea t → ∀ p, m.covers t p = true → m.bounds.contains p = true) ∧
    ∀ f : FlowField Float, f.mesh = m → ∀ p,
      (∀ t, f.search p = .ok (some t) → f.mesh.covers t p = true ∧ 0 < f.mesh.doubleArea t) →
      (∀ t, f.locate p = .ok t ↔ f.search p = .ok (some t)) ∧
      (f.search p = .ok none → f.locate p = .error (.outside p)) ∧
      ∀ e, f.search p = .error e →
        f.locate p = .error (if f.mesh.bounds.contains p then e else .outside p) := by
  have hin : ∀ t, 0 < m.doubleArea t → ∀ p, m.covers t p = true → m.bounds.contains p = true :=
    fun t harea p => Mesh.contains_of_covers h.isBounded (m.doubleArea_eq_orientation t ▸ harea)
  refine ⟨fun t p => ?_, fun t => Mesh.covers_eq_false_of_clockwise, hin, ?_⟩
  · rw [m.orientation_add, m.doubleArea_eq_orientation]
  · rintro f rfl p hanswer
    refine ⟨fun t => ?_, fun hnone => ?_, fun e he => ?_⟩
    · rw [locate_eq_ok_iff, and_iff_right_iff_imp]
      intro hs
      obtain ⟨hcovers, harea⟩ := hanswer t hs
      exact hin t harea p hcovers
    · by_cases hbox : f.mesh.bounds.contains p = true
      · rw [locate_of_contains hbox, hnone]
      · exact locate_of_not_contains hbox
    · by_cases hbox : f.mesh.bounds.contains p = true
      · rw [locate_of_contains hbox, he, if_pos hbox]
      · rw [locate_of_not_contains hbox, if_neg hbox]

/-- Two triangles with a gap between them. -/
def apart : Mesh Float where
  vertices := #[⟨-900, 0⟩, ⟨-100, 0⟩, ⟨-900, 800⟩, ⟨900, 900⟩, ⟨100, 900⟩, ⟨900, 100⟩]
  depths := none
  triangles := #[alone #v[2, 0, 1], alone #v[5, 3, 4]]
  velocities := #[⟨0.5, 0.0⟩, ⟨0.0, 0.5⟩]
  bounds := ⟨-900, 0, 900, 900⟩
  vertices_pos := by decide
  triangles_pos := by decide
  depths_size := by simp
  velocities_size := rfl
  isWithin := by simp [alone, Triangle.IsWithin]

theorem isBuilt_apart : apart.IsBuilt :=
  .ofTriangles (Mesh.ofTriangles_self (m := apart) rfl (by decide +kernel))

/-- Over the chain of the two triangles the search names no triangle that the point is not in. -/
theorem covers_of_search_apart {p : Point} {t : apart.Index}
    (h : (chain apart).search p = .ok (some t)) :
    apart.covers t p = true ∧ 0 < apart.doubleArea t := by
  have hneighbors : ∀ t ∈ apart.triangles, t.neighbors = #v[-1, -1, -1] := by
    simp only [apart, alone, List.mem_toArray, List.mem_cons, List.not_mem_nil, or_false]
    rintro t (rfl | rfl) <;> rfl
  have harea : ∀ t, 0 < apart.doubleArea t := by decide +kernel
  rw [chain.search_eq_firstContaining? hneighbors, Except.ok.injEq] at h
  have hcontains : apart.contains t p = true := (Fin.find?_eq_some_iff.mp h).1
  rw [Mesh.contains_eq_covers isBuilt_apart.isBounded (.inr (by decide))] at hcontains
  exact ⟨hcontains, harea t⟩

theorem locate_eq_ok_iff_search_apart :
    apart.IsBuilt ∧
      (∀ p t, (chain apart).search p = .ok (some t) →
        apart.covers t p = true ∧ 0 < apart.doubleArea t) ∧
      ∀ p t, (chain apart).locate p = .ok t ↔ (chain apart).search p = .ok (some t) := by
  refine ⟨isBuilt_apart, fun p t => covers_of_search_apart, fun p => ?_⟩
  obtain ⟨-, -, -, hsame⟩ := locate_eq_ok_iff_search isBuilt_apart
  exact (hsame (chain apart) rfl p fun t => covers_of_search_apart).1

end FlowField

end CurrentDrift
