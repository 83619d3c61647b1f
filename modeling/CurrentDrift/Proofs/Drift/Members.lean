import CurrentDrift.Drift.Run
import Mathlib.Data.List.FinRange

/-! # The movers of a fleet

No two movers are at the same place, so the number of a pattern and its place say the same. In a
fleet of current patterns alone, the members of a run are the numbers of the patterns in order. -/

namespace CurrentDrift

variable {α β γ : Type}

theorem pairwise_zipIdx {δ : Type} (xs : List δ) :
    xs.zipIdx.Pairwise fun x y => x.2 ≠ y.2 := by
  rw [← List.pairwise_map, List.zipIdx_map_snd]
  exact List.nodup_range'

namespace Fleet

/-! ## Places -/

theorem pairwise_movers (f : Fleet α β γ) : f.movers.Pairwise fun x y => x.1 ≠ y.1 := by
  rw [movers, List.pairwise_flatMap]
  constructor
  · rintro ⟨m, i⟩ -
    rw [List.pairwise_map]
    refine (pairwise_zipIdx m.movers).imp fun hne heq => hne ?_
    exact congrArg Place.slot heq
  · refine (pairwise_zipIdx f.maps).imp fun {a b} hne x hx y hy heq => hne ?_
    obtain ⟨k, -, rfl⟩ := List.mem_map.mp hx
    obtain ⟨l, -, rfl⟩ := List.mem_map.mp hy
    exact congrArg Place.map heq

theorem place_injective (f : Fleet α β γ) : Function.Injective f.place := by
  have hpair : f.patterns.Pairwise fun x y => x.1 ≠ y.1 := by
    rw [patterns, List.pairwise_filterMap]
    refine f.pairwise_movers.imp fun hne x hx y hy => ?_
    simp only [Option.map_eq_some_iff] at hx hy
    obtain ⟨p, -, rfl⟩ := hx
    obtain ⟨q, -, rfl⟩ := hy
    exact hne
  intro i j hij
  rcases Nat.lt_trichotomy i.val j.val with hlt | heq | hgt
  · exact (List.pairwise_iff_getElem.mp hpair i j i.isLt j.isLt hlt hij).elim
  · exact Fin.ext heq
  · exact (List.pairwise_iff_getElem.mp hpair j i j.isLt i.isLt hgt hij.symm).elim

theorem index?_place (f : Fleet α β γ) (i : f.Index) : f.index? (f.place i) = some i := by
  rw [index?, List.find?_eq_some_iff_append]
  obtain ⟨before, after, happ⟩ := List.append_of_mem (List.mem_finRange i)
  refine ⟨by simp, before, after, happ, fun j hj => ?_⟩
  -- A number before `i` is not `i`, as the numbers are all different.
  have hnodup := happ ▸ List.nodup_finRange f.patterns.length
  have hne : j ≠ i := (List.nodup_append.mp hnodup).2.2 j hj i List.mem_cons_self
  simpa using fun h => hne (f.place_injective h)

theorem map_snd_movers (f : Fleet α β γ) :
    f.movers.map Prod.snd = f.maps.flatMap FleetMap.movers := by
  have hslots : ∀ (m : FleetMap α β γ) (i : Nat),
      (m.movers.zipIdx.map fun x => (Place.mk i x.2, x.1)).map Prod.snd = m.movers := by
    intro m i
    rw [List.map_map]
    exact List.zipIdx_map_fst 0 m.movers
  have hmaps := congrArg (List.flatMap FleetMap.movers) (List.zipIdx_map_fst 0 f.maps)
  rw [movers, List.map_flatMap, ← hmaps, List.flatMap_map]
  exact congrArg (List.flatMap · _) (funext fun x => hslots x.1 x.2)

theorem map_snd_patterns (f : Fleet α β γ) :
    f.patterns.map Prod.snd = (f.maps.flatMap FleetMap.movers).filterMap Mover.pattern? := by
  rw [← map_snd_movers, patterns, List.map_filterMap, List.filterMap_map]
  congr 1
  funext x
  obtain ⟨place, mover⟩ := x
  cases mover <;> rfl

/-! ## Fleets of current patterns alone -/

/-- No mover is of another kind. -/
def HasOnlyPatterns (f : Fleet α β γ) : Prop :=
  ∀ m ∈ f.maps, ∀ mover ∈ m.movers, mover.pattern?.isSome = true

theorem HasOnlyPatterns.isSome_pattern? {f : Fleet α β γ} (h : f.HasOnlyPatterns)
    {x : Place × Mover α β γ} (hx : x ∈ f.movers) : x.2.pattern?.isSome = true := by
  simp only [movers, List.mem_flatMap, List.mem_map] at hx
  obtain ⟨⟨m, i⟩, hm, ⟨mover, k⟩, hmover, rfl⟩ := hx
  exact h m (List.fst_mem_of_mem_zipIdx hm) mover (List.fst_mem_of_mem_zipIdx hmover)

theorem HasOnlyPatterns.movers_eq {f : Fleet α β γ} (h : f.HasOnlyPatterns) :
    f.movers = f.patterns.map fun x => (x.1, .current x.2) := by
  rw [patterns, List.map_filterMap]
  refine (List.filterMap_some.symm.trans (List.filterMap_congr fun x hx => ?_))
  obtain ⟨place, mover⟩ := x
  cases mover with
  | current p => rfl
  | simple m => exact absurd (h.isSome_pattern? hx) (by simp [Mover.pattern?])

theorem HasOnlyPatterns.members_eq {f : Fleet α β γ} (h : f.HasOnlyPatterns) :
    f.members = (List.finRange f.patterns.length).map .current := by
  have hpatterns : f.patterns =
      (List.finRange f.patterns.length).map fun i => (f.place i, f.pattern i) := by
    exact (List.map_getElem_finRange f.patterns).symm
  rw [members, h.movers_eq]
  nth_rewrite 1 [hpatterns]
  rw [List.map_map, List.filterMap_map, ← List.filterMap_eq_map]
  refine List.filterMap_congr fun i _ => ?_
  simp [member?, index?_place]

end Fleet

end CurrentDrift
