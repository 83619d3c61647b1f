import CurrentDrift.Command.Setup
import CurrentDrift.Proofs.Drift.Members
import CurrentDrift.Proofs.Outcome

/-! # Fleets as they are set up

Main statement: a set-up that succeeds gives a fleet of current patterns alone, one for each pattern
of the plan and in the same order, and each made of its own part of the plan and its mesh file. -/

namespace CurrentDrift

variable {α β γ : Type}

/-! ## Random sources left out -/

def Pattern.unsourced (p : Pattern α β γ) : Pattern α β Unit := { p with source := () }

def Mover.unsourced : Mover α β γ → Mover α β Unit
  | .current p => .current p.unsourced
  | .simple m => .simple m

theorem Mover.pattern?_unsourced (mover : Mover α β γ) :
    mover.unsourced.pattern? = mover.pattern?.map Pattern.unsourced := by
  cases mover <;> rfl

namespace Fleet

/-- The fleet without the random sources of its patterns. -/
def unsourced (f : Fleet α β γ) : Fleet α β Unit :=
  ⟨f.maps.map fun m => ⟨m.name, m.movers.map Mover.unsourced⟩⟩

theorem movers_unsourced (f : Fleet α β γ) :
    f.unsourced.movers = f.movers.map fun x => (x.1, x.2.unsourced) := by
  simp only [movers, unsourced, List.zipIdx_map, List.map_flatMap, List.flatMap_map, List.map_map,
    Prod.map_fst, Prod.map_snd, Function.comp_def, id_eq]

theorem patterns_unsourced (f : Fleet α β γ) :
    f.unsourced.patterns = f.patterns.map fun x => (x.1, x.2.unsourced) := by
  rw [patterns, patterns, movers_unsourced, List.filterMap_map, List.map_filterMap]
  congr 1
  funext x
  obtain ⟨place, mover⟩ := x
  simp only [Function.comp, Mover.pattern?_unsourced]
  cases mover.pattern? <;> rfl

theorem hasOnlyPatterns_unsourced (f : Fleet α β γ) :
    f.unsourced.HasOnlyPatterns ↔ f.HasOnlyPatterns := by
  simp [HasOnlyPatterns, unsourced, Mover.pattern?_unsourced]

end Fleet

/-! ## Set-up -/

namespace Setup

variable {read : ReadFile Id} {seeding : Seeding γ} {base : List Char}

/-- A pattern without its random source is what is set up from its part of a plan. -/
def Makes (read : ReadFile Id) (base : List Char) (p : PatternPlan)
    (x : Pattern Float (Sampler Float) Unit) : Prop :=
  ∃ field sampler factor, loadField read (p.meshPath base) = Except.ok field ∧
    Setup.sampler p = .ok sampler ∧ Setup.factor p = .ok factor ∧
    x = assemble p field sampler factor ()

/-- A pattern is what is set up for a part of a plan that has a number. -/
def Gives (read : ReadFile Id) (seeding : Seeding γ) (base : List Char) (seed : Option UInt64)
    (q : PatternPlan × Nat) (x : RunPattern γ) : Prop :=
  pattern read seeding base q.1 (seedOf seed q.2) = Except.ok x

theorem Gives.exists_eq_assemble {seed : Option UInt64} {q : PatternPlan × Nat} {x : RunPattern γ}
    (h : Gives read seeding base seed q x) :
    ∃ field sampler factor, loadField read (q.1.meshPath base) = Except.ok field ∧
      Setup.sampler q.1 = .ok sampler ∧ Setup.factor q.1 = .ok factor ∧
      x = assemble q.1 field sampler factor (seeding (seedOf seed q.2)) := by
  unfold Gives pattern at h
  cases hs : Setup.sampler q.1 with
  | error e => simp [hs, pure] at h
  | ok sampler =>
      cases hfield : loadField read (q.1.meshPath base) with
      | error e => simp [hs, hfield, bind, pure] at h
      | ok field =>
          simp only [hs, hfield, bind, pure] at h
          obtain ⟨factor, hfactor, rfl⟩ := map_eq_ok_iff.mp h
          exact ⟨field, sampler, factor, rfl, rfl, hfactor, rfl⟩

theorem Gives.makes {seed : Option UInt64} {q : PatternPlan × Nat} {x : RunPattern γ}
    (h : Gives read seeding base seed q x) : Makes read base q.1 x.unsourced := by
  obtain ⟨field, sampler, factor, hfield, hsampler, hfactor, rfl⟩ := h.exists_eq_assemble
  exact ⟨field, sampler, factor, hfield, hsampler, hfactor, rfl⟩

section Order

variable {seed : Option UInt64} {i : Nat}

theorem patterns_cons (p : PatternPlan) (ps : List PatternPlan) :
    patterns read seeding base seed i (p :: ps) =
      (do
        let x ← (pattern read seeding base p (seedOf seed i)).run
        (patterns read seeding base seed (i + 1) ps).run.map (x :: ·) :
          Except Failure (List (RunPattern γ))) := by
  rw [patterns]
  cases pattern read seeding base p (seedOf seed i) with
  | error e => rfl
  | ok x => cases patterns read seeding base seed (i + 1) ps <;> rfl

theorem maps_cons (c : MapPlan) (cs : List MapPlan) :
    maps read seeding base seed i (c :: cs) =
      (do
        let xs ← (patterns read seeding base seed i c.patterns).run
        (maps read seeding base seed (i + c.patterns.length) cs).run.map
          (FleetMap.mk c.name (xs.map Mover.current) :: ·) : Except Failure (List (RunMap γ))) := by
  rw [maps]
  cases patterns read seeding base seed i c.patterns with
  | error e => rfl
  | ok xs => cases maps read seeding base seed (i + c.patterns.length) cs <;> rfl

theorem gives_of_patterns {ps : List PatternPlan} {xs : List (RunPattern γ)}
    (h : patterns read seeding base seed i ps = Except.ok xs) :
    List.Forall₂ (Gives read seeding base seed) (ps.zipIdx i) xs := by
  induction ps generalizing i xs with
  | nil =>
      obtain rfl := Except.ok.inj h
      exact .nil
  | cons p ps ih =>
      rw [patterns_cons] at h
      obtain ⟨x, hx, h⟩ := bind_eq_ok_iff.mp h
      obtain ⟨xs, hxs, rfl⟩ := map_eq_ok_iff.mp h
      exact .cons hx (ih hxs)

/-- The patterns of all maps are set up in their order, with numbers that run through all maps. -/
theorem gives_of_maps {cs : List MapPlan} {ms : List (RunMap γ)}
    (h : maps read seeding base seed i cs = Except.ok ms) :
    ∃ xs : List (RunPattern γ), ms.flatMap FleetMap.movers = xs.map .current ∧
      List.Forall₂ (Gives read seeding base seed) ((cs.flatMap MapPlan.patterns).zipIdx i) xs := by
  induction cs generalizing i ms with
  | nil =>
      obtain rfl := Except.ok.inj h
      exact ⟨[], rfl, .nil⟩
  | cons c cs ih =>
      rw [maps_cons] at h
      obtain ⟨xs, hxs, h⟩ := bind_eq_ok_iff.mp h
      obtain ⟨ms, hms, rfl⟩ := map_eq_ok_iff.mp h
      obtain ⟨rest, hrest, hgives⟩ := ih hms
      refine ⟨xs ++ rest, ?_, ?_⟩
      · rw [List.flatMap_cons, hrest, List.map_append]
      · rw [List.flatMap_cons, List.zipIdx_append]
        exact List.rel_append (gives_of_patterns hxs) hgives

end Order

end Setup

namespace Fleet

variable {read : ReadFile Id} {seeding : Seeding γ} {base : List Char}

/-- A fleet as it is set up from a plan, whatever its random sources are. -/
structure IsSetUp (read : ReadFile Id) (base : List Char) (c : RunPlan)
    (f : Fleet Float (Sampler Float) γ) : Prop where
  hasOnlyPatterns : f.HasOnlyPatterns
  patterns : List.Forall₂ (fun p x => Setup.Makes read base p x.2.unsourced) c.patterns f.patterns

theorem isSetUp_unsourced {c : RunPlan} {f : Fleet Float (Sampler Float) γ} :
    f.unsourced.IsSetUp read base c ↔ f.IsSetUp read base c := by
  constructor
  · rintro ⟨honly, hpatterns⟩
    rw [patterns_unsourced, List.forall₂_map_right_iff] at hpatterns
    exact ⟨f.hasOnlyPatterns_unsourced.mp honly, hpatterns⟩
  · rintro ⟨honly, hpatterns⟩
    refine ⟨f.hasOnlyPatterns_unsourced.mpr honly, ?_⟩
    rw [patterns_unsourced, List.forall₂_map_right_iff]
    exact hpatterns

theorem map_snd_patterns_of_movers {ms : List (FleetMap α β γ)} {xs : List (Pattern α β γ)}
    (h : ms.flatMap FleetMap.movers = xs.map .current) :
    (Fleet.mk ms).patterns.map Prod.snd = xs := by
  rw [map_snd_patterns, h, List.filterMap_map]
  exact List.filterMap_some

theorem exists_maps_of_fleet {c : RunPlan} {f : RunFleet γ}
    (h : Setup.fleet read seeding base c = Except.ok f) :
    Setup.maps read seeding base c.seed 0 c.maps = Except.ok f.maps := by
  obtain ⟨ms, hms, rfl⟩ := map_eq_ok_iff.mp h
  exact hms

theorem isSetUp_of_fleet {c : RunPlan} {f : RunFleet γ}
    (h : Setup.fleet read seeding base c = Except.ok f) :
    f.IsSetUp read base c := by
  obtain ⟨xs, hmovers, hgives⟩ := Setup.gives_of_maps (exists_maps_of_fleet h)
  constructor
  · intro m hm mover hmover
    have hmem := List.mem_flatMap.mpr ⟨m, hm, hmover⟩
    rw [hmovers] at hmem
    obtain ⟨x, -, rfl⟩ := List.mem_map.mp hmem
    rfl
  · have hmakes : List.Forall₂ (fun p x => Setup.Makes read base p x.unsourced)
        (c.patterns.zipIdx.map Prod.fst) (f.patterns.map Prod.snd) := by
      rw [map_snd_patterns_of_movers hmovers, List.forall₂_map_left_iff]
      exact hgives.imp fun _ _ hq => hq.makes
    rwa [List.zipIdx_map_fst, List.forall₂_map_right_iff] at hmakes

end Fleet

end CurrentDrift
