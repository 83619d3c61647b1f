import Mathlib.Algebra.Ring.Nat
import CurrentDrift.Proofs.Command.ForecastIndependence

/-! # The order of a set-up

The patterns of a plan are numbered through all of its maps, and each takes a seed of its own from
its number. Main statement: a set-up that succeeds keeps all maps and patterns with their names and
in their order, whichever maps are empty, and gives different seeds to different patterns; a set-up
that fails does so by the first pattern that cannot be set up. -/

namespace CurrentDrift

namespace Setup

variable {γ : Type} {read : ReadFile Id} {seeding : Seeding γ} {base : List Char}
  {seed : Option UInt64} {i : Nat} {e : Failure}

/-! ## Seeds -/

/-- Seeds are counted on from the given one, and after the largest one from zero. -/
theorem seedOf_some (seed : UInt64) (k : Nat) :
    seedOf (some seed) k = some (UInt64.ofNat (seed.toNat + k)) := by
  simp [seedOf]

theorem nodup_seeds (seed : UInt64) {n : Nat} (hn : n ≤ 2 ^ 64) :
    ((List.range n).map fun k => UInt64.ofNat (seed.toNat + k)).Nodup := by
  refine List.Nodup.map_on (fun j hj k hk heq => ?_) List.nodup_range
  rw [List.mem_range] at hj hk
  have hmod : (seed.toNat + j) % 2 ^ 64 = (seed.toNat + k) % 2 ^ 64 := congrArg UInt64.toNat heq
  omega

/-! ## Failures -/

/-- Why nothing can be set up for a part of a plan that has a number. -/
def failure? (read : ReadFile Id) (seeding : Seeding γ) (base : List Char) (seed : Option UInt64)
    (q : PatternPlan × Nat) : Option Failure :=
  match (pattern read seeding base q.1 (seedOf seed q.2)).run with
  | .error e => some e
  | .ok _ => none

theorem patterns_eq_error_iff {ps : List PatternPlan} :
    patterns read seeding base seed i ps = Except.error e ↔
      (ps.zipIdx i).findSome? (failure? read seeding base seed) = some e := by
  induction ps generalizing i with
  | nil => exact ⟨nofun, nofun⟩
  | cons p ps ih =>
      rw [List.zipIdx_cons, List.findSome?_cons, patterns_cons]
      refine bind_eq_error_iff.trans ?_
      simp only [map_eq_error_iff, failure?]
      cases (pattern read seeding base p (seedOf seed i)).run with
      | error e' => simp
      | ok x =>
          refine (or_iff_right nofun).trans ?_
          exact ⟨fun ⟨_, _, h⟩ => ih.mp h, fun h => ⟨x, rfl, ih.mpr h⟩⟩

theorem maps_eq_error_iff {cs : List MapPlan} :
    maps read seeding base seed i cs = Except.error e ↔
      ((cs.flatMap MapPlan.patterns).zipIdx i).findSome? (failure? read seeding base seed) =
        some e := by
  induction cs generalizing i with
  | nil => exact ⟨nofun, nofun⟩
  | cons c cs ih =>
      rw [List.flatMap_cons, List.zipIdx_append, List.findSome?_append, maps_cons]
      refine bind_eq_error_iff.trans ?_
      simp only [map_eq_error_iff]
      cases hxs : (patterns read seeding base seed i c.patterns).run with
      | error e' =>
          rw [patterns_eq_error_iff.mp hxs]
          simp
      | ok xs =>
          have hnone :
              (c.patterns.zipIdx i).findSome? (failure? read seeding base seed) = none := by
            rw [Option.eq_none_iff_forall_ne_some]
            intro e' he
            exact nomatch hxs.symm.trans (patterns_eq_error_iff.mpr he)
          rw [hnone, Option.none_or]
          refine (or_iff_right nofun).trans ?_
          exact ⟨fun ⟨_, _, h⟩ => ih.mp h, fun h => ⟨xs, rfl, ih.mpr h⟩⟩

/-! ## Maps and their patterns -/

/-- A map has the name of its part of a plan, and nothing but patterns with the names there. -/
def Follows (c : MapPlan) (m : RunMap γ) : Prop :=
  m.name = c.name ∧ ∃ xs : List (RunPattern γ), m.movers = xs.map .current ∧
    xs.map Pattern.name = c.patterns.map PatternPlan.name

theorem Gives.name_eq {q : PatternPlan × Nat} {x : RunPattern γ}
    (h : Gives read seeding base seed q x) : x.name = q.1.name := by
  obtain ⟨field, sampler, factor, -, -, -, rfl⟩ := h.exists_eq_assemble
  rfl

theorem Gives.source_eq {q : PatternPlan × Nat} {x : RunPattern γ} {seed : UInt64}
    (h : Gives read seeding base (some seed) q x) :
    x.source = seeding (some (UInt64.ofNat (seed.toNat + q.2))) := by
  obtain ⟨field, sampler, factor, -, -, -, rfl⟩ := h.exists_eq_assemble
  rw [seedOf_some]
  rfl

/-- What can be told of each pattern from its part of the plan and its number. -/
theorem map_eq_of_gives {δ : Type} {view : RunPattern γ → δ} {told : PatternPlan × Nat → δ}
    (hview : ∀ q x, Gives read seeding base seed q x → view x = told q)
    {qs : List (PatternPlan × Nat)} {xs : List (RunPattern γ)} (h : List.Forall₂ (Gives read seeding base seed) qs xs) :
    xs.map view = qs.map told := by
  induction h with
  | nil => rfl
  | cons hx _ ih => rw [List.map_cons, List.map_cons, hview _ _ hx, ih]

theorem map_name_of_gives {ps : List PatternPlan} {xs : List (RunPattern γ)}
    (h : List.Forall₂ (Gives read seeding base seed) (ps.zipIdx i) xs) :
    xs.map Pattern.name = ps.map PatternPlan.name := by
  rw [map_eq_of_gives (fun _ _ hq => hq.name_eq) h]
  change (ps.zipIdx i).map (PatternPlan.name ∘ Prod.fst) = _
  rw [← List.map_map, List.zipIdx_map_fst]

theorem map_source_of_gives {seed : UInt64} {ps : List PatternPlan} {xs : List (RunPattern γ)}
    (h : List.Forall₂ (Gives read seeding base (some seed)) ps.zipIdx xs) :
    xs.map Pattern.source =
      (List.range ps.length).map fun k => seeding (some (UInt64.ofNat (seed.toNat + k))) := by
  rw [map_eq_of_gives (fun _ _ hq => hq.source_eq) h, List.range_eq_range',
    ← List.zipIdx_map_snd 0 ps, List.map_map]
  rfl

theorem follows_of_maps {cs : List MapPlan} {ms : List (RunMap γ)}
    (h : maps read seeding base seed i cs = Except.ok ms) : List.Forall₂ Follows cs ms := by
  induction cs generalizing i ms with
  | nil =>
      obtain rfl := Except.ok.inj h
      exact .nil
  | cons c cs ih =>
      rw [maps_cons] at h
      obtain ⟨xs, hxs, h⟩ := bind_eq_ok_iff.mp h
      obtain ⟨ms, hms, rfl⟩ := map_eq_ok_iff.mp h
      exact .cons ⟨rfl, xs, rfl, map_name_of_gives (gives_of_patterns hxs)⟩ (ih hms)

/-! ## Maps that are added one by one -/

/-- Sets up patterns and adds each of them to a map of a fleet. -/
def addPatterns (read : ReadFile Id) (seeding : Seeding γ) (base : List Char)
    (seed : Option UInt64) (map : Nat) :
    Nat → RunFleet γ → List PatternPlan → Except Failure (RunFleet γ)
  | _, f, [] => .ok f
  | i, f, p :: ps => do
    let x ← (pattern read seeding base p (seedOf seed i)).run
    addPatterns read seeding base seed map (i + 1) (f.withMover map (.current x)) ps

/-- Adds maps to a fleet, and to each map its patterns as they are set up. -/
def addMaps (read : ReadFile Id) (seeding : Seeding γ) (base : List Char) (seed : Option UInt64) :
    Nat → RunFleet γ → List MapPlan → Except Failure (RunFleet γ)
  | _, f, [] => .ok f
  | i, f, c :: cs => do
    let f' ← addPatterns read seeding base seed f.maps.length i (f.withMap c.name) c.patterns
    addMaps read seeding base seed (i + c.patterns.length) f' cs

theorem modify_last {δ : Type} (before : List δ) (last : δ) (g : δ → δ) :
    (before ++ [last]).modify before.length g = before ++ [g last] := by
  induction before with
  | nil => rfl
  | cons x before ih => simp [ih]

theorem addPatterns_eq (before : List (RunMap γ)) (m : RunMap γ) (ps : List PatternPlan) :
    addPatterns read seeding base seed before.length i ⟨before ++ [m]⟩ ps =
      (patterns read seeding base seed i ps).run.map fun xs =>
        ⟨before ++ [{ m with movers := m.movers ++ xs.map .current }]⟩ := by
  induction ps generalizing i m with
  | nil =>
      change Except.ok _ = Except.ok (Fleet.mk (before ++ [{ m with movers := m.movers ++ [] }]))
      rw [List.append_nil]
  | cons p ps ih =>
      rw [addPatterns, patterns_cons]
      cases (pattern read seeding base p (seedOf seed i)).run with
      | error e => rfl
      | ok x =>
          change addPatterns read seeding base seed before.length (i + 1) _ ps =
            Except.map _ ((patterns read seeding base seed (i + 1) ps).run.map (x :: ·))
          rw [Fleet.withMover, modify_last, ih]
          cases (patterns read seeding base seed (i + 1) ps).run with
          | error e => rfl
          | ok xs => simp [Except.map]

theorem addMaps_eq (f : RunFleet γ) (cs : List MapPlan) :
    addMaps read seeding base seed i f cs =
      (maps read seeding base seed i cs).run.map fun ms => ⟨f.maps ++ ms⟩ := by
  induction cs generalizing i f with
  | nil =>
      change Except.ok f = Except.ok (Fleet.mk (f.maps ++ []))
      rw [List.append_nil]
  | cons c cs ih =>
      rw [addMaps, maps_cons, Fleet.withMap, addPatterns_eq]
      cases (patterns read seeding base seed i c.patterns).run with
      | error e => rfl
      | ok xs =>
          change addMaps read seeding base seed _ _ cs =
            Except.map _ ((maps read seeding base seed (i + c.patterns.length) cs).run.map _)
          rw [ih]
          cases (maps read seeding base seed (i + c.patterns.length) cs).run with
          | error e => rfl
          | ok ms => simp [Except.map]

theorem fleet_eq_addMaps (c : RunPlan) :
    fleet read seeding base c = addMaps read seeding base c.seed 0 Fleet.empty c.maps := by
  rw [addMaps_eq]
  rfl

end Setup

/-! ## The whole set-up -/

namespace Fleet

variable {γ : Type}

/-- A fleet that has all that a plan names, in the same order. Its patterns are numbered from zero
through all maps; if there is a seed, each draws from the seed that its number leads to. -/
structure IsInOrder (read : ReadFile Id) (seeding : Seeding γ) (base : List Char) (c : RunPlan)
    (f : RunFleet γ) : Prop where
  maps : List.Forall₂ Setup.Follows c.maps f.maps
  length_movers : f.movers.length = (c.maps.map fun m => m.patterns.length).sum
  patterns : List.Forall₂ (fun q x => Setup.Gives read seeding base c.seed q x.2) c.patterns.zipIdx
    f.patterns
  sources : ∀ seed, c.seed = some seed → f.patterns.map (fun x => x.2.source) =
    (List.range c.patterns.length).map fun k => seeding (some (UInt64.ofNat (seed.toNat + k)))
  seeds : ∀ seed, c.seed = some seed → c.patterns.length < 2 ^ 64 →
    ((List.range c.patterns.length).map fun k => UInt64.ofNat (seed.toNat + k)).Nodup

theorem isInOrder_of_fleet {read : ReadFile Id} {seeding : Seeding γ} {base : List Char}
    {c : RunPlan} {f : RunFleet γ}
    (h : Setup.fleet read seeding base c = Except.ok f) : f.IsInOrder read seeding base c := by
  have hmaps := exists_maps_of_fleet h
  obtain ⟨xs, hmovers, hgives⟩ := Setup.gives_of_maps hmaps
  have hpatterns : f.patterns.map Prod.snd = xs := map_snd_patterns_of_movers hmovers
  have hlength : f.movers.length = xs.length := by
    rw [← List.length_map Prod.snd, map_snd_movers, hmovers, List.length_map]
  constructor
  · exact Setup.follows_of_maps hmaps
  · rw [hlength, ← hgives.length_eq, List.length_zipIdx, List.length_flatMap]
  · rw [← hpatterns, List.forall₂_map_right_iff] at hgives
    exact hgives
  · intro seed hseed
    rw [hseed] at hgives
    have hsources : xs.map Pattern.source = (List.range c.patterns.length).map fun k =>
        seeding (some (UInt64.ofNat (seed.toNat + k))) := Setup.map_source_of_gives hgives
    rw [← hsources, ← hpatterns, List.map_map]
    rfl
  · exact fun seed _ hn => Setup.nodup_seeds seed hn.le

end Fleet

namespace Setup

/-- A set-up adds map after map and pattern after pattern. If it succeeds, all that the plan names
is there in order; it fails exactly if some pattern cannot be set up, and says why the first one of
these cannot. -/
theorem fleet_spec (read : ReadFile Id) (seeding : Seeding γ) (base : List Char) (c : RunPlan) :
    fleet read seeding base c = addMaps read seeding base c.seed 0 Fleet.empty c.maps ∧
      (∀ f, fleet read seeding base c = Except.ok f → f.IsInOrder read seeding base c) ∧
      ∀ e, fleet read seeding base c = Except.error e ↔
        c.patterns.zipIdx.findSome? (failure? read seeding base c.seed) = some e :=
  ⟨fleet_eq_addMaps c, fun _ => Fleet.isInOrder_of_fleet,
    fun _ => map_eq_error_iff.trans maps_eq_error_iff⟩

/-- Three patterns, two of them with the same name, around a map that is empty. -/
def bays : RunPlan :=
  { RunPlan.default with
    seed := some 18446744073709551615
    maps := [⟨"bay", [PatternPlan.ofFile "ebb" "tide.mesh", PatternPlan.ofFile "tide" "tide.mesh"]⟩,
      ⟨"lake", []⟩, ⟨"sound", [PatternPlan.ofFile "tide" "tide.mesh"]⟩] }

/-- The seed of the second pattern is zero. -/
theorem fleet_spec_bays :
    ∃ f, fleet Run.readTriangle ChaCha.seeding [] bays = Except.ok f ∧
      f.IsInOrder Run.readTriangle ChaCha.seeding [] bays ∧
      f.patterns.map (fun x => x.2.source) =
        [ChaCha.ofSeed 18446744073709551615, ChaCha.ofSeed 0, ChaCha.ofSeed 1] := by
  have hok : (fleet Run.readTriangle ChaCha.seeding [] bays).toOption.isSome = true := by
    decide +kernel
  have hseeds : (List.range bays.patterns.length).map
      (fun k => UInt64.ofNat ((18446744073709551615 : UInt64).toNat + k)) =
        [18446744073709551615, 0, 1] := by decide
  obtain ⟨-, horder, -⟩ := fleet_spec Run.readTriangle ChaCha.seeding [] bays
  cases hf : fleet Run.readTriangle ChaCha.seeding [] bays with
  | error e => simp [hf, Except.toOption] at hok
  | ok f =>
      refine ⟨f, rfl, horder f hf, ?_⟩
      rw [(horder f hf).sources _ rfl]
      exact (List.map_map ..).symm.trans (congrArg (List.map ChaCha.ofSeed) hseeds)

end Setup

end CurrentDrift
