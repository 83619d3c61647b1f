import CurrentDrift.Proofs.Drift.Crew
import CurrentDrift.Proofs.Drift.Likeness
import CurrentDrift.Proofs.Drift.Members

/-! # Forecast particles

A forecast particle follows the flow as it is. Main statement: in the runs of two fleets with the
same flow one function moves the forecast particles of both, whatever becomes of the uncertain
particles, their velocity errors and the random sources. -/

namespace CurrentDrift

variable {α β γ β' γ' : Type}

/-- The supply always brings the table up to date. -/
def TableSupply.NeverFails (α β γ : Type) [TableSupply α β γ] : Prop :=
  ∀ m b g table, (TableSupply.renew m b g table : Renewed α β γ).outcome = .ok ()

theorem Sampler.neverFails [Scalar α] [RandomSource α γ] :
    TableSupply.NeverFails α (Sampler α) γ := by
  intro m b g table
  change (Sampler.renew m b g table).outcome = .ok ()
  unfold Sampler.renew
  dsimp only
  split
  · rfl
  · split <;> rfl

variable [Scalar α]

/-! ## How far a particle is moved whose velocity is not varied -/

/-- How far a pattern moves a particle under a scale if it does not vary the velocity. -/
def Pattern.carry (p : Pattern α β γ) (clock : Clock α) (scale : α) (point : Point) :
    Displacement α :=
  if p.isActive clock.now then
    match (p.flowUnder scale clock.now point).map Prod.fst with
    | .ok velocity => velocity.carry point clock.step
    | .error _ => Displacement.zero
  else Displacement.zero

theorem Pattern.FlowsLike.carry {p : Pattern α β γ} {q : Pattern α β' γ'} (h : p.FlowsLike q)
    (clock : Clock α) (scale : α) (point : Point) :
    q.carry clock scale point = p.carry clock scale point := by
  rw [Pattern.carry, Pattern.carry, h.isActive, h.map_fst_flowUnder]

namespace Swarm

theorem kind_of_mem_forecastParticles (ps : Swarm) {q : Particle}
    (hq : q ∈ ps.forecastParticles) : q.kind = .forecast := by
  obtain ⟨⟨p, i⟩, -, rfl⟩ := List.mem_map.mp hq
  rfl

theorem map_forecastParticles {δ : Type} (ps : Swarm) (g : Point → δ) :
    ps.forecastParticles.map (fun q => g q.position) = ps.forecast.map g := by
  rw [forecastParticles, List.map_map]
  conv_rhs => rw [← List.zipIdx_map_fst 0 ps.forecast, List.map_map]
  rfl

theorem map_uncertainParticles {δ : Type} (ps : Swarm) (g : Point → δ) :
    ps.uncertainParticles.map (fun q => g q.position) = ps.uncertain.map g := by
  rw [uncertainParticles, List.map_map]
  conv_rhs => rw [← List.zipIdx_map_fst 0 ps.uncertain, List.map_map]
  rfl

end Swarm

namespace Fleet

/-- How far patterns together move a particle under their scales if they do not vary velocities. -/
def carry (f : Fleet α β γ) (is : List f.Index) (clock : Clock α) (scale : f.Index → α)
    (point : Point) : Displacement α :=
  Displacement.sum (is.map fun i => (f.pattern i).carry clock (scale i) point)

theorem FlowsLike.carry {f : Fleet α β γ} {g : Fleet α β' γ'} (h : f.FlowsLike g)
    (is : List f.Index) (clock : Clock α) {scale : f.Index → α} {scale' : g.Index → α}
    (hscale : ∀ i, scale' (h.index i) = scale i) (point : Point) :
    g.carry (is.map h.index) clock scale' point = f.carry is clock scale point := by
  unfold Fleet.carry
  rw [List.map_map]
  congr 1
  refine List.map_congr_left fun i _ => ?_
  rw [Function.comp_apply, hscale, (h.pattern_index i).carry]

/-! ## Moves in a prepared fleet -/

/-- All patterns are prepared. -/
def IsPrepared {f : Fleet α β γ} (s : f.States) : Prop := ∀ i, (s.get i).step.isPrepared = true

section Moving

variable [RandomSource α γ] {f : Fleet α β γ} {s : f.States}

/-- The velocity of a forecast particle is not varied, and where there is no table that of an
uncertain one is not either. -/
theorem move_of_unvaried (m : Moment α) {i : f.Index} (hi : (s.get i).step.isPrepared = true)
    {particle : Particle} (hp : particle.kind = .forecast ∨ (s.get i).table = none) :
    f.move m s i particle m.clock.step =
      ((f.pattern i).carry m.clock (s.get i).scale particle.position, s) := by
  unfold move Pattern.carry
  rw [scaledFlow_of_isPrepared f _ s i _ hi]
  cases (f.pattern i).isActive m.clock.now with
  | false => rfl
  | true =>
      cases (f.pattern i).flowUnder (s.get i).scale m.clock.now particle.position with
      | error e => rfl
      | ok v =>
          rcases hp with hkind | htable
          · simp [hkind, Except.map]
          · cases particle.kind <;> simp [varied, htable, Except.map]

theorem moveAll_of_unvaried (m : Moment α) (hs : IsPrepared s) (is : List f.Index)
    (particles : List Particle)
    (hp : ∀ p ∈ particles, p.kind = .forecast ∨ ∀ i, (s.get i).table = none) :
    f.moveAll m (is.map .current) s particles =
      (particles.map fun p => f.carry is m.clock (fun i => (s.get i).scale) p.position, s) := by
  let D (p : Particle) : Member f → Displacement α
    | .current i => (f.pattern i).carry m.clock (s.get i).scale p.position
    | .other mover => mover.move m p m.clock.step
  unfold moveAll Fleet.carry
  rw [Crew.moveAll_of_kept (D := D)]
  · simp only [List.map_map]
    rfl
  · intro p hp' x hx
    obtain ⟨i, -, rfl⟩ := List.mem_map.mp hx
    exact move_of_unvaried m (hs i) ((hp p hp').imp_right fun h => h i)

/-- Moves take random words and change nothing else. -/
theorem scaling_move_of_isPrepared (m : Moment α) {i : f.Index}
    (hi : (s.get i).step.isPrepared = true) (k : f.Index) (particle : Particle) (dt : α) :
    ((f.move m s i particle dt).2.get k).scaling = (s.get k).scaling := by
  rw [scaling_move, scaledFlow_of_isPrepared f _ s i _ hi, ite_self]

omit [Scalar α] [RandomSource α γ] in
theorem IsPrepared.congr {s' : f.States} (hs : IsPrepared s)
    (h : ∀ k, (s'.get k).scaling = (s.get k).scaling) : IsPrepared s' := by
  intro i
  rw [PatternStatus.step_eq_of_scaling_eq (h i)]
  exact hs i

theorem scaling_moveMember (m : Moment α) (hs : IsPrepared s) (x : Member f)
    (k : f.Index) (particle : Particle) (dt : α) :
    ((f.simple.moveMember m s particle dt x).2.get k).scaling = (s.get k).scaling := by
  cases x with
  | current i => exact scaling_move_of_isPrepared m (hs i) k particle dt
  | other mover => rfl

theorem scaling_moveAll (m : Moment α) (hs : IsPrepared s)
    (ready : List (Member f)) (k : f.Index) (particles : List Particle) :
    ((f.moveAll m ready s particles).2.get k).scaling = (s.get k).scaling := by
  let R (s t : f.States) : Prop := IsPrepared s → ∀ k, (t.get k).scaling = (s.get k).scaling
  have htrans {s t u : f.States} (h : R s t) (h' : R t u) : R s u := fun hs k =>
    (h' (hs.congr (h hs)) k).trans (h hs k)
  exact Crew.moveAll_rel (R := R) (fun _ _ _ => rfl) htrans
    (fun s q x hs k => scaling_moveMember m hs x k q m.clock.step) ready s particles hs k

end Moving

/-! ## Preparing a fleet -/

section Preparing

variable [TableSupply α β γ] {f : Fleet α β γ}

theorem isPrepared_prepare (hn : TableSupply.NeverFails α β γ) (m : Moment α) (s : f.States)
    (i k : f.Index) (hk : k = i ∨ (s.get k).step.isPrepared = true) :
    ((f.prepare m s i).2.get k).step.isPrepared = true := by
  by_cases hki : k = i
  · subst hki
    rw [step_prepare_of_ok f m s k (hn ..)]
    rfl
  · rw [step_prepare_of_ne f m s hki]
    exact hk.resolve_left hki

theorem isPrepared_prepareAll (hn : TableSupply.NeverFails α β γ) (m : Moment α) (s : f.States)
    (is : List f.Index) (k : f.Index) (hk : k ∈ is ∨ (s.get k).step.isPrepared = true) :
    ((f.prepareAll m s (is.map .current)).2.get k).step.isPrepared = true := by
  induction is generalizing s with
  | nil => exact hk.resolve_left List.not_mem_nil
  | cons i is ih =>
      apply ih (f.prepare m s i).2
      rw [List.mem_cons, or_assoc, or_left_comm] at hk
      exact hk.imp_right (isPrepared_prepare hn m s i k)

theorem ready_prepareAll (hn : TableSupply.NeverFails α β γ) (m : Moment α) (s : f.States)
    (is : List f.Index) :
    Crew.ready (f.prepareAll m s (is.map .current)).1 = is.map .current := by
  refine Crew.ready_prepareAll_of_ok (fun s x hx => ?_) s
  obtain ⟨i, -, rfl⟩ := List.mem_map.mp hx
  change (f.prepare m s i).1 = .ok ()
  rw [prepare_of_ok f m s i (hn ..)]

theorem isPrepared_prepareAll_members (hf : f.HasOnlyPatterns)
    (hn : TableSupply.NeverFails α β γ) (m : Moment α) (s : f.States) :
    IsPrepared (f.prepareAll m s f.members).2 := by
  intro i
  rw [hf.members_eq]
  exact isPrepared_prepareAll hn m s _ i (.inl (List.mem_finRange i))

theorem ready_prepareAll_members (hf : f.HasOnlyPatterns) (hn : TableSupply.NeverFails α β γ)
    (m : Moment α) (s : f.States) :
    Crew.ready (f.prepareAll m s f.members).1 = (List.finRange f.patterns.length).map .current := by
  rw [hf.members_eq]
  exact ready_prepareAll hn m s _

end Preparing

/-! ## One step -/

theorem step_eq [TableSupply α β γ] [RandomSource α γ] (f : Fleet α β γ) (m : Moment α)
    (s : f.States) (ps : Swarm) :
    f.step m s ps =
      let prepared := f.prepareAll m s f.members
      let forecast := f.moveAll m (Crew.ready prepared.1) prepared.2 ps.forecastParticles
      let uncertain := f.moveAll m (Crew.ready prepared.1) forecast.2 ps.uncertainParticles
      (⟨Point.movedBy ps.forecast forecast.1, Point.movedBy ps.uncertain uncertain.1⟩,
        f.finishAll uncertain.2) :=
  rfl

/-- What a step does in a fleet whose patterns can all prepare: it carries the forecast particles
under the scales of the prepared patterns, and no move changes a scale before the step ends. -/
theorem step_of_neverFails [TableSupply α β γ] [RandomSource α γ] {f : Fleet α β γ}
    (hf : f.HasOnlyPatterns) (hn : TableSupply.NeverFails α β γ) (m : Moment α) (s : f.States)
    (ps : Swarm) :
    let s' := (f.prepareAll m s f.members).2
    (f.step m s ps).1.forecast =
        ps.forecast.map (fun p => p.moved
          (f.carry (List.finRange _) m.clock (fun i => (s'.get i).scale) p)) ∧
      ∃ s'' : f.States, (∀ k, (s''.get k).scaling = (s'.get k).scaling) ∧
        (f.step m s ps).2 = f.finishAll s'' := by
  intro s'
  let is := List.finRange f.patterns.length
  -- The moves meet prepared patterns only, which answer by what they have stored.
  have hs' : IsPrepared s' := isPrepared_prepareAll_members hf hn m s
  have hready : Crew.ready (f.prepareAll m s f.members).1 = is.map .current :=
    ready_prepareAll_members hf hn m s
  have hforecast := moveAll_of_unvaried m hs' is ps.forecastParticles fun p hp =>
    .inl (ps.kind_of_mem_forecastParticles hp)
  constructor
  · change Point.movedBy ps.forecast (f.moveAll m (Crew.ready (f.prepareAll m s f.members).1) s'
      ps.forecastParticles).1 = _
    rw [hready, hforecast, ps.map_forecastParticles, Crew.movedBy_map]
  · refine ⟨(f.moveAll m (is.map .current) s' ps.uncertainParticles).2,
      fun k => scaling_moveAll m hs' _ k _, ?_⟩
    change f.finishAll (f.moveAll m (Crew.ready (f.prepareAll m s f.members).1)
      (f.moveAll m (Crew.ready (f.prepareAll m s f.members).1) s' ps.forecastParticles).2
      ps.uncertainParticles).2 = _
    rw [hready, hforecast]

/-! ## Two fleets with the same flow -/

namespace FlowsLike

variable {f : Fleet α β γ} {g : Fleet α β' γ'} {h : f.FlowsLike g} {s : f.States} {t : g.States}

theorem Alike.congr {s' : f.States} {t' : g.States} (hst : h.Alike s t)
    (hs : ∀ i, (s'.get i).scaling = (s.get i).scaling)
    (ht : ∀ i, (t'.get i).scaling = (t.get i).scaling) : h.Alike s' t' := by
  intro i
  rw [PatternStatus.shown_eq_of_scaling_eq (hs i), PatternStatus.shown_eq_of_scaling_eq (ht _)]
  exact hst i

theorem Alike.finish (hst : h.Alike s t) (i : f.Index) :
    h.Alike (f.finish s i) (g.finish t (h.index i)) :=
  hst.put i (PatternStatus.shown_withStep (hst i) rfl)

theorem members_eq (h : f.FlowsLike g) (hf : f.HasOnlyPatterns) (hg : g.HasOnlyPatterns) :
    ∃ is : List f.Index, f.members = is.map .current ∧ g.members = (is.map h.index).map .current :=
  ⟨_, hf.members_eq, by rw [hg.members_eq, finRange_eq_map_cast h.size]; rfl⟩

theorem Alike.finishAll (hst : h.Alike s t) (hf : f.HasOnlyPatterns) (hg : g.HasOnlyPatterns) :
    h.Alike (f.finishAll s) (g.finishAll t) := by
  obtain ⟨is, hfm, hgm⟩ := h.members_eq hf hg
  rw [Fleet.finishAll, Fleet.finishAll, hfm, hgm]
  clear hfm hgm
  induction is generalizing s t with
  | nil => exact hst
  | cons i is ih => exact ih (hst.finish i)

section Preparing

variable [TableSupply α β γ] [TableSupply α β' γ']

/-- Where nothing fails, preparing depends on the clock of the moment alone. -/
theorem Alike.prepare (hst : h.Alike s t) (hn : TableSupply.NeverFails α β γ)
    (hn' : TableSupply.NeverFails α β' γ') {m m' : Moment α} (hm : m'.clock = m.clock)
    (i : f.Index) : h.Alike (f.prepare m s i).2 (g.prepare m' t (h.index i)).2 := by
  rw [prepare_of_ok f m s i (hn ..), prepare_of_ok g m' t _ (hn' ..), hm]
  have htable : h.Alike (f.withTable m s i) (g.withTable m' t (h.index i)) :=
    hst.congr (f.scaling_withTable m s i) (g.scaling_withTable m' t (h.index i))
  have hscale := (htable.resolveScale m.clock.now i).2
  exact hscale.put i (PatternStatus.shown_withStep (hscale i) rfl)

theorem Alike.prepareAll (hst : h.Alike s t) (hn : TableSupply.NeverFails α β γ)
    (hn' : TableSupply.NeverFails α β' γ') {m m' : Moment α} (hm : m'.clock = m.clock)
    (is : List f.Index) :
    h.Alike (f.prepareAll m s (is.map .current)).2
      (g.prepareAll m' t ((is.map h.index).map .current)).2 := by
  induction is generalizing s t with
  | nil => exact hst
  | cons i is ih => exact ih (hst.prepare hn hn' hm i)

variable [RandomSource α γ] [RandomSource α γ']

/-- One function moves the forecast particles of both fleets in a step; the states stay alike. -/
theorem Alike.step (hst : h.Alike s t) (hf : f.HasOnlyPatterns) (hg : g.HasOnlyPatterns)
    (hn : TableSupply.NeverFails α β γ) (hn' : TableSupply.NeverFails α β' γ') {m m' : Moment α}
    (hm : m'.clock = m.clock) (ps ps' : Swarm) :
    h.Alike (f.step m s ps).2 (g.step m' t ps').2 ∧
      ∃ move : Point → Point, (f.step m s ps).1.forecast = ps.forecast.map move ∧
        (g.step m' t ps').1.forecast = ps'.forecast.map move := by
  obtain ⟨is, hfm, hgm⟩ := h.members_eq hf hg
  have hprepared := hst.prepareAll hn hn' hm is
  rw [← hfm, ← hgm] at hprepared
  obtain ⟨hforecast, s'', hs'', hstates⟩ := step_of_neverFails hf hn m s ps
  obtain ⟨hforecast', t'', ht'', hstates'⟩ := step_of_neverFails hg hn' m' t ps'
  constructor
  · rw [hstates, hstates']
    exact (hprepared.congr hs'' ht'').finishAll hf hg
  · refine ⟨_, hforecast, hforecast'.trans (List.map_congr_left fun p _ => ?_)⟩
    rw [hm, finRange_eq_map_cast h.size]
    congr 1
    exact h.carry _ _ (fun i => (PatternStatus.shown_eq_iff.mp (hprepared i)).1) p

/-! ## Runs -/

/-- One function moves the forecast particles of two runs that begin at the same time in states that
are alike, for any number of steps and with or without uncertain particles. -/
theorem Alike.steps (hf : f.HasOnlyPatterns) (hg : g.HasOnlyPatterns)
    (hn : TableSupply.NeverFails α β γ) (hn' : TableSupply.NeverFails α β' γ')
    (isUncertain isUncertain' : Bool) (n : Nat) {r : RunState f} {r' : RunState g}
    (hst : h.Alike r.states r'.states) (hclock : r'.clock = r.clock) :
    ∃ move : Point → Point,
      (r.steps isUncertain n).particles.forecast = r.particles.forecast.map move ∧
        (r'.steps isUncertain' n).particles.forecast = r'.particles.forecast.map move := by
  induction n generalizing r r' with
  | zero => exact ⟨id, (List.map_id _).symm, (List.map_id _).symm⟩
  | succ n ih =>
      -- The moments of both runs differ in what they say about uncertain particles only.
      have hm : (r'.moment isUncertain').clock = (r.moment isUncertain).clock := by
        cases isUncertain <;> cases isUncertain' <;> exact hclock
      obtain ⟨hstates, first, hfirst, hfirst'⟩ :=
        hst.step hf hg hn hn' hm r.particles r'.particles
      change h.Alike (r.step isUncertain).states (r'.step isUncertain').states at hstates
      obtain ⟨rest, hrest, hrest'⟩ := ih hstates (congrArg Clock.advance hclock)
      refine ⟨rest ∘ first, hrest.trans ?_, hrest'.trans ?_⟩
      · rw [← List.map_map]
        exact congrArg _ hfirst
      · rw [← List.map_map]
        exact congrArg _ hfirst'

end Preparing

end FlowsLike

end Fleet

end CurrentDrift
