import CurrentDrift.Proofs.Drift.Forecast
import CurrentDrift.Proofs.Drift.TableLifetime

/-! # Before velocity errors come into force

Main statement: as long as less time has elapsed than any pattern waits for, an uncertain particle
is where the forecast particle is that has started with it, and no pattern takes a random word. -/

namespace CurrentDrift

variable {α γ : Type}

/-- What a pattern needs for velocity errors: its table, the parameters of its supply, and its
random source. -/
def PatternStatus.spread (x : PatternStatus α (Sampler α) γ) :
    Option (SpreadTable α) × SpreadParams α × γ :=
  (x.table, x.supply.params, x.source)

theorem PatternStatus.spread_eq_of_base_eq {x y : PatternStatus α (Sampler α) γ}
    (h : x.base = y.base) : x.spread = y.spread := by
  simp only [base, Prod.mk.injEq] at h
  obtain ⟨-, htable, -, hsupply, hsource⟩ := h
  rw [spread, spread, htable, hsupply, hsource]

variable [Scalar α]

namespace Fleet

variable {f : Fleet α (Sampler α) γ} {m : Moment α} {s : f.States}

/-- No pattern has a table or has taken a random word since the beginning. -/
def IsUndisturbed (s : f.States) : Prop := ∀ i, (s.get i).spread = (f.pattern i).start.spread

theorem IsUndisturbed.table (hs : IsUndisturbed s) (i : f.Index) : (s.get i).table = none :=
  congrArg Prod.fst (hs i)

theorem IsUndisturbed.params (hs : IsUndisturbed s) (i : f.Index) :
    (s.get i).supply.params = (f.pattern i).supply.params :=
  congrArg (fun x => x.2.1) (hs i)

theorem IsUndisturbed.source (hs : IsUndisturbed s) (i : f.Index) :
    (s.get i).source = (f.pattern i).source :=
  congrArg (fun x => x.2.2) (hs i)

theorem IsUndisturbed.put (hs : IsUndisturbed s) {i : f.Index}
    {x : PatternStatus α (Sampler α) γ} (hx : x.spread = (s.get i).spread) :
    IsUndisturbed (s.put i x) :=
  fun k => (s.view_put PatternStatus.spread hx).trans (hs k)

theorem isUndisturbed_start (f : Fleet α (Sampler α) γ) : IsUndisturbed f.start :=
  fun i => congrArg PatternStatus.spread (f.get_start i)

/-! ## One step -/

/-- Less time has elapsed than any pattern waits for. -/
def IsEarly (f : Fleet α (Sampler α) γ) (clock : Clock α) : Prop :=
  ∀ i, clock.elapsed < (f.pattern i).supply.params.delay

variable [RandomSource α γ]

theorem renewal_of_isEarly (hm : f.IsEarly m.clock) (hs : IsUndisturbed s) (i : f.Index) :
    f.renewal m s i =
      ⟨.ok (), { (s.get i).supply with drawnAt := none }, (s.get i).source, none⟩ := by
  have hforce : (s.get i).supply.isInForce m = false := by
    rw [Sampler.isInForce, hs.params i, decide_eq_true (hm i), Bool.not_true, Bool.and_false]
  change Sampler.renew m (s.get i).supply (s.get i).source (s.get i).table = _
  rw [Sampler.renew, hforce]
  rfl

theorem isUndisturbed_prepare (hm : f.IsEarly m.clock) (hs : IsUndisturbed s) (i : f.Index) :
    IsUndisturbed (f.prepare m s i).2 := by
  have hrenewal := renewal_of_isEarly hm hs i
  have htable : IsUndisturbed (f.withTable m s i) := by
    refine hs.put ?_
    rw [hrenewal, PatternStatus.spread, PatternStatus.spread, hs.table i]
  have hscale : IsUndisturbed (f.resolveScale m.clock.now (f.withTable m s i) i).2 := fun k =>
    (PatternStatus.spread_eq_of_base_eq (f.base_resolveScale _ _ i k)).trans (htable k)
  rw [prepare_of_ok f m s i (congrArg Renewed.outcome hrenewal)]
  exact hscale.put rfl

theorem isUndisturbed_prepareAll (hm : f.IsEarly m.clock) (hs : IsUndisturbed s)
    (xs : List (Member f)) : IsUndisturbed (f.prepareAll m s xs).2 := by
  refine Crew.prepareAll_rel (R := fun s t => IsUndisturbed s → IsUndisturbed t) (fun _ => id)
    (fun h h' => h' ∘ h) (fun s x hs => ?_) s xs hs
  cases x with
  | current i => exact isUndisturbed_prepare hm hs i
  | other mover => exact hs

omit [RandomSource α γ] in
theorem isUndisturbed_finishAll (hs : IsUndisturbed s) : IsUndisturbed (f.finishAll s) := by
  unfold finishAll
  induction f.members generalizing s with
  | nil => exact hs
  | cons x xs ih =>
      cases x with
      | other mover => exact ih hs
      | current i => exact ih (hs.put rfl)

/-- One function moves all particles, whether or not they are uncertain. -/
theorem step_of_isEarly (hf : f.HasOnlyPatterns) (hm : f.IsEarly m.clock) (hs : IsUndisturbed s)
    (ps : Swarm) :
    IsUndisturbed (f.step m s ps).2 ∧
      ∃ move : Point → Point,
        (f.step m s ps).1 = ⟨ps.forecast.map move, ps.uncertain.map move⟩ := by
  let s' := (f.prepareAll m s f.members).2
  let is := List.finRange f.patterns.length
  let move : Point → Point := fun p =>
    p.moved (f.carry is m.clock (fun i => (s'.get i).scale) p)
  have hs' : IsUndisturbed s' := isUndisturbed_prepareAll hm hs f.members
  have hready : Crew.ready (f.prepareAll m s f.members).1 = is.map .current :=
    ready_prepareAll_members hf Sampler.neverFails m s
  have hmove : ∀ particles, f.moveAll m (is.map .current) s' particles =
      (particles.map fun q => f.carry is m.clock (fun i => (s'.get i).scale) q.position, s') :=
    fun particles => moveAll_of_unvaried m
      (isPrepared_prepareAll_members hf Sampler.neverFails m s) is particles fun _ _ =>
        .inr hs'.table
  have hstep : f.step m s ps =
      (⟨ps.forecast.map move, ps.uncertain.map move⟩, f.finishAll s') := by
    rw [step_eq]
    simp only [hready]
    rw [hmove, hmove, ps.map_forecastParticles, ps.map_uncertainParticles, Crew.movedBy_map,
      Crew.movedBy_map]
  rw [hstep]
  exact ⟨isUndisturbed_finishAll hs', move, rfl⟩

/-! ## Runs -/

/-- As long as the steps of a run are early, uncertain particles that start where the forecast ones
do stay with them. -/
theorem IsUndisturbed.steps (hf : f.HasOnlyPatterns) {isUncertain : Bool} {n : Nat}
    {r : RunState f} (hs : IsUndisturbed r.states)
    (hps : r.particles.uncertain = r.particles.forecast)
    (hearly : ∀ k < n, f.IsEarly (Clock.advance^[k] r.clock)) :
    IsUndisturbed (r.steps isUncertain n).states ∧
      (r.steps isUncertain n).particles.uncertain =
        (r.steps isUncertain n).particles.forecast := by
  induction n generalizing r with
  | zero => exact ⟨hs, hps⟩
  | succ n ih =>
      have hm : f.IsEarly (r.moment isUncertain).clock := by
        cases isUncertain <;> exact hearly 0 n.succ_pos
      obtain ⟨hstates, move, hmove⟩ := step_of_isEarly hf hm hs r.particles
      refine ih (r := r.step isUncertain) hstates ?_ fun k hk => hearly (k + 1) (by omega)
      change (f.step (r.moment isUncertain) r.states r.particles).1.uncertain =
        (f.step (r.moment isUncertain) r.states r.particles).1.forecast
      rw [hmove, hps]

end Fleet

end CurrentDrift
