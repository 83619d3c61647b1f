import CurrentDrift.Proofs.Drift.History

/-! # What the states of patterns say

The parts of a state belong together: what is known about the scale, the scale itself, and what is
stored for the step. Main statement: they fit each other after any operations from the beginning of
a run on, whatever supplies the tables of velocity errors and however often it fails. -/

namespace CurrentDrift

variable {α β γ : Type} [Scalar α]

/-! ## States that fit together -/

/-- The parts of a state fit each other. -/
structure PatternStatus.IsConsistent (x : PatternStatus α β γ) : Prop where
  lacking : x.lacksScale = true → x.scale = 0.0 ∧ x.isScaled = true
  unscaled : x.isScaled = false → x.scale = 1.0 ∧ x.lacksScale = false
  prepared : x.step.isPrepared = true → x.isScaled = true
  cleared : x.step.isPrepared = false → x.step = StepData.cleared

namespace PatternStatus

theorem isConsistent_start (p : Pattern α β γ) : p.start.IsConsistent where
  lacking h := nomatch h
  unscaled _ := ⟨rfl, rfl⟩
  prepared h := nomatch h
  cleared _ := rfl

theorem isScaled_withOutcome (x : PatternStatus α β γ) (outcome : Except (DriftError α) α) :
    (x.withOutcome outcome).isScaled = true := by
  cases outcome <;> rfl

theorem lacking_withOutcome (x : PatternStatus α β γ) (outcome : Except (DriftError α) α)
    (h : (x.withOutcome outcome).lacksScale = true) : (x.withOutcome outcome).scale = 0.0 := by
  cases outcome with
  | ok scale => contradiction
  | error e => rfl

namespace IsConsistent

variable {x y : PatternStatus α β γ}

theorem congr (hx : x.IsConsistent) (h : y.scaling = x.scaling) : y.IsConsistent := by
  simp only [scaling, Prod.mk.injEq] at h
  obtain ⟨hscale, hscaled, hlacks, hstep, -⟩ := h
  constructor
  · rw [hlacks, hscale, hscaled]
    exact hx.lacking
  · rw [hlacks, hscale, hscaled]
    exact hx.unscaled
  · rw [hstep, hscaled]
    exact hx.prepared
  · rw [hstep]
    exact hx.cleared

theorem withOutcome (hx : x.IsConsistent) (outcome : Except (DriftError α) α) :
    (x.withOutcome outcome).IsConsistent := by
  have hscaled := x.isScaled_withOutcome outcome
  have hstep := step_eq_of_base_eq (x.base_withOutcome outcome)
  constructor
  · exact fun h => ⟨x.lacking_withOutcome outcome h, hscaled⟩
  · simp [hscaled]
  · exact fun _ => hscaled
  · rw [hstep]
    exact hx.cleared

/-- A pattern that has a scale, or knows that there is none, can be prepared. -/
theorem withStep (hx : x.IsConsistent) (hscaled : x.isScaled = true) {step : StepData α}
    (hstep : step.isPrepared = true) : PatternStatus.IsConsistent { x with step } where
  lacking := hx.lacking
  unscaled := hx.unscaled
  prepared _ := hscaled
  cleared h := by simp [hstep] at h

theorem withCleared (hx : x.IsConsistent) :
    PatternStatus.IsConsistent { x with step := StepData.cleared } where
  lacking := hx.lacking
  unscaled := hx.unscaled
  prepared h := nomatch h
  cleared _ := rfl

end IsConsistent

end PatternStatus

namespace Fleet

/-- All states fit together, and no scale is being worked out. -/
def IsSettled {f : Fleet α β γ} (s : f.States) : Prop :=
  ∀ i, (s.get i).IsConsistent ∧ (s.get i).isResolving = false

theorem isSettled_start (f : Fleet α β γ) : IsSettled f.start := by
  intro i
  rw [get_start]
  exact ⟨PatternStatus.isConsistent_start _, rfl⟩

/-! ## Scales -/

theorem isConsistent_resolveScale (f : Fleet α β γ) (time : α) (s : f.States) (i k : f.Index)
    (hk : (s.get k).IsConsistent) : ((f.resolveScale time s i).2.get k).IsConsistent := by
  rcases f.get_resolveScale time s i k with h | ⟨outcome, h⟩
  · rwa [h]
  · rw [h]
    exact hk.withOutcome outcome

theorem isConsistent_scaledFlow (f : Fleet α β γ) (time : α) (s : f.States) (i k : f.Index)
    (point : Point) (hk : (s.get k).IsConsistent) :
    ((f.scaledFlow time s i point).2.get k).IsConsistent := by
  rw [scaledFlow_snd]
  split
  · exact f.isConsistent_resolveScale time s i k hk
  · exact hk

theorem isScaled_resolveScale (f : Fleet α β γ) (time : α) (s : f.States) (i : f.Index)
    (hi : (s.get i).isResolving = false) :
    ((f.resolveScale time s i).2.get i).isScaled = true := by
  cases hh : (f.pattern i).hydrology? with
  | some scale =>
      rw [resolveScale_of_hydrology f time s hh, States.get_put_self]
      rfl
  | none =>
      rw [resolveScale_of_idle f time s hh hi, States.get_put_self]
      exact PatternStatus.isScaled_withOutcome _ _

/-! ## Moves -/

section Moving

variable [RandomSource α γ]

theorem step_move (f : Fleet α β γ) (m : Moment α) (s : f.States) (i k : f.Index)
    (particle : Particle) (dt : α) :
    ((f.move m s i particle dt).2.get k).step = (s.get k).step := by
  rw [PatternStatus.step_eq_of_scaling_eq (f.scaling_move m s i k particle dt)]
  split
  · exact PatternStatus.step_eq_of_base_eq (f.base_scaledFlow _ s i k _)
  · rfl

/-- What every move keeps, the moves of several particles keep. -/
theorem moveEach_induction {f : Fleet α β γ} {P : f.States → Prop} (m : Moment α) (i : f.Index)
    (dt : α) (hmove : ∀ s particle, P s → P (f.move m s i particle dt).2) (s : f.States)
    (particles : List Particle) (hs : P s) : P (f.moveEach m s i particles dt).2 := by
  induction particles generalizing s with
  | nil => exact hs
  | cons p ps ih => exact ih _ (hmove s p hs)

theorem step_moveEach (f : Fleet α β γ) (m : Moment α) (s : f.States) (i k : f.Index)
    (particles : List Particle) (dt : α) :
    ((f.moveEach m s i particles dt).2.get k).step = (s.get k).step := by
  apply moveEach_induction (P := fun s' => (s'.get k).step = (s.get k).step) m i dt _ s _ rfl
  intro s' p hs'
  rw [step_move, hs']

end Moving

/-! ## Preparing -/

variable [TableSupply α β γ]

theorem isConsistent_prepare (f : Fleet α β γ) (m : Moment α) (s : f.States) (i k : f.Index)
    (hs : IsSettled s) : ((f.prepare m s i).2.get k).IsConsistent := by
  have htable : ∀ l, ((f.withTable m s i).get l).IsConsistent := fun l =>
    (hs l).1.congr (f.scaling_withTable m s i l)
  cases hr : (f.renewal m s i).outcome with
  | error e =>
      rw [prepare_of_error f m s i hr]
      exact htable k
  | ok u =>
      have hscaled := f.isConsistent_resolveScale m.clock.now _ i k (htable k)
      rw [prepare_of_ok f m s i hr, States.get_put]
      split
      · next hik =>
        subst hik
        apply hscaled.withStep _ rfl
        apply isScaled_resolveScale
        rw [PatternStatus.isResolving_eq_of_scaling_eq (f.scaling_withTable m s i i)]
        exact (hs i).2
      · exact hscaled

/-- A preparation that fails changes nothing that queries of scales depend on. -/
theorem scaling_prepare_of_error (f : Fleet α β γ) (m : Moment α) (s : f.States) (k i : f.Index)
    {e : DriftError α} (h : (f.prepare m s k).1 = .error e) :
    ((f.prepare m s k).2.get i).scaling = (s.get i).scaling := by
  cases hr : (f.renewal m s k).outcome with
  | error e' =>
      rw [prepare_of_error f m s k hr]
      exact f.scaling_withTable m s k i
  | ok u =>
      rw [prepare_of_ok f m s k hr] at h
      contradiction

/-! ## Operations -/

variable [RandomSource α γ]

theorem isSettled_apply {f : Fleet α β γ} {s : f.States} (hs : IsSettled s) (call : Call f) :
    IsSettled (call.apply s) := by
  intro k
  refine ⟨?_, (isResolving_apply s call k).trans (hs k).2⟩
  cases call with
  | prepare m i => exact f.isConsistent_prepare m s i k hs
  | query time i point => exact f.isConsistent_scaledFlow time s i k point (hs k).1
  | rescale time i => exact f.isConsistent_resolveScale time s i k (hs k).1
  | move m i particle dt =>
      apply PatternStatus.IsConsistent.congr _ (f.scaling_move m s i k particle dt)
      split
      · exact f.isConsistent_scaledFlow m.clock.now s i k _ (hs k).1
      · exact (hs k).1
  | finish i =>
      rw [Call.apply, finish, States.get_put]
      split
      · next hik =>
        subst hik
        exact (hs i).1.withCleared
      · exact (hs k).1

/-- What a fleet can be asked for: a call on a pattern, or a pattern's moves of particles. -/
inductive Operation (f : Fleet α β γ) where
  | single (call : Call f)
  | moveEach (m : Moment α) (i : f.Index) (particles : List Particle) (dt : α)

def Operation.apply {f : Fleet α β γ} (s : f.States) : Operation f → f.States
  | .single call => call.apply s
  | .moveEach m i particles dt => (f.moveEach m s i particles dt).2

/-- The states after operations, the latest one first, from the beginning of a run on. -/
def afterOperations (f : Fleet α β γ) : List (Operation f) → f.States
  | [] => f.start
  | operation :: past => operation.apply (f.afterOperations past)

theorem isSettled_afterOperations (f : Fleet α β γ) (operations : List (Operation f)) :
    IsSettled (f.afterOperations operations) := by
  induction operations with
  | nil => exact f.isSettled_start
  | cons operation past ih =>
      rw [afterOperations]
      cases operation with
      | single call => exact isSettled_apply ih call
      | moveEach m i particles dt =>
          apply moveEach_induction m i dt _ _ particles ih
          exact fun s p hs => isSettled_apply hs (.move m i p dt)

/-! ## What is stored for a step -/

/-- The clock of the latest preparation of a pattern that has succeeded, if the pattern has not
finished its step since. -/
def preparedBy? (f : Fleet α β γ) : List (Operation f) → f.Index → Option (Clock α)
  | [], _ => none
  | .single (.prepare m k) :: past, i =>
    match (f.prepare m (f.afterOperations past) k).1 with
    | .ok () => if k = i then some m.clock else f.preparedBy? past i
    | .error _ => f.preparedBy? past i
  | .single (.finish k) :: past, i => if k = i then none else f.preparedBy? past i
  | _ :: past, i => f.preparedBy? past i

/-- A pattern has stored what its latest preparation has worked out, and nothing between steps. -/
theorem step_afterOperations (f : Fleet α β γ) (operations : List (Operation f)) (i : f.Index) :
    ((f.afterOperations operations).get i).step =
      match f.preparedBy? operations i with
      | some clock => f.stepData clock i
      | none => StepData.cleared := by
  induction operations with
  | nil =>
      rw [afterOperations, get_start]
      rfl
  | cons operation past ih =>
      rw [afterOperations]
      cases operation with
      | moveEach m k particles dt => exact (f.step_moveEach m _ k i particles dt).trans ih
      | single call =>
          cases call with
          | query time k point =>
              exact (PatternStatus.step_eq_of_base_eq (f.base_scaledFlow time _ k i point)).trans ih
          | rescale time k =>
              exact (PatternStatus.step_eq_of_base_eq (f.base_resolveScale time _ k i)).trans ih
          | move m k particle dt => exact (f.step_move m _ k i particle dt).trans ih
          | finish k =>
              rw [Operation.apply, Call.apply, finish, States.get_put, preparedBy?]
              split
              · rfl
              · exact ih
          | prepare m k =>
              rw [Operation.apply, Call.apply, preparedBy?]
              cases hr : (f.renewal m (f.afterOperations past) k).outcome with
              | error e =>
                  rw [prepare_of_error f m _ k hr,
                    PatternStatus.step_eq_of_scaling_eq (f.scaling_withTable m _ k i)]
                  exact ih
              | ok u =>
                  have hok : (f.prepare m (f.afterOperations past) k).1 = .ok () := by
                    rw [prepare_of_ok f m _ k hr]
                  simp only [hok]
                  by_cases hki : k = i
                  · subst hki
                    rw [if_pos rfl]
                    exact f.step_prepare_of_ok m _ k hr
                  · rw [if_neg hki]
                    exact (f.step_prepare_of_ne m _ (Ne.symm hki)).trans ih

/-- After any operations, in whatever order they come and at whatever times, the state of every
pattern fits together; a pattern is prepared exactly if a preparation has succeeded since it last
finished a step, and then it has stored what belongs to the clock of the latest one; and a
preparation that fails changes neither scales nor what is stored. -/
theorem isConsistent_afterOperations (f : Fleet α β γ) (operations : List (Operation f))
    (i : f.Index) :
    let s := f.afterOperations operations
    let x := s.get i
    x.IsConsistent ∧
    (x.step.isPrepared = true ↔ (f.preparedBy? operations i).isSome = true) ∧
    (∀ clock, f.preparedBy? operations i = some clock →
      x.step.isFirst = clock.isFirst ∧
        x.step.walkSpeed = (f.pattern i).eddy.walkSpeed clock.step) ∧
    ∀ m k e, (f.prepare m s k).1 = .error e →
      let y := (f.prepare m s k).2.get i
      y.scale = x.scale ∧ y.isScaled = x.isScaled ∧ y.lacksScale = x.lacksScale ∧
        y.step = x.step := by
  intro s x
  have hstep : x.step = _ := f.step_afterOperations operations i
  refine ⟨(f.isSettled_afterOperations operations i).1, ?_, ?_, ?_⟩
  · rw [hstep]
    cases f.preparedBy? operations i <;> simp [stepData, StepData.cleared]
  · intro clock hclock
    rw [hstep, hclock]
    exact ⟨rfl, rfl⟩
  · intro m k e he y
    have hy : y.scaling = x.scaling := f.scaling_prepare_of_error m s k i he
    simp only [PatternStatus.scaling, Prod.mk.injEq] at hy
    exact ⟨hy.1, hy.2.1, hy.2.2.1, hy.2.2.2.1⟩

end Fleet

end CurrentDrift
