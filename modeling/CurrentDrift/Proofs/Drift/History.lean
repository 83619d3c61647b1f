import CurrentDrift.Proofs.Drift.Frame

/-! # Histories of calls

A fleet is driven by calls on its patterns, in any order and with any clocks. A history lists the
calls that have been made, the latest one first. -/

namespace CurrentDrift

variable {α β γ : Type}

/-- What a query of the scale depends on: all but the table of velocity errors and what it is drawn
from. -/
def PatternStatus.scaling (x : PatternStatus α β γ) : α × Bool × Bool × StepData α × Bool :=
  (x.scale, x.isScaled, x.lacksScale, x.step, x.isResolving)

namespace PatternStatus

theorem scale_eq_of_scaling_eq {x y : PatternStatus α β γ} (h : x.scaling = y.scaling) :
    x.scale = y.scale :=
  congrArg Prod.fst h

theorem isScaled_eq_of_scaling_eq {x y : PatternStatus α β γ} (h : x.scaling = y.scaling) :
    x.isScaled = y.isScaled :=
  congrArg (fun a => a.2.1) h

theorem found_eq_of_scaling_eq {x y : PatternStatus α β γ} (h : x.scaling = y.scaling) :
    x.found = y.found := by
  rw [found_eq_iff]
  exact ⟨scale_eq_of_scaling_eq h, isScaled_eq_of_scaling_eq h, congrArg (fun a => a.2.2.1) h⟩

theorem step_eq_of_scaling_eq {x y : PatternStatus α β γ} (h : x.scaling = y.scaling) :
    x.step = y.step :=
  congrArg (fun a => a.2.2.2.1) h

theorem isResolving_eq_of_scaling_eq {x y : PatternStatus α β γ} (h : x.scaling = y.scaling) :
    x.isResolving = y.isResolving :=
  congrArg (fun a => a.2.2.2.2) h

end PatternStatus

namespace Fleet

/-- A call on one of the patterns. -/
inductive Call (f : Fleet α β γ) where
  | prepare (m : Moment α) (i : f.Index)
  | query (time : α) (i : f.Index) (point : Point)
  | rescale (time : α) (i : f.Index)
  | move (m : Moment α) (i : f.Index) (particle : Particle) (dt : α)
  | finish (i : f.Index)

/-- The call is made at a time of the clock; the end of a step takes no notice of the clock. -/
def Call.IsAt {f : Fleet α β γ} (time : α) : Call f → Prop
  | .prepare m _ => m.clock.now = time
  | .query t _ _ => t = time
  | .rescale t _ => t = time
  | .move m _ _ _ => m.clock.now = time
  | .finish _ => True

@[simp] theorem get_start [Scalar α] (f : Fleet α β γ) (i : f.Index) :
    f.start.get i = (f.pattern i).start := by
  simp [start, States.get]

/-! ## Preparing, in two parts -/

section Preparing

variable [TableSupply α β γ]

/-- What the supply of a pattern does at the beginning of a step. -/
def renewal (f : Fleet α β γ) (m : Moment α) (s : f.States) (i : f.Index) : Renewed α β γ :=
  TableSupply.renew m (s.get i).supply (s.get i).source (s.get i).table

/-- The states after that. -/
def withTable (f : Fleet α β γ) (m : Moment α) (s : f.States) (i : f.Index) : f.States :=
  let r := f.renewal m s i
  s.put i { s.get i with supply := r.supply, source := r.source, table := r.table }

theorem scaling_withTable (f : Fleet α β γ) (m : Moment α) (s : f.States) (i k : f.Index) :
    ((f.withTable m s i).get k).scaling = (s.get k).scaling :=
  s.view_put PatternStatus.scaling rfl

variable [Scalar α]

theorem prepare_of_error (f : Fleet α β γ) (m : Moment α) (s : f.States) (i : f.Index)
    {e : DriftError α} (h : (f.renewal m s i).outcome = .error e) :
    f.prepare m s i = (.error e, f.withTable m s i) := by
  unfold prepare
  simp only [renewal] at h
  simp only [h]
  rfl

theorem prepare_of_ok (f : Fleet α β γ) (m : Moment α) (s : f.States) (i : f.Index)
    (h : (f.renewal m s i).outcome = .ok ()) :
    f.prepare m s i =
      let s' := (f.resolveScale m.clock.now (f.withTable m s i) i).2
      (.ok (), s'.put i { s'.get i with step := f.stepData m.clock i }) := by
  unfold prepare
  simp only [renewal] at h
  simp only [h]
  rfl

theorem step_prepare_of_ok (f : Fleet α β γ) (m : Moment α) (s : f.States) (i : f.Index)
    (h : (f.renewal m s i).outcome = .ok ()) :
    ((f.prepare m s i).2.get i).step = f.stepData m.clock i := by
  rw [prepare_of_ok f m s i h]
  simp only [States.get_put_self]

theorem scale_prepare_of_ok (f : Fleet α β γ) (m : Moment α) (s : f.States) (i : f.Index)
    (h : (f.renewal m s i).outcome = .ok ()) :
    ((f.prepare m s i).2.get i).scale =
      ((f.resolveScale m.clock.now (f.withTable m s i) i).2.get i).scale := by
  rw [prepare_of_ok f m s i h]
  simp only [States.get_put_self]

theorem step_prepare_of_ne (f : Fleet α β γ) (m : Moment α) (s : f.States) {i k : f.Index}
    (h : k ≠ i) : ((f.prepare m s i).2.get k).step = (s.get k).step := by
  have htable := PatternStatus.step_eq_of_scaling_eq (f.scaling_withTable m s i k)
  cases hr : (f.renewal m s i).outcome with
  | error e => rw [prepare_of_error f m s i hr, htable]
  | ok u =>
      rw [prepare_of_ok f m s i hr, States.get_put_of_ne _ h, ← htable]
      exact PatternStatus.step_eq_of_base_eq (f.base_resolveScale _ _ i k)

theorem found_prepare (f : Fleet α β γ) (m : Moment α) (s : f.States) (i k : f.Index)
    (h : (f.renewal m s i).outcome = .ok ()) : ((f.prepare m s i).2.get k).found =
      ((f.resolveScale m.clock.now (f.withTable m s i) i).2.get k).found := by
  rw [prepare_of_ok f m s i h]
  exact States.view_put PatternStatus.found _ rfl

theorem found_prepare_of_isPrepared (f : Fleet α β γ) (m : Moment α) (s : f.States)
    {i k : f.Index} (hk : (s.get k).step.isPrepared = true) (hne : k ≠ i) :
    ((f.prepare m s i).2.get k).found = (s.get k).found := by
  have htable := f.scaling_withTable m s i k
  cases hr : (f.renewal m s i).outcome with
  | error e =>
      rw [prepare_of_error f m s i hr]
      exact PatternStatus.found_eq_of_scaling_eq htable
  | ok u =>
      rw [← PatternStatus.step_eq_of_scaling_eq htable] at hk
      rw [found_prepare f m s i k hr, get_resolveScale_of_isPrepared f _ _ i k hk hne]
      exact PatternStatus.found_eq_of_scaling_eq htable

end Preparing

/-! ## Moving, in two parts -/

section Moving

variable [Scalar α] [RandomSource α γ]

/-- Varying a velocity takes from the random source and changes nothing else. -/
theorem view_varied {δ : Type} (f : Fleet α β γ) (view : PatternStatus α β γ → δ)
    (hview : ∀ x source, view { x with source } = view x) (s : f.States) (i k : f.Index)
    (particle : Particle) (v : Velocity α) (dt : α) (useEddy : Bool) :
    view ((f.varied s i particle v dt useEddy).2.get k) = view (s.get k) := by
  unfold varied
  split
  · rfl
  · dsimp only
    split <;> exact s.view_put view (hview ..)

theorem get_varied_of_ne (f : Fleet α β γ) (s : f.States) {i k : f.Index} (h : k ≠ i)
    (particle : Particle) (v : Velocity α) (dt : α) (useEddy : Bool) :
    (f.varied s i particle v dt useEddy).2.get k = s.get k := by
  unfold varied
  split
  · rfl
  · dsimp only
    split <;> exact States.get_put_of_ne s h _

/-- A move asks for the velocity, unless the pattern is not active, and then at most varies one. -/
theorem move_snd (f : Fleet α β γ) (m : Moment α) (s : f.States) (i : f.Index)
    (particle : Particle) (dt : α) :
    let s' := if (f.pattern i).isActive m.clock.now then
      (f.scaledFlow m.clock.now s i particle.position).2 else s
    (f.move m s i particle dt).2 = s' ∨
      ∃ v useEddy, (f.move m s i particle dt).2 = (f.varied s' i particle v dt useEddy).2 := by
  unfold move
  cases hact : (f.pattern i).isActive m.clock.now with
  | false => exact .inl rfl
  | true =>
      simp only [Bool.not_true, Bool.false_eq_true, if_false, if_true]
      rcases hflow : f.scaledFlow m.clock.now s i particle.position with ⟨flow, s'⟩
      cases flow with
      | error e => exact .inl rfl
      | ok v =>
          cases hkind : particle.kind with
          | forecast => exact .inl rfl
          | uncertain => exact .inr ⟨v.1, v.2, rfl⟩

/-- A move changes scales as a query does, and not at all while the pattern is not active. -/
theorem scaling_move (f : Fleet α β γ) (m : Moment α) (s : f.States) (i k : f.Index)
    (particle : Particle) (dt : α) :
    ((f.move m s i particle dt).2.get k).scaling =
      ((if (f.pattern i).isActive m.clock.now then
        (f.scaledFlow m.clock.now s i particle.position).2 else s).get k).scaling := by
  rcases f.move_snd m s i particle dt with h | ⟨v, useEddy, h⟩
  · rw [h]
  · rw [h, f.view_varied PatternStatus.scaling fun _ _ => rfl]

/-- A move changes other patterns as a query does. -/
theorem get_move_of_ne (f : Fleet α β γ) (m : Moment α) (s : f.States) {i k : f.Index}
    (hk : k ≠ i) (particle : Particle) (dt : α) :
    (f.move m s i particle dt).2.get k =
      (if (f.pattern i).isActive m.clock.now then
        (f.scaledFlow m.clock.now s i particle.position).2 else s).get k := by
  rcases f.move_snd m s i particle dt with h | ⟨v, useEddy, h⟩
  · rw [h]
  · rw [h, f.get_varied_of_ne _ hk]

end Moving

theorem found_finish [Scalar α] (f : Fleet α β γ) (s : f.States) (i k : f.Index) :
    ((f.finish s i).get k).found = (s.get k).found :=
  s.view_put PatternStatus.found rfl

theorem step_finish [Scalar α] (f : Fleet α β γ) (s : f.States) (i k : f.Index) :
    ((f.finish s i).get k).step = if i = k then StepData.cleared else (s.get k).step := by
  rw [finish, States.get_put]
  split <;> rfl

/-! ## The states after a history -/

variable [Scalar α] [TableSupply α β γ]

theorem isResolving_prepare (f : Fleet α β γ) (m : Moment α) (s : f.States) (i k : f.Index) :
    ((f.prepare m s i).2.get k).isResolving = (s.get k).isResolving := by
  have htable := PatternStatus.isResolving_eq_of_scaling_eq (f.scaling_withTable m s i k)
  cases hr : (f.renewal m s i).outcome with
  | error e => rw [prepare_of_error f m s i hr, htable]
  | ok u =>
      have hscale := PatternStatus.isResolving_eq_of_base_eq
        (f.base_resolveScale m.clock.now (f.withTable m s i) i k)
      rw [prepare_of_ok f m s i hr, ← htable, ← hscale]
      exact States.view_put PatternStatus.isResolving _ rfl

variable [RandomSource α γ]

/-- What a call makes of the states. -/
def Call.apply {f : Fleet α β γ} (s : f.States) : Call f → f.States
  | .prepare m i => (f.prepare m s i).2
  | .query time i point => (f.scaledFlow time s i point).2
  | .rescale time i => (f.resolveScale time s i).2
  | .move m i particle dt => (f.move m s i particle dt).2
  | .finish i => f.finish s i

/-- The states after a history from the beginning of a run on. -/
def after (f : Fleet α β γ) : List (Call f) → f.States
  | [] => f.start
  | call :: past => call.apply (f.after past)

@[simp] theorem after_nil (f : Fleet α β γ) : f.after [] = f.start :=
  rfl

@[simp] theorem after_cons (f : Fleet α β γ) (call : Call f) (past : List (Call f)) :
    f.after (call :: past) = call.apply (f.after past) :=
  rfl

theorem isResolving_apply {f : Fleet α β γ} (s : f.States) (call : Call f) (k : f.Index) :
    ((call.apply s).get k).isResolving = (s.get k).isResolving := by
  cases call with
  | prepare m i => exact f.isResolving_prepare m s i k
  | query time i point =>
      exact PatternStatus.isResolving_eq_of_base_eq (f.base_scaledFlow time s i k point)
  | rescale time i =>
      exact PatternStatus.isResolving_eq_of_base_eq (f.base_resolveScale time s i k)
  | move m i particle dt =>
      rw [Call.apply,
        PatternStatus.isResolving_eq_of_scaling_eq (f.scaling_move m s i k particle dt)]
      split
      · exact PatternStatus.isResolving_eq_of_base_eq (f.base_scaledFlow _ s i k _)
      · rfl
  | finish i => exact s.view_put PatternStatus.isResolving rfl

/-- A pattern becomes prepared by being prepared. -/
theorem isPrepared_of_apply {f : Fleet α β γ} {s : f.States} {call : Call f} {k : f.Index}
    (h : ((call.apply s).get k).step.isPrepared = true) :
    (s.get k).step.isPrepared = true ∨
      ∃ m, call = .prepare m k ∧ (f.renewal m s k).outcome = .ok () := by
  cases call with
  | prepare m i =>
      by_cases hki : k = i
      · subst hki
        cases hr : (f.renewal m s k).outcome with
        | error e =>
            rw [Call.apply, prepare_of_error f m s k hr,
              PatternStatus.step_eq_of_scaling_eq (f.scaling_withTable m s k k)] at h
            exact .inl h
        | ok u => exact .inr ⟨m, rfl, hr⟩
      · rw [Call.apply, step_prepare_of_ne f m s hki] at h
        exact .inl h
  | query t i point =>
      rw [Call.apply, PatternStatus.step_eq_of_base_eq (f.base_scaledFlow t s i k point)] at h
      exact .inl h
  | rescale t i =>
      rw [Call.apply, PatternStatus.step_eq_of_base_eq (f.base_resolveScale t s i k)] at h
      exact .inl h
  | move m i particle dt =>
      rw [Call.apply, PatternStatus.step_eq_of_scaling_eq (f.scaling_move m s i k particle dt)] at h
      split at h
      · rw [PatternStatus.step_eq_of_base_eq (f.base_scaledFlow _ s i k _)] at h
        exact .inl h
      · exact .inl h
  | finish i =>
      rw [Call.apply, step_finish] at h
      split at h
      · contradiction
      · exact .inl h

/-- Between two calls no scale is being worked out. -/
theorem isResolving_after (f : Fleet α β γ) (past : List (Call f)) (i : f.Index) :
    ((f.after past).get i).isResolving = false := by
  induction past with
  | nil => rw [after_nil, get_start]; rfl
  | cons call past ih => rw [after_cons, isResolving_apply, ih]

/-! ## What is found -/

/-- Calls find scales by the rules alone. -/
theorem finds_apply {f : Fleet α β γ} (s : f.States) (call : Call f) (k : f.Index) :
    f.Finds k (s.get k) ((call.apply s).get k) := by
  cases call with
  | prepare m i =>
      have htable := PatternStatus.found_eq_of_scaling_eq (f.scaling_withTable m s i k)
      cases hr : (f.renewal m s i).outcome with
      | error e =>
          rw [Call.apply, prepare_of_error f m s i hr]
          exact .inl htable
      | ok u =>
          rw [Call.apply, Finds, found_prepare f m s i k hr, ← htable]
          exact f.finds_resolveScale m.clock.now _ i k
  | query time i point => exact f.finds_scaledFlow time s i k point
  | rescale time i => exact f.finds_resolveScale time s i k
  | move m i particle dt =>
      rw [Call.apply, Finds,
        PatternStatus.found_eq_of_scaling_eq (f.scaling_move m s i k particle dt)]
      split
      · exact f.finds_scaledFlow _ s i k _
      · exact .inl rfl
  | finish i => exact .inl (f.found_finish s i k)

/-- After a history a state says what it said at the beginning, or what the rule of the pattern
makes of some answer. -/
theorem finds_after (f : Fleet α β γ) (past : List (Call f)) (k : f.Index) :
    f.Finds k (f.pattern k).start ((f.after past).get k) := by
  induction past with
  | nil => exact .inl (by rw [after_nil, get_start])
  | cons call past ih =>
      rcases finds_apply (f.after past) call k with h | h
      · exact ih.imp h.trans fun ⟨other, hother, hfound⟩ => ⟨other, hother, h.trans hfound⟩
      · exact .inr h

end Fleet

end CurrentDrift
