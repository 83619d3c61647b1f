import CurrentDrift.Binary64
import CurrentDrift.Proofs.Drift.ReferenceScale
import CurrentDrift.Proofs.Mesh.Descent

/-! # Stored scales

A prepared pattern keeps its scale until the end of the step, and other patterns may have taken
theirs from it meanwhile. Main statement: a query answers by the scales of the rules as long as what
the prepared patterns have stored stems from the present time. -/

namespace CurrentDrift.Fleet

variable {α β γ : Type}

/-! ## What prepared patterns have stored -/

variable [Scalar α] [TableSupply α β γ]

/-- The pattern that a call stores a scale in for the rest of a step, and the time of the scale. -/
def Call.storing? {f : Fleet α β γ} (s : f.States) : Call f → Option (f.Index × α)
  | .prepare m i =>
    match (f.prepare m s i).1 with
    | .ok () => some (i, m.clock.now)
    | .error _ => none
  | .rescale time i => some (i, time)
  | _ => none

theorem storing?_prepare_of_error (f : Fleet α β γ) (m : Moment α) (s : f.States) (i : f.Index)
    {e : DriftError α} (h : (f.renewal m s i).outcome = .error e) :
    (Call.prepare m i).storing? s = none := by
  simp only [Call.storing?, prepare_of_error f m s i h]

theorem storing?_prepare_of_ok (f : Fleet α β γ) (m : Moment α) (s : f.States) (i : f.Index)
    (h : (f.renewal m s i).outcome = .ok ()) :
    (Call.prepare m i).storing? s = some (i, m.clock.now) := by
  simp only [Call.storing?, prepare_of_ok f m s i h]

theorem eq_of_storing? {f : Fleet α β γ} {s : f.States} {call : Call f} {i : f.Index} {t time : α}
    (hat : call.IsAt time) (h : call.storing? s = some (i, t)) : t = time := by
  cases call with
  | prepare m j =>
      simp only [Call.storing?] at h
      split at h
      · simp only [Option.some.injEq, Prod.mk.injEq] at h
        exact h.2.symm.trans hat
      · contradiction
  | rescale t' j =>
      simp only [Call.storing?, Option.some.injEq, Prod.mk.injEq] at h
      exact h.2.symm.trans hat
  | query t' j point => simp [Call.storing?] at h
  | move m j particle dt => simp [Call.storing?] at h
  | finish j => simp [Call.storing?] at h

variable [RandomSource α γ]

/-- The scale that a prepared pattern has stored was worked out at a time, and the one that it
rested on, if there was one, had been worked out at that time in the same way. -/
def StoredFor (f : Fleet α β γ) : List (Call f) → f.Index → α → Prop
  | [], _, _ => False
  | call :: past, i, time =>
    match call.storing? (f.after past) with
    | some (k, t) =>
      if k = i then t = time ∧ ∀ j, RestsOn (f.after past) i j → f.StoredFor past j time
      else f.StoredFor past i time
    | none => f.StoredFor past i time

theorem hasFixedScales_after {f : Fleet α β γ} (h : f.IsAcyclic) (past : List (Call f)) :
    HasFixedScales h (f.after past) := by
  induction past with
  | nil =>
      intro i hi
      simp [Pattern.start] at hi
  | cons call past ih => exact ih.finds fun k => finds_apply _ call k

/-- A call that does not store a scale in a pattern leaves the stored one there. -/
theorem scale_apply_of_not_storing {f : Fleet α β γ} (s : f.States) (call : Call f)
    {k : f.Index} (hk : ∀ time, call.storing? s ≠ some (k, time))
    (hp : ((call.apply s).get k).step.isPrepared = true) :
    (s.get k).step.isPrepared = true ∧ ((call.apply s).get k).scale = (s.get k).scale := by
  have hbefore : (s.get k).step.isPrepared = true := by
    rcases isPrepared_of_apply hp with hp | ⟨m, rfl, hr⟩
    · exact hp
    · exact absurd (storing?_prepare_of_ok f m s k hr) (hk _)
  refine ⟨hbefore, ?_⟩
  cases call with
  | prepare m i =>
      by_cases hki : k = i
      · subst hki
        cases hr : (f.renewal m s k).outcome with
        | error e =>
            rw [Call.apply, prepare_of_error f m s k hr]
            exact PatternStatus.scale_eq_of_scaling_eq (f.scaling_withTable m s k k)
        | ok u => exact absurd (storing?_prepare_of_ok f m s k hr) (hk _)
      · exact congrArg Prod.fst (f.found_prepare_of_isPrepared m s hbefore hki)
  | query time i point => rw [Call.apply, get_scaledFlow_of_isPrepared f time s i k point hbefore]
  | rescale time i =>
      have hne : k ≠ i := by
        rintro rfl
        exact hk _ rfl
      rw [Call.apply, get_resolveScale_of_isPrepared f time s i k hbefore hne]
  | move m i particle dt =>
      rw [Call.apply, PatternStatus.scale_eq_of_scaling_eq (f.scaling_move m s i k particle dt)]
      split
      · rw [get_scaledFlow_of_isPrepared f _ s i k _ hbefore]
      · rfl
  | finish i => exact congrArg Prod.fst (f.found_finish s i k)

/-- A call that stores a scale in a pattern stores the right one if what it rests on is right. -/
theorem scale_apply_of_storing {f : Fleet α β γ} (h : f.IsAcyclic) {s : f.States}
    (hidle : ∀ k, (s.get k).isResolving = false) (hfix : HasFixedScales h s) {call : Call f}
    {i : f.Index} {time : α} (hi : call.storing? s = some (i, time))
    (hrest : ∀ k, RestsOn s i k → (s.get k).scale = f.referenceScale h time k) :
    ((call.apply s).get i).scale = f.referenceScale h time i := by
  cases call with
  | prepare m j =>
      cases hr : (f.renewal m s j).outcome with
      | error e => simp [storing?_prepare_of_error f m s j hr] at hi
      | ok u =>
          simp only [storing?_prepare_of_ok f m s j hr, Option.some.injEq, Prod.mk.injEq] at hi
          obtain ⟨rfl, rfl⟩ := hi
          have htable := f.scaling_withTable m s j
          rw [Call.apply, scale_prepare_of_ok f m s j hr]
          apply scale_resolveScale h
          · intro k _
            rw [PatternStatus.isResolving_eq_of_scaling_eq (htable k)]
            exact hidle k
          · exact hfix.finds fun k => .inl (PatternStatus.found_eq_of_scaling_eq (htable k))
          · intro k hk
            rw [PatternStatus.scale_eq_of_scaling_eq (htable k)]
            exact hrest k (hk.congr fun l => by rw [PatternStatus.step_eq_of_scaling_eq (htable l)])
  | rescale t j =>
      simp only [Call.storing?, Option.some.injEq, Prod.mk.injEq] at hi
      obtain ⟨rfl, rfl⟩ := hi
      exact scale_resolveScale h t j s (fun k _ => hidle k) hfix hrest
  | query time j point => simp [Call.storing?] at hi
  | move m j particle dt => simp [Call.storing?] at hi
  | finish j => simp [Call.storing?] at hi

/-- What a prepared pattern has stored is the scale by the rules at the time that it stems from. -/
theorem scale_eq_of_storedFor {f : Fleet α β γ} (h : f.IsAcyclic) (past : List (Call f))
    (i : f.Index) (time : α) (hp : ((f.after past).get i).step.isPrepared = true)
    (hs : f.StoredFor past i time) :
    ((f.after past).get i).scale = f.referenceScale h time i := by
  induction past generalizing i time with
  | nil => exact hs.elim
  | cons call past ih =>
      have hkeep : (∀ t, call.storing? (f.after past) ≠ some (i, t)) →
          f.StoredFor past i time → ((f.after (call :: past)).get i).scale =
            f.referenceScale h time i := by
        intro hne hs
        obtain ⟨hp', hscale⟩ := scale_apply_of_not_storing (f.after past) call hne hp
        rw [after_cons, hscale]
        exact ih i time hp' hs
      rw [StoredFor] at hs
      split at hs
      · next k t hst =>
        split at hs
        · next hki =>
          subst hki
          obtain ⟨rfl, hrest⟩ := hs
          have hfix := hasFixedScales_after h past
          apply scale_apply_of_storing h (f.isResolving_after past) hfix hst
          intro j hj
          exact ih j t hj.isPrepared (hrest j hj)
        · next hki =>
          apply hkeep _ hs
          intro t' ht'
          exact hki (congrArg Prod.fst (Option.some.inj (hst.symm.trans ht')))
      · next hst =>
        apply hkeep _ hs
        simp [hst]

/-- As long as all calls are made at one time, what is stored stems from that time. -/
theorem storedFor_append {f : Fleet α β γ} {past : List (Call f)} {time : α}
    (hstored : ∀ i, ((f.after past).get i).step.isPrepared = true → f.StoredFor past i time)
    (calls : List (Call f)) (hcalls : ∀ call ∈ calls, call.IsAt time) (i : f.Index)
    (hp : ((f.after (calls ++ past)).get i).step.isPrepared = true) :
    f.StoredFor (calls ++ past) i time := by
  induction calls generalizing i with
  | nil => exact hstored i hp
  | cons call calls ih =>
      have ih' := ih fun c hc => hcalls c (List.mem_cons_of_mem call hc)
      have hat : call.IsAt time := hcalls call List.mem_cons_self
      rw [List.cons_append, StoredFor]
      split
      · next k t hst =>
        split
        · exact ⟨eq_of_storing? hat hst, fun j hj => ih' j hj.isPrepared⟩
        · next hki =>
          apply ih'
          apply (scale_apply_of_not_storing _ call _ hp).1
          intro t' ht'
          exact hki (congrArg Prod.fst (Option.some.inj (hst.symm.trans ht')))
      · next hst =>
        apply ih'
        exact (scale_apply_of_not_storing _ call (by simp [hst]) hp).1

theorem storedFor_of_isAt {f : Fleet α β γ} {calls : List (Call f)} {time : α}
    (hcalls : ∀ call ∈ calls, call.IsAt time) (i : f.Index)
    (hp : ((f.after calls).get i).step.isPrepared = true) : f.StoredFor calls i time := by
  rw [← List.append_nil calls] at hp ⊢
  apply storedFor_append _ calls hcalls i hp
  intro j hj
  simp [Pattern.start, StepData.cleared] at hj

/-- The latest preparation of a pattern that has succeeded was made at a time. -/
def PreparedAt (f : Fleet α β γ) : List (Call f) → f.Index → α → Prop
  | [], _, _ => False
  | .prepare m k :: past, i, time =>
    match (f.prepare m (f.after past) k).1 with
    | .ok () => if k = i then m.clock.now = time else f.PreparedAt past i time
    | .error _ => f.PreparedAt past i time
  | _ :: past, i, time => f.PreparedAt past i time

/-! ## Patterns of one triangle -/

section OneTriangle

omit [TableSupply α β γ] [RandomSource α γ]

/-- What a pattern of one triangle shows under a scale to those that match it. -/
theorem map_fst_flowUnder_oneTriangle {p : Pattern α β γ} {v : Velocity α}
    (h : p.field = FlowField.oneTriangle v) (scale time : α) :
    (p.flowUnder scale time ⟨100000, 100000⟩).map Prod.fst =
      .ok ((v.scale scale).scale (p.timeFactor time)) := by
  rw [Pattern.flowUnder, Pattern.rawFlow, h, FlowField.sample_oneTriangle_inside]
  rfl

theorem factor_oneTriangle (v theirs : Velocity α) (name : String) :
    Scaling.factor (FlowField.oneTriangle v) (.toPattern name) ⟨100000, 100000⟩
      (some (.ok theirs)) = (Scaling.scaleToVelocity v theirs).mapError .scale := by
  rw [Scaling.factor, Scaling.sampleAt, FlowField.sample_oneTriangle_inside]
  rfl

end OneTriangle

/-! ## A chain of three patterns -/

/-- A factor that goes from one to two between the seconds 10 and 20. -/
def doubling : TimeFactor Float := ⟨⟨#[(10.0, 1.0), (20.0, 2.0)], .clamp, by decide⟩, none⟩

/-- A pattern of one triangle with a rule for its scale. -/
def scaledBy (name : String) (rule : ScaleRule Float) :
    Pattern Float (Sampler Float) WordScript :=
  { Pattern.plain name (FlowField.oneTriangle ⟨1.0, 0.0⟩) Sampler.default
      (WordScript.ofList []) with
    rule
    reference := ⟨100000, 100000⟩ }

/-- The first pattern doubles its speed, the second is to be as fast as the first, and the third as
fast as the second. -/
def chain : Fleet Float (Sampler Float) WordScript :=
  ⟨[⟨"map",
    [.current { scaledBy "a" .unscaled with factor := some doubling, isFactorActive := true },
      .current (scaledBy "b" (.toPattern "a")), .current (scaledBy "c" (.toPattern "b"))]⟩]⟩

namespace chain

def a : chain.Index := ⟨0, by decide⟩

def b : chain.Index := ⟨1, by decide⟩

def c : chain.Index := ⟨2, by decide⟩

/-- A moment some seconds after the beginning. -/
def moment (now : Float) : Moment Float := Moment.certain ⟨now, 0.0, 60.0⟩

theorem isAcyclic : chain.IsAcyclic := by
  apply isAcyclic_of_rank (fun i => i.val)
  decide +kernel

theorem eq_a_or_b_or_c (i : chain.Index) : i = a ∨ i = b ∨ i = c := by
  match i with
  | ⟨0, _⟩ => exact .inl rfl
  | ⟨1, _⟩ => exact .inr (.inl rfl)
  | ⟨2, _⟩ => exact .inr (.inr rfl)

theorem matched?_b : chain.matched? b = some a :=
  rfl

theorem matched?_c : chain.matched? c = some b :=
  rfl

theorem rule_c : (chain.pattern c).rule = .toPattern "b" :=
  rfl

theorem field_eq (i : chain.Index) :
    (chain.pattern i).field = FlowField.oneTriangle ⟨1.0, 0.0⟩ := by
  rcases eq_a_or_b_or_c i with rfl | rfl | rfl <;> rfl

theorem reference_eq (i : chain.Index) : (chain.pattern i).reference = ⟨100000, 100000⟩ := by
  rcases eq_a_or_b_or_c i with rfl | rfl | rfl <;> rfl

theorem rawFlow (i : chain.Index) :
    (chain.pattern i).rawFlow ⟨100000, 100000⟩ = .ok ⟨1.0, 0.0⟩ := by
  rw [Pattern.rawFlow, field_eq, FlowField.sample_oneTriangle_inside]
  rfl

/-- What a pattern under a scale shows to the one that matches it. -/
theorem flowUnder (i : chain.Index) (scale time : Float) :
    ((chain.pattern i).flowUnder scale time ⟨100000, 100000⟩).map Prod.fst =
      .ok (((⟨1.0, 0.0⟩ : Velocity Float).scale scale).scale
        ((chain.pattern i).timeFactor time)) :=
  map_fst_flowUnder_oneTriangle (field_eq i) scale time

theorem factor (i : chain.Index) (name : String) (theirs : Velocity Float) :
    (Scaling.factor (chain.pattern i).field (.toPattern name) (chain.pattern i).reference
      (some (.ok theirs))).toOption = (Scaling.scaleToVelocity ⟨1.0, 0.0⟩ theirs).toOption := by
  rw [field_eq, reference_eq, factor_oneTriangle]
  cases Scaling.scaleToVelocity (⟨1.0, 0.0⟩ : Velocity Float) theirs <;> rfl

theorem referenceScale_a (time : Float) : chain.referenceScale isAcyclic time a = 1.0 := by
  rw [referenceScale_eq_factor isAcyclic time rfl]
  rfl

theorem referenceScale_of_matched (i j : chain.Index) (time : Float) {name : String}
    (hh : (chain.pattern i).hydrology? = none) (hr : (chain.pattern i).rule = .toPattern name)
    (hm : chain.matched? i = some j) :
    chain.referenceScale isAcyclic time i =
      (Scaling.scaleToVelocity ⟨1.0, 0.0⟩
        (((⟨1.0, 0.0⟩ : Velocity Float).scale (chain.referenceScale isAcyclic time j)).scale
          ((chain.pattern j).timeFactor time))).toOption.getD 0.0 := by
  rw [referenceScale_eq_factor isAcyclic time hh, hm, hr, Option.map_some, reference_eq, flowUnder,
    ← reference_eq i, factor]

theorem referenceScale_b_early : chain.referenceScale isAcyclic 0.0 b = 1.0 := by
  rw [referenceScale_of_matched b a 0.0 rfl rfl matched?_b, referenceScale_a]
  decide +kernel

theorem referenceScale_b_late : chain.referenceScale isAcyclic 100.0 b = 2.0 := by
  rw [referenceScale_of_matched b a 100.0 rfl rfl matched?_b, referenceScale_a]
  decide +kernel

theorem referenceScale_c_late : chain.referenceScale isAcyclic 100.0 c = 2.0 := by
  rw [referenceScale_of_matched c b 100.0 rfl rfl matched?_c, referenceScale_b_late]
  decide +kernel

theorem renewal_ok (now : Float) (s : chain.States) (i : chain.Index) :
    (chain.renewal (moment now) s i).outcome = .ok () :=
  rfl

/-- Two preparations at different times: the scale of the third pattern is taken from the one that
the second has kept. -/
theorem scale_c_stale :
    ((chain.after [.prepare (moment 100.0) c, .prepare (moment 0.0) b]).get c).scale = 1.0 := by
  let past : List (Call chain) := [.prepare (moment 0.0) b]
  have hprepared : ((chain.after past).get b).step.isPrepared = true :=
    congrArg StepData.isPrepared (step_prepare_of_ok chain _ _ b (renewal_ok _ _ _))
  have hb : ((chain.after past).get b).scale = 1.0 := by
    rw [scale_eq_of_storedFor isAcyclic past b 0.0 hprepared, referenceScale_b_early]
    exact storedFor_of_isAt (by simp [past, Call.IsAt, moment, Moment.certain]) b hprepared
  have htable := chain.scaling_withTable (moment 100.0) (chain.after past)
  have hidle := PatternStatus.isResolving_eq_of_scaling_eq (htable c c)
  rw [isResolving_after] at hidle
  have hstep := PatternStatus.step_eq_of_scaling_eq (htable c b)
  rw [← hstep] at hprepared
  rw [after_cons, Call.apply, scale_prepare_of_ok chain _ _ c (renewal_ok _ _ _),
    scale_resolveScale_of_idle chain _ _ rfl hidle,
    outcome_of_isPrepared chain _ _ matched?_c hprepared,
    PatternStatus.scale_eq_of_scaling_eq (htable c b), hb, rule_c, reference_eq, flowUnder,
    ← reference_eq c, factor]
  decide +kernel

/-- The second pattern is prepared, the clock goes on, the third pattern is prepared, and only then
the second one finishes its step. -/
def history : List (Call chain) := [.finish b, .prepare (moment 100.0) c, .prepare (moment 0.0) b]

theorem preparedAt_history (i : chain.Index)
    (h : ((chain.after history).get i).step.isPrepared = true) :
    chain.PreparedAt history i 100.0 := by
  rw [history, after_cons, Call.apply, Fleet.finish] at h
  rcases eq_a_or_b_or_c i with rfl | rfl | rfl
  · rw [States.get_put_of_ne _ (show a ≠ b by decide), after_cons, Call.apply,
      step_prepare_of_ne chain _ _ (show a ≠ c by decide), after_cons, Call.apply,
      step_prepare_of_ne chain _ _ (show a ≠ b by decide), after_nil, get_start] at h
    contradiction
  · rw [States.get_put_self] at h
    contradiction
  · simp only [history, PreparedAt, prepare_of_ok chain _ _ c (renewal_ok _ _ _)]
    rfl

end chain

/-! ## Queries -/

/-- Whatever has been called before, and in whatever order patterns are prepared, asked and finished
now, a query gives the velocity of the field times the scale by the rules times the factor of the
pattern at that time. -/
theorem scaledFlow_eq_reference (f : Fleet α β γ) (h : f.IsAcyclic) (past calls : List (Call f))
    (time : α)
    (hstored : ∀ i, ((f.after past).get i).step.isPrepared = true → f.StoredFor past i time)
    (hcalls : ∀ call ∈ calls, call.IsAt time) (i : f.Index) (point : Point) :
    (f.scaledFlow time (f.after (calls ++ past)) i point).1.map Prod.fst =
      ((f.pattern i).rawFlow point).map fun raw =>
        (raw.scale (f.referenceScale h time i)).scale ((f.pattern i).timeFactor time) := by
  have hscale : ((f.scaledFlow time (f.after (calls ++ past)) i point).2.get i).scale =
      f.referenceScale h time i := by
    apply scale_scaledFlow h time i
    · exact fun k _ => f.isResolving_after _ k
    · exact hasFixedScales_after h _
    · intro k hk
      exact scale_eq_of_storedFor h _ k time hk (storedFor_append hstored calls hcalls k hk)
  rw [scaledFlow_fst, hscale, Pattern.flowUnder]
  cases (f.pattern i).rawFlow point <;> rfl

/-- A query of the third pattern while the second one is prepared. -/
theorem scaledFlow_eq_reference_chain :
    (chain.scaledFlow 100.0 (chain.after ([.query 100.0 chain.c ⟨0, 0⟩] ++
      [.prepare (chain.moment 100.0) chain.b])) chain.c ⟨100000, 100000⟩).1.map Prod.fst =
        .ok ⟨2.0, 0.0⟩ := by
  rw [scaledFlow_eq_reference chain chain.isAcyclic, chain.rawFlow, chain.referenceScale_c_late]
  · simp only [Except.map, Except.ok.injEq, Velocity.scale, Velocity.mk.injEq]
    decide +kernel
  · intro i hp
    exact storedFor_of_isAt (by simp [Call.IsAt, chain.moment, Moment.certain]) i hp
  · simp [Call.IsAt]

/-- That all prepared patterns were prepared at the present time is not enough. -/
theorem not_scaledFlow_eq_reference_of_preparedAt :
    ¬ ∀ (f : Fleet Float (Sampler Float) WordScript) (h : f.IsAcyclic)
      (past calls : List (Call f)) (time : Float),
      (∀ i, ((f.after past).get i).step.isPrepared = true → f.PreparedAt past i time) →
      (∀ call ∈ calls, call.IsAt time) → ∀ (i : f.Index) (point : Point),
      (f.scaledFlow time (f.after (calls ++ past)) i point).1.map Prod.fst =
        ((f.pattern i).rawFlow point).map fun raw =>
          (raw.scale (f.referenceScale h time i)).scale ((f.pattern i).timeFactor time) := by
  intro hall
  have hquery := hall chain chain.isAcyclic chain.history [] 100.0 chain.preparedAt_history
    (by simp) chain.c ⟨100000, 100000⟩
  have hne : chain.c ≠ chain.b := by decide
  have hscale : ((chain.after chain.history).get chain.c).scale = 1.0 := by
    rw [chain.history, after_cons, Call.apply, finish, States.get_put_of_ne _ hne]
    exact chain.scale_c_stale
  have hprepared : ((chain.after chain.history).get chain.c).step.isPrepared = true := by
    rw [chain.history, after_cons, Call.apply, finish, States.get_put_of_ne _ hne]
    exact congrArg StepData.isPrepared
      (step_prepare_of_ok chain _ _ chain.c (chain.renewal_ok _ _ _))
  rw [List.nil_append, scaledFlow_of_isPrepared chain _ _ _ _ hprepared, hscale, chain.flowUnder,
    chain.rawFlow, chain.referenceScale_c_late] at hquery
  revert hquery
  simp only [Except.map, Except.ok.injEq, Velocity.scale, Velocity.mk.injEq]
  decide +kernel

end CurrentDrift.Fleet
