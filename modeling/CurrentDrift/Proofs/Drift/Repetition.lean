import CurrentDrift.Proofs.Drift.Forecast
import CurrentDrift.Proofs.Drift.Rest
import CurrentDrift.Proofs.Drift.StoredScale
import CurrentDrift.Proofs.Scalar.Exact

/-! # Preparing again

While the factors of the patterns stay as they are, a second preparation finds what the first one
has found, and so does every step of a run. Main statement: this holds for every pattern that the
first preparation brings to rest, and it does so wherever the chain of matches ends. On a circle of
matches each preparation may go round once more. -/

namespace CurrentDrift

variable {α β γ : Type} [Scalar α] [TableSupply α β γ] [RandomSource α γ]

namespace Fleet

/-! ## Calls at one time -/

/-- Calls that are all made at one time lead from states to states. -/
def Leads (f : Fleet α β γ) (time : α) : f.States → f.States → Prop :=
  Relation.ReflTransGen fun s s' => ∃ call : Call f, call.IsAt time ∧ call.apply s = s'

variable {f : Fleet α β γ} {time time' : α} {s s' : f.States} {i : f.Index}

theorem leads_of_call (s : f.States) {call : Call f} (hat : call.IsAt time) :
    f.Leads time s (call.apply s) :=
  .single ⟨call, hat, rfl⟩

theorem leads_prepareAll (m : Moment α) (s : f.States)
    (xs : List (Member f)) :
    f.Leads m.clock.now s (f.prepareAll m s xs).2 := by
  refine Crew.prepareAll_rel (fun _ => .refl) .trans (fun s x => ?_) s xs
  cases x with
  | current i => exact leads_of_call s (show Call.IsAt m.clock.now (.prepare m i) from rfl)
  | other mover => exact .refl

theorem leads_finishAll (time : α) (s : f.States) : f.Leads time s (f.finishAll s) := by
  unfold finishAll
  generalize f.members = xs
  induction xs generalizing s with
  | nil => exact .refl
  | cons x xs ih =>
      cases x with
      | current i =>
          have hcall := leads_of_call s (show Call.IsAt time (.finish i) from trivial)
          exact hcall.trans (ih _)
      | other mover => exact ih s

theorem leads_moveAll (m : Moment α) (ready : List (Member f)) (s : f.States)
    (particles : List Particle) : f.Leads m.clock.now s (f.moveAll m ready s particles).2 := by
  refine Crew.moveAll_rel (fun _ => .refl) .trans (fun s q x => ?_) ready s particles
  cases x with
  | current i =>
      exact leads_of_call s (show Call.IsAt m.clock.now (.move m i q m.clock.step) from rfl)
  | other mover => exact .refl

/-- After all movers have prepared themselves, the rest of a step. -/
theorem leads_step (m : Moment α) (s : f.States) (ps : Swarm) :
    f.Leads m.clock.now (f.prepareAll m s f.members).2 (f.step m s ps).2 := by
  have hforecast := leads_moveAll m (Crew.ready (f.prepareAll m s f.members).1)
    (f.prepareAll m s f.members).2 ps.forecastParticles
  exact (hforecast.trans (leads_moveAll m _ _ ps.uncertainParticles)).trans (leads_finishAll _ _)

theorem IsSteady.leads (h : IsSteady time s) (hsame : f.SameFactors time time')
    (hs : f.Leads time' s s') : IsSteady time s' := by
  have h' : IsSteady time' s' := by
    induction hs with
    | refl => exact h.at_time hsame
    | tail _ hcall ih =>
        obtain ⟨call, hat, rfl⟩ := hcall
        exact ih.apply hat
  exact h'.at_time hsame.symm

theorem AtRest.leads (h : f.AtRest time s i) (hsame : f.SameFactors time time')
    (hs : f.Leads time' s s') : f.AtRest time s' i ∧ (s'.get i).found = (s.get i).found := by
  have h' : f.AtRest time' s' i ∧ (s'.get i).found = (s.get i).found := by
    induction hs with
    | refl => exact ⟨h.at_time hsame, rfl⟩
    | tail _ hcall ih =>
        obtain ⟨call, hat, rfl⟩ := hcall
        exact ⟨ih.1.apply hat, (found_apply_of_atRest hat ih.1).trans ih.2⟩
  exact ⟨h'.1.at_time hsame.symm, h'.2⟩

end Fleet

/-- The states in which the next step of a run moves its particles. -/
def RunState.prepared {f : Fleet α β γ} (isUncertain : Bool) (r : RunState f) : f.States :=
  (f.prepareAll (r.moment isUncertain) r.states f.members).2

namespace Fleet

variable {f : Fleet α β γ} {time : α} {i : f.Index}

theorem leads_prepared (isUncertain : Bool) (r : RunState f) :
    f.Leads r.clock.now r.states (r.prepared isUncertain) ∧
      f.Leads r.clock.now (r.prepared isUncertain) (r.step isUncertain).states := by
  have hnow : (r.moment isUncertain).clock.now = r.clock.now := by cases isUncertain <;> rfl
  rw [← hnow]
  exact ⟨leads_prepareAll _ _ _, leads_step _ _ r.particles⟩

/-- What is at rest stays so in all steps whose times make no difference to the factors. -/
theorem AtRest.steps {isUncertain : Bool} {n : Nat} {r : RunState f}
    (h : f.AtRest time r.states i)
    (hsame : ∀ k < n, f.SameFactors time (r.steps isUncertain k).clock.now) :
    f.AtRest time (r.steps isUncertain n).states i ∧
      ((r.steps isUncertain n).states.get i).found = (r.states.get i).found := by
  induction n generalizing r with
  | zero => exact ⟨h, rfl⟩
  | succ n ih =>
      obtain ⟨hfirst, hrest⟩ := leads_prepared isUncertain r
      have hstep := h.leads (hsame 0 n.succ_pos) (hfirst.trans hrest)
      have hsteps := ih hstep.1 fun k hk => hsame (k + 1) (Nat.succ_lt_succ hk)
      exact ⟨hsteps.1, hsteps.2.trans hstep.2⟩

/-! ## The second preparation -/

/-- Where what the prepared patterns have stored is at rest, a preparation brings every pattern to
rest whose chain of matches ends. Whatever is at rest is found again by the next preparation, and
in a run by every step, as long as the factors of the patterns are the same. -/
theorem prepareAll_again (f : Fleet α β γ) (past : List (Call f)) (time : α)
    (hstored : ∀ k, f.Ends k → ((f.after past).get k).step.isPrepared = true →
      f.AtRest time (f.after past) k) :
    (∀ (m m' : Moment α) (xs ys : List (Member f)) (i : f.Index),
      f.SameFactors time m.clock.now → f.SameFactors time m'.clock.now →
      let s := (f.prepareAll m (f.after past) xs).2
      let s' := (f.prepareAll m' (f.finishAll s) ys).2
      f.Ends i ∧ (s.get i).step.isPrepared = true ∨ f.AtRest time s i →
      (s'.get i).scale = (s.get i).scale ∧ (s'.get i).lacksScale = (s.get i).lacksScale) ∧
    ∀ (r : RunState f) (isUncertain : Bool) (n : Nat) (i : f.Index), r.states = f.after past →
      (∀ k ≤ n, f.SameFactors time (r.steps isUncertain k).clock.now) →
      let s := r.prepared isUncertain
      let s' := (r.steps isUncertain n).prepared isUncertain
      f.Ends i ∧ (s.get i).step.isPrepared = true ∨ f.AtRest time s i →
      (s'.get i).scale = (s.get i).scale ∧ (s'.get i).lacksScale = (s.get i).lacksScale := by
  have hsteady : IsSteady time (f.after past) := isSteady_after hstored
  have hrest : ∀ (t : α) (s : f.States) (i : f.Index), f.SameFactors time t →
      f.Leads t (f.after past) s →
      (f.Ends i ∧ (s.get i).step.isPrepared = true ∨ f.AtRest time s i) → f.AtRest time s i := by
    rintro t s i ht hs (⟨hends, hp⟩ | h)
    · exact (hsteady.leads ht hs).stored i hends hp
    · exact h
  constructor
  · intro m m' xs ys i hm hm' s s' hi
    have hs : f.AtRest time s i := hrest _ s i hm (leads_prepareAll m _ xs) hi
    have hfound := (hs.leads hm' ((leads_finishAll _ s).trans (leads_prepareAll m' _ ys))).2
    exact ⟨congrArg Prod.fst hfound, congrArg (fun x => x.2.2) hfound⟩
  · intro r isUncertain n i hr hsame s s' hi
    obtain ⟨hfirst, hlater⟩ := leads_prepared isUncertain r
    have hs : f.AtRest time s i := hrest _ s i (hsame 0 n.zero_le) (hr ▸ hfirst) hi
    have hfound : (s'.get i).found = (s.get i).found := by
      cases n with
      | zero => rfl
      | succ n =>
          have hstep := hs.leads (hsame 0 (Nat.zero_le _)) hlater
          have hsteps := hstep.1.steps fun k (hk : k < n) => hsame (k + 1) (by omega)
          have hlast := hsteps.1.leads (hsame (n + 1) le_rfl)
            (leads_prepared isUncertain (r.steps isUncertain (n + 1))).1
          exact hlast.2.trans (hsteps.2.trans hstep.2)
    exact ⟨congrArg Prod.fst hfound, congrArg (fun x => x.2.2) hfound⟩

theorem chain.isPrepared_members (m : Moment Float) (s : chain.States) (i : chain.Index) :
    ((chain.prepareAll m s chain.members).2.get i).step.isPrepared = true := by
  have hmembers : chain.members = (List.finRange chain.patterns.length).map .current := rfl
  rw [hmembers]
  exact isPrepared_prepareAll Sampler.neverFails m s _ i (.inl (List.mem_finRange i))

/-- The third pattern of the chain, some seconds after the first one has doubled its speed. -/
theorem prepareAll_again_chain :
    (let s := (chain.prepareAll (chain.moment 100.0) chain.start chain.members).2
      let s' := (chain.prepareAll (chain.moment 100.0) (chain.finishAll s) chain.members).2
      (s'.get chain.c).scale = (s.get chain.c).scale ∧
        (s'.get chain.c).lacksScale = (s.get chain.c).lacksScale) ∧
    let r : RunState chain := ⟨⟨100.0, 0.0, 60.0⟩, chain.start, ⟨[], []⟩⟩
    let s := r.prepared false
    let s' := (r.steps false 1).prepared false
    (s'.get chain.c).scale = (s.get chain.c).scale ∧
      (s'.get chain.c).lacksScale = (s.get chain.c).lacksScale := by
  have hstored : ∀ k, chain.Ends k → ((chain.after []).get k).step.isPrepared = true →
      chain.AtRest 100.0 (chain.after []) k := by
    intro k _ hp
    simp [Pattern.start, StepData.cleared] at hp
  have hends := chain.isAcyclic.ends chain.c
  obtain ⟨hagain, hrun⟩ := prepareAll_again chain [] 100.0 hstored
  constructor
  · exact hagain (chain.moment 100.0) (chain.moment 100.0) chain.members chain.members chain.c
      (fun _ => rfl) (fun _ => rfl) (.inl ⟨hends, chain.isPrepared_members _ _ _⟩)
  · refine hrun ⟨⟨100.0, 0.0, 60.0⟩, chain.start, ⟨[], []⟩⟩ false 1 chain.c rfl ?_
      (.inl ⟨hends, chain.isPrepared_members _ _ _⟩)
    intro k hk i
    obtain rfl | rfl : k = 0 ∨ k = 1 := by omega
    · rfl
    · change (chain.pattern i).timeFactor (100.0 + 60.0) = (chain.pattern i).timeFactor 100.0
      rcases chain.eq_a_or_b_or_c i with rfl | rfl | rfl <;> decide +kernel

/-! ## A circle of two patterns -/

section Matching

variable {α : Type} [Scalar α]

def eastward : Velocity α := ⟨1.0, 0.0⟩

/-- A pattern of one triangle that is to be as fast as another one. -/
def matching (name other : String) : Pattern α (Sampler α) WordScript :=
  { Pattern.plain name (FlowField.oneTriangle eastward) Sampler.default (WordScript.ofList []) with
    rule := .toPattern other
    reference := ⟨100000, 100000⟩ }

/-- A factor that is two at all times. -/
def twice : TimeFactor α := ⟨⟨#[(0.0, 2.0)], .clamp, Nat.one_pos⟩, none⟩

end Matching

theorem eastward_eq : (eastward : Velocity ℝ) = ⟨1, 0⟩ := by
  rw [eastward, Velocity.mk.injEq]
  norm_num

theorem at_twice (time : ℝ) : twice.at time = .ok 2 := by
  have hfirst : (twice : TimeFactor ℝ).series.first.2 = 2 := by
    norm_num [twice, TimeSeries.first]
  have hlast : (twice : TimeFactor ℝ).series.last.2 = 2 := by norm_num [twice, TimeSeries.last]
  have hvalue : twice.series.value? time = some 2 := by
    unfold TimeSeries.value?
    split
    · simp only [TimeSeries.extrapolate?, hfirst, hlast, ite_self]
      rfl
    · unfold TimeSeries.interpolate
      split
      · rw [hfirst]
      · rw [hlast]
        simp [twice]
  rw [TimeFactor.at, hvalue]

/-- Two patterns that match each other; the first one doubles its speed. -/
noncomputable def circle : Fleet ℝ (Sampler ℝ) WordScript :=
  ⟨[⟨"map",
    [.current { matching "a" "b" with factor := some twice, isFactorActive := true },
      .current (matching "b" "a")]⟩]⟩

namespace circle

def a : circle.Index := ⟨0, by decide⟩

def b : circle.Index := ⟨1, by decide⟩

theorem eq_a_or_b (i : circle.Index) : i = a ∨ i = b := by
  match i with
  | ⟨0, _⟩ => exact .inl rfl
  | ⟨1, _⟩ => exact .inr rfl

theorem matched?_a : circle.matched? a = some b :=
  rfl

theorem matched?_b : circle.matched? b = some a :=
  rfl

theorem members_eq : circle.members = [.current a, .current b] :=
  rfl

theorem field_eq (i : circle.Index) :
    (circle.pattern i).field = FlowField.oneTriangle eastward := by
  rcases eq_a_or_b i with rfl | rfl <;> rfl

theorem reference_eq (i : circle.Index) : (circle.pattern i).reference = ⟨100000, 100000⟩ := by
  rcases eq_a_or_b i with rfl | rfl <;> rfl

theorem timeFactor_a (time : ℝ) : (circle.pattern a).timeFactor time = 2 := by
  have hfactor : (circle.pattern a).factor = some twice := rfl
  have hactive : (circle.pattern a).isFactorActive = true := rfl
  rw [Pattern.timeFactor, hfactor, hactive]
  simp only [at_twice]

theorem timeFactor_b (time : ℝ) : (circle.pattern b).timeFactor time = 1 := by
  change (1.0 : ℝ) = 1
  norm_num

/-- What a pattern under a scale shows to the other one. -/
theorem flowUnder (i : circle.Index) (scale time : ℝ) :
    ((circle.pattern i).flowUnder scale time ⟨100000, 100000⟩).map Prod.fst =
      .ok ⟨scale * (circle.pattern i).timeFactor time, 0⟩ := by
  rw [map_fst_flowUnder_oneTriangle (field_eq i), eastward_eq]
  simp only [Velocity.scale, one_mul, zero_mul]

theorem scaleToVelocity_eastward {y : ℝ} (h0 : 0 ≤ y) (h1 : y ≤ 1000) :
    Scaling.scaleToVelocity eastward (⟨y, 0⟩ : Velocity ℝ) = .ok y := by
  have hmine : (⟨1, 0⟩ : Velocity ℝ).lengthSquared = 1 := by
    simp [Velocity.lengthSquared, Velocity.dot]
  have htheirs : (⟨y, 0⟩ : Velocity ℝ).lengthSquared = y * y := by
    simp [Velocity.lengthSquared, Velocity.dot]
  have hdot : (⟨1, 0⟩ : Velocity ℝ).dot ⟨y, 0⟩ = y := by
    simp [Velocity.dot]
  have hsqrt : Scalar.sqrt (y * y / 1) = y := by
    change Real.sqrt (y * y / 1) = y
    rw [div_one, Real.sqrt_mul_self h0]
  rw [eastward_eq, Scaling.scaleToVelocity, hmine, htheirs, hdot, hsqrt, if_neg, if_neg]
  · dsimp only
    rw [if_neg]
    norm_num
    exact h0
  · norm_num [Scaling.minLength]
  · norm_num [Scaling.maxScale]
    nlinarith

theorem ruling_of_flow (i : circle.Index) {y : ℝ} (h0 : 0 ≤ y) (h1 : y ≤ 1000) :
    circle.ruling i (some (.ok ⟨y, 0⟩)) = .ok y := by
  have hrule : (circle.pattern i).hydrology? = none ∧
      ∃ name, (circle.pattern i).rule = .toPattern name := by
    rcases eq_a_or_b i with rfl | rfl
    · exact ⟨rfl, "b", rfl⟩
    · exact ⟨rfl, "a", rfl⟩
  obtain ⟨hh, name, hr⟩ := hrule
  simp only [ruling, hh, hr, field_eq, reference_eq, factor_oneTriangle,
    scaleToVelocity_eastward h0 h1]
  rfl

variable {time y : ℝ} {s : circle.States}

/-- The answer of the first pattern to the second one while the first one is marked. -/
theorem scale_b_of_marked (hmarked : (s.get a).isResolving = true)
    (hidle : (s.get b).isResolving = false) (hopen : (s.get b).step.isPrepared = false)
    (h0 : 0 ≤ y) (h1 : 2 * y ≤ 1000) (hy : (s.get a).scale = y) (p : Point) :
    ((circle.scaledFlow time s b p).2.get b).scale = 2 * y := by
  have hneeds : (s.get b).needsScale (circle.pattern b).rule = true := by
    simp [PatternStatus.needsScale, hopen, show (circle.pattern b).rule = .toPattern "a" from rfl,
      ScaleRule.dependsOnOther]
  have hmark : ((circle.mark s b).get a).isResolving = true := by
    rw [mark, States.get_put_of_ne _ (show a ≠ b by decide), hmarked]
  have hkeeps : (circle.scaledFlow time (circle.mark s b) a (circle.pattern b).reference).2 =
      circle.mark s b := by
    rw [scaledFlow_snd, resolveScale_of_isResolving circle _ _ rfl hmark, ite_self]
  rw [scaledFlow_snd, if_pos hneeds, scale_resolveScale_of_idle circle time s rfl hidle,
    outcome_eq_ruling circle time s rfl, askMatched_of_some circle time _ matched?_b,
    scaledFlow_fst, hkeeps, scale_mark, hy, reference_eq, flowUnder, timeFactor_a, mul_comm,
    ruling_of_flow b (by linarith) h1]
  rfl

theorem scale_resolveScale_a (hidle : ∀ i, (s.get i).isResolving = false)
    (hopen : ∀ i, (s.get i).step.isPrepared = false) (h0 : 0 ≤ y) (h1 : 2 * y ≤ 1000)
    (hy : (s.get a).scale = y) :
    ((circle.resolveScale time s a).2.get a).scale = 2 * y := by
  have hne : b ≠ a := by decide
  have hb : ((circle.scaledFlow time (circle.mark s a) b
      (circle.pattern a).reference).2.get b).scale = 2 * y := by
    apply scale_b_of_marked _ _ _ h0 h1
    · rw [scale_mark, hy]
    · rw [mark, States.get_put_self]
    · rw [mark, States.get_put_of_ne _ hne, hidle]
    · rw [step_mark, hopen]
  rw [scale_resolveScale_of_idle circle time s rfl (hidle a), outcome_eq_ruling circle time s rfl,
    askMatched_of_some circle time _ matched?_a, scaledFlow_fst, hb, reference_eq, flowUnder,
    timeFactor_b, mul_one, ruling_of_flow a (by linarith) h1]
  rfl

/-- Each preparation goes round once more. -/
theorem scale_prepareAll (m : Moment ℝ) (past : List (Call circle))
    (hopen : ∀ i, ((circle.after past).get i).step.isPrepared = false) (h0 : 0 ≤ y)
    (h1 : 2 * y ≤ 1000) (hy : ((circle.after past).get a).scale = y) :
    ((circle.prepareAll m (circle.after past) circle.members).2.get a).scale = 2 * y := by
  have htable := circle.scaling_withTable m (circle.after past) a
  have ha : ((circle.prepare m (circle.after past) a).2.get a).scale = 2 * y := by
    rw [scale_prepare_of_ok circle m _ a (Sampler.neverFails ..)]
    apply scale_resolveScale_a _ _ h0 h1
    · rw [PatternStatus.scale_eq_of_scaling_eq (htable a), hy]
    · intro i
      rw [PatternStatus.isResolving_eq_of_scaling_eq (htable i), isResolving_after]
    · intro i
      rw [PatternStatus.step_eq_of_scaling_eq (htable i), hopen]
  -- The second pattern is prepared next, and by then the first one answers as it is.
  rw [members_eq, ← ha]
  have hne : a ≠ b := by decide
  have hprepared := isPrepared_prepare Sampler.neverFails m (circle.after past) a a (.inl rfl)
  exact congrArg Prod.fst (circle.found_prepare_of_isPrepared m _ hprepared hne)

end circle

/-- On a circle the second preparation need not find what the first one has found. -/
theorem not_prepareAll_again :
    ¬ ∀ (f : Fleet ℝ (Sampler ℝ) WordScript) (m : Moment ℝ) (i : f.Index),
      let s := (f.prepareAll m f.start f.members).2
      let s' := (f.prepareAll m (f.finishAll s) f.members).2
      (s'.get i).scale = (s.get i).scale ∧ (s'.get i).lacksScale = (s.get i).lacksScale := by
  intro hall
  let m : Moment ℝ := Moment.certain ⟨0, 0, 60⟩
  let past : List (Call circle) :=
    [.finish circle.b, .finish circle.a, .prepare m circle.b, .prepare m circle.a]
  have hfirst : ((circle.prepareAll m circle.start circle.members).2.get circle.a).scale =
      2 * 1 := by
    apply circle.scale_prepareAll m [] _ zero_le_one (by norm_num)
    · rw [after_nil, get_start]
      change (1.0 : ℝ) = 1
      norm_num
    · intro i
      rw [after_nil, get_start]
      rfl
  have hsecond : ((circle.prepareAll m (circle.after past) circle.members).2.get circle.a).scale =
      2 * (2 * 1) := by
    apply circle.scale_prepareAll m past _ (by norm_num) (by norm_num)
    · rw [← hfirst]
      exact congrArg Prod.fst ((circle.found_finish _ _ _).trans (circle.found_finish _ _ _))
    · intro i
      rcases circle.eq_a_or_b i with rfl | rfl <;>
        simp [past, Call.apply, step_finish, StepData.cleared]
  have hsame := (hall circle m circle.a).1
  change ((circle.prepareAll m (circle.after past) circle.members).2.get circle.a).scale =
    _ at hsame
  rw [hfirst, hsecond] at hsame
  norm_num at hsame

/-- A prepared pattern that is not at rest spoils the first preparation, though there be no
circle. -/
theorem not_prepareAll_again_of_isPrepared :
    ¬ ∀ (f : Fleet Float (Sampler Float) WordScript) (_ : f.IsAcyclic) (past : List (Call f))
      (m : Moment Float) (xs : List (Member f)) (i : f.Index),
      let s := (f.prepareAll m (f.after past) xs).2
      let s' := (f.prepareAll m (f.finishAll s) xs).2
      (s'.get i).scale = (s.get i).scale := by
  intro hall
  let m := chain.moment 100.0
  let past : List (Call chain) := [.prepare m chain.a, .prepare m chain.b, .prepare m chain.c,
    .prepare (chain.moment 0.0) chain.b]
  let closed : List (Call chain) :=
    [.finish chain.c, .finish chain.b, .finish chain.a] ++ past
  let again : List (Call chain) := [.prepare m chain.a, .prepare m chain.b, .prepare m chain.c]
  have hfirst : ((chain.after past).get chain.c).scale = 1.0 := by
    have hc := isPrepared_prepare Sampler.neverFails m
      (chain.after [.prepare (chain.moment 0.0) chain.b]) chain.c chain.c (.inl rfl)
    have hb := isPrepared_prepare Sampler.neverFails m _ chain.b chain.c (.inr hc)
    have hkeepb := chain.found_prepare_of_isPrepared m _ hc (show chain.c ≠ chain.b by decide)
    have hkeepa := chain.found_prepare_of_isPrepared m _ hb (show chain.c ≠ chain.a by decide)
    exact (congrArg Prod.fst (hkeepa.trans hkeepb)).trans chain.scale_c_stale
  have hsecond : ((chain.after (again ++ closed)).get chain.c).scale = 2.0 := by
    have hprepared : ((chain.after (again ++ closed)).get chain.c).step.isPrepared = true :=
      isPrepared_prepareAll Sampler.neverFails m (chain.after closed)
        [chain.c, chain.b, chain.a] chain.c (.inl List.mem_cons_self)
    have hclosed : ∀ i, ((chain.after closed).get i).step.isPrepared = true →
        chain.StoredFor closed i 100.0 := by
      intro i hi
      rcases chain.eq_a_or_b_or_c i with rfl | rfl | rfl <;>
        simp [closed, Call.apply, step_finish, StepData.cleared] at hi
    rw [scale_eq_of_storedFor chain.isAcyclic _ chain.c 100.0 hprepared,
      chain.referenceScale_c_late]
    apply storedFor_append hclosed again _ chain.c hprepared
    simp [again, m, Call.IsAt, chain.moment, Moment.certain]
  have hsame := hall chain chain.isAcyclic [.prepare (chain.moment 0.0) chain.b] m
    [.current chain.c, .current chain.b, .current chain.a] chain.c
  change ((chain.after (again ++ closed)).get chain.c).scale =
    ((chain.after past).get chain.c).scale at hsame
  rw [hfirst, hsecond] at hsame
  revert hsame
  decide +kernel

end Fleet

end CurrentDrift
