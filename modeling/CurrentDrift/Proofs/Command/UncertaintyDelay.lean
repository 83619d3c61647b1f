import CurrentDrift.Proofs.Command.ForecastIndependence
import CurrentDrift.Proofs.Drift.Delay

/-! # Uncertain runs before velocity errors come into force

A pattern takes the delay of its velocity errors from its part of a plan. Main statement: as long as
the delays of all patterns last, the uncertain particles of a run are exactly where the forecast
ones are, and the random sources are as they were at the beginning. -/

namespace CurrentDrift

variable {γ : Type} {read : ReadFile Id} {base : List Char}

theorem Setup.Makes.params {p : PatternPlan} {x : Pattern Float (Sampler Float) Unit}
    (h : Makes read base p x) : x.supply.params = p.spread := by
  obtain ⟨field, sampler, factor, -, hsampler, -, rfl⟩ := h
  obtain ⟨-, rfl⟩ := Sampler.ofParams_eq_ok_iff.mp (mapError_eq_ok_iff.mp hsampler)
  rfl

theorem Fleet.IsSetUp.isEarly {c : RunPlan} {f : Fleet Float (Sampler Float) γ}
    (hf : f.IsSetUp read base c) {clock : Clock Float}
    (h : ∀ p ∈ c.patterns, clock.elapsed < p.spread.delay) : f.IsEarly clock := by
  intro i
  have hi : i.val < c.patterns.length := by
    rw [hf.patterns.length_eq]
    exact i.isLt
  have hparams : (f.pattern i).supply.params = c.patterns[i.val].spread :=
    (hf.patterns.get hi i.isLt).params
  rw [hparams]
  exact h _ (List.getElem_mem hi)

namespace Run

variable [RandomSource Float γ]

/-- If a plan with uncertain particles is set up and then run with any random sources, then after so
many steps that begin before the delay of any pattern is over, every uncertain particle is at the
position of the forecast particle with its number, and no pattern has taken a random word. This
holds of valid plans and others, and of every seed. -/
theorem uncertain_eq_forecast {δ : Type} {seeding : Seeding δ} {c : RunPlan} {f : RunFleet δ}
    (hf : Setup.fleet read seeding base c = Except.ok f) (huncertain : c.isUncertain = true)
    {g : Fleet Float (Sampler Float) γ} (hg : g.unsourced = f.unsourced) {n : Nat}
    (hdelay : ∀ k < n, ∀ p ∈ c.patterns,
      (Clock.advance^[k] (Clock.start c.start c.step)).elapsed < p.spread.delay) :
    (drift c g n).uncertain = (drift c g n).forecast ∧
      ∀ i, (((start c g).steps c.isUncertain n).states.get i).source = (g.pattern i).source := by
  have hset : g.IsSetUp read base c := by
    rw [← Fleet.isSetUp_unsourced, hg, Fleet.isSetUp_unsourced]
    exact Fleet.isSetUp_of_fleet hf
  have htogether : (start c g).particles.uncertain = (start c g).particles.forecast := by
    simp [start, Swarm.ofPoints, huncertain]
  obtain ⟨hstates, hparticles⟩ := (Fleet.isUndisturbed_start g).steps hset.hasOnlyPatterns
    htogether fun k hk => hset.isEarly (hdelay k hk)
  exact ⟨hparticles, hstates.source⟩

/-- A plan with eddies and velocity errors that come into force after an hour. -/
def delayedPlan : RunPlan :=
  { uncertainPlan with
    maps := [⟨"bay", [{ PatternPlan.ofFile "tide" "tide.mesh" with
      eddy := ⟨100000.0, 0.1⟩
      spread := { SpreadParams.default with delay := 3600.0 } }]⟩] }

/-- Four steps of a quarter of an hour. -/
theorem uncertain_eq_forecast_delayedPlan :
    ∃ f, Setup.fleet readTriangle ChaCha.seeding [] delayedPlan = Except.ok f ∧
      delayedPlan.isUncertain = true ∧
      (∀ k < 4, ∀ p ∈ delayedPlan.patterns,
        (Clock.advance^[k] (Clock.start delayedPlan.start delayedPlan.step)).elapsed <
          p.spread.delay) ∧
      (drift delayedPlan f 4).uncertain = (drift delayedPlan f 4).forecast ∧
      ∀ i, (((start delayedPlan f).steps delayedPlan.isUncertain 4).states.get i).source =
        (f.pattern i).source := by
  have hok : (Setup.fleet readTriangle ChaCha.seeding [] delayedPlan).toOption.isSome = true := by
    decide +kernel
  have hdelay : ∀ k < 4, ∀ p ∈ delayedPlan.patterns,
      (Clock.advance^[k] (Clock.start delayedPlan.start delayedPlan.step)).elapsed <
        p.spread.delay := by
    decide +kernel
  cases hf : Setup.fleet readTriangle ChaCha.seeding [] delayedPlan with
  | error e => simp [hf, Except.toOption] at hok
  | ok f => exact ⟨f, rfl, rfl, hdelay, uncertain_eq_forecast hf rfl rfl hdelay⟩

end Run

end CurrentDrift
