import CurrentDrift.Proofs.Command.ForecastIndependence
import CurrentDrift.Proofs.Drift.Frame

/-! # References to other patterns

A plan lists the names that scales refer to and no pattern has; a run looks each name up among the
patterns other than the one that asks. Main statement: a name is listed for a pattern exactly if the
run finds nothing for it and the name is not the pattern's own. A pattern that refers to its own
name, which no other pattern has, is left without a scale and yet not listed. -/

namespace CurrentDrift

/-! ## Names in a plan -/

/-- The name that a pattern contributes to the list of unresolved names. -/
def RunPlan.unresolvedName? (c : RunPlan) (p : PatternPlan) : Option String :=
  p.scale.referredName?.filter fun n => !(c.patterns.map fun q => q.name).contains n

theorem RunPlan.unresolvedNames_eq (c : RunPlan) :
    c.unresolvedNames = c.patterns.filterMap c.unresolvedName? := by
  rw [unresolvedNames, List.filter_filterMap]
  rfl

theorem RunPlan.unresolvedName?_eq_some_iff {c : RunPlan} {p : PatternPlan} {name : String}
    {reference : Degrees} (h : p.scale = .likePattern name reference) :
    c.unresolvedName? p = some name ↔ ∀ q ∈ c.patterns, q.name ≠ name := by
  simp [unresolvedName?, h, ScalePlan.referredName?, Option.filter]

/-! ## Names in a fleet -/

namespace Fleet

variable {α β γ : Type}

theorem find?_eq_none_iff {f : Fleet α β γ} {name : String} {i : f.Index} :
    f.find? name (some i) = none ↔ ∀ j, j ≠ i → (f.pattern j).name ≠ name := by
  rw [find?, List.find?_eq_none]
  constructor
  · intro h j hj hname
    exact h j (List.mem_finRange j) (by simp [Ne.symm hj, hname])
  · intro h j _ hfound
    simp only [Bool.and_eq_true, decide_eq_true_eq, beq_iff_eq] at hfound
    exact h j (fun hji => hfound.1 (congrArg some hji.symm)) hfound.2

end Fleet

/-! ## Scales that are looked for in vain -/

namespace Scaling

variable {α : Type}

theorem referenceFault_mesh_ne (error : MeshError) (name : String) :
    referenceFault (.mesh error) ≠ (.scale (.noSuchPattern name) : DriftError α) := by
  cases error <;> simp [referenceFault]

theorem sampleAt_ne_noSuchPattern (field : FlowField α) (place : Point) (name : String) :
    sampleAt field place ≠ .error (.scale (.noSuchPattern name)) := by
  unfold sampleAt
  cases field.sample place with
  | ok v => simp [Except.mapError]
  | error e => simpa [Except.mapError] using referenceFault_mesh_ne e name

variable [Scalar α]

theorem scaleToVelocity_ne_noSuchPattern (mine theirs : Velocity α) (name : String) :
    scaleToVelocity mine theirs ≠ .error (.noSuchPattern name) := by
  unfold scaleToVelocity
  dsimp only
  split
  · simp
  · split <;> simp

/-- That there is no such pattern is complained about only if there is none. -/
theorem factor_eq_noSuchPattern_iff (field : FlowField α) (name : String) (reference : Point)
    {other : Option (Except (DriftError α) (Velocity α))}
    (h : ∀ e, other = some (.error e) → ∃ error, e = .mesh error) :
    factor field (.toPattern name) reference other = .error (.scale (.noSuchPattern name)) ↔
      other = none := by
  cases other with
  | none => simp [factor]
  | some found =>
      simp only [factor, reduceCtorEq, iff_false]
      cases found with
      | error e =>
          obtain ⟨error, rfl⟩ := h e rfl
          simpa [Except.mapError, bind, Except.bind] using referenceFault_mesh_ne error name
      | ok theirs =>
          have hsample := sampleAt_ne_noSuchPattern field reference name
          simp only [Except.mapError, bind, Except.bind]
          cases hmine : sampleAt field reference with
          | error e =>
              rw [hmine] at hsample
              simpa using hsample
          | ok mine =>
              have hscale := scaleToVelocity_ne_noSuchPattern mine theirs name
              cases hfound : scaleToVelocity mine theirs with
              | error fault =>
                  rw [hfound] at hscale
                  simpa [hfound] using hscale
              | ok scale => simp [hfound]

end Scaling

namespace Fleet

variable {α β γ : Type} [Scalar α]

/-- Outside of a search for the scale of a pattern that matches another one, the search complains
that there is no such pattern exactly if none is found; the pattern is then left without a scale. -/
theorem find?_eq_none_iff_resolveScale {f : Fleet α β γ} {i : f.Index} {name : String}
    (hrule : (f.pattern i).rule = .toPattern name) (hh : (f.pattern i).hydrology? = none)
    (time : α) {s : f.States} (hi : (s.get i).isResolving = false) :
    f.find? name (some i) = none ↔
      (f.resolveScale time s i).1 = .error (.scale (.noSuchPattern name)) ∧
        ((f.resolveScale time s i).2.get i).scale = 0.0 ∧
        ((f.resolveScale time s i).2.get i).lacksScale = true := by
  have hmatched : f.matched? i = f.find? name (some i) := by rw [matched?, hh, hrule]
  have hask : ∀ e, (f.askMatched time (f.mark s i) i).1 = some (.error e) →
      ∃ error, e = .mesh error := by
    intro e he
    cases hm : f.matched? i with
    | none =>
        rw [askMatched_of_none f time _ hm] at he
        contradiction
    | some j =>
        rw [askMatched_of_some f time _ hm, scaledFlow_fst] at he
        unfold Pattern.flowUnder Pattern.rawFlow at he
        cases hsample : (f.pattern j).field.sample (f.pattern i).reference with
        | ok v => simp [hsample, Except.map, Except.mapError] at he
        | error error =>
            simp only [hsample, Except.map, Except.mapError, Option.some.injEq,
              Except.error.injEq] at he
            exact ⟨error, he.symm⟩
  have houtcome : f.outcome time s i = .error (.scale (.noSuchPattern name)) ↔
      (f.askMatched time (f.mark s i) i).1 = none := by
    rw [outcome, hrule]
    exact Scaling.factor_eq_noSuchPattern_iff _ _ _ hask
  have hnone : (f.askMatched time (f.mark s i) i).1 = none ↔ f.find? name (some i) = none := by
    rw [← hmatched]
    cases hm : f.matched? i with
    | none => simp [askMatched_of_none f time _ hm]
    | some j => simp [askMatched_of_some f time _ hm]
  rw [← hnone, ← houtcome, resolveScale_of_idle f time s hh hi, States.get_put_self]
  constructor
  · intro h
    simp [h, PatternStatus.withOutcome]
  · exact fun h => h.1

end Fleet

/-! ## Plans and their fleets -/

namespace RunPlan

variable {γ : Type} {read : ReadFile Id} {seeding : Seeding γ} {base : List Char}

/-- The names of the patterns that are set up are those in the plan. -/
theorem name_pattern {c : RunPlan} {f : RunFleet γ} (hf : f.IsSetUp read base c) (j : f.Index)
    {p : PatternPlan} (hp : c.patterns[j.val]? = some p) : (f.pattern j).name = p.name := by
  obtain ⟨hj, rfl⟩ := List.getElem?_eq_some_iff.mp hp
  obtain ⟨field, sampler, factor, -, -, -, hmade⟩ := hf.patterns.get hj j.isLt
  exact congrArg Pattern.name hmade

theorem unresolvedName?_iff_find? {c : RunPlan} {f : RunFleet γ}
    (hf : f.IsSetUp read base c) {i : f.Index} {p : PatternPlan}
    (hp : c.patterns[i.val]? = some p) {name : String} {reference : Degrees}
    (hscale : p.scale = .likePattern name reference) :
    c.unresolvedName? p = some name ↔ p.name ≠ name ∧ f.find? name (some i) = none := by
  have hsize := hf.patterns.length_eq
  rw [unresolvedName?_eq_some_iff hscale, Fleet.find?_eq_none_iff]
  constructor
  · intro h
    refine ⟨h p (List.mem_of_getElem? hp), fun j _ => ?_⟩
    have hj : c.patterns[j.val]? = some c.patterns[j.val] := List.getElem?_eq_getElem _
    rw [name_pattern hf j hj]
    exact h _ (List.getElem_mem _)
  · rintro ⟨hown, hothers⟩ q hq
    obtain ⟨k, hk, rfl⟩ := List.getElem_of_mem hq
    by_cases hki : k = i.val
    · subst hki
      rwa [Option.some.inj ((List.getElem?_eq_getElem hk).symm.trans hp)]
    · have hne : (⟨k, by omega⟩ : f.Index) ≠ i := fun h => hki (congrArg Fin.val h)
      rw [← name_pattern hf ⟨k, by omega⟩ (List.getElem?_eq_getElem hk)]
      exact hothers _ hne

/-- The list of unresolved names consists of what the patterns contribute. A pattern contributes the
name that its scale refers to exactly if the run finds no other pattern of that name and the name
is not the pattern's own. If it has no hydrology factor, the run finds no other pattern of that
name exactly if the search for its scale fails for the name and leaves it without a scale. -/
theorem unresolvedName?_spec {c : RunPlan} {f : RunFleet γ}
    (hf : Setup.fleet read seeding base c = Except.ok f) {i : f.Index} {p : PatternPlan}
    (hp : c.patterns[i.val]? = some p) {name : String} {reference : Degrees}
    (hscale : p.scale = .likePattern name reference) :
    c.unresolvedNames = c.patterns.filterMap c.unresolvedName? ∧
      (c.unresolvedName? p = some name ↔ p.name ≠ name ∧ f.find? name (some i) = none) ∧
      ((f.pattern i).hydrology? = none → ∀ (time : Float) (s : f.States),
        (s.get i).isResolving = false →
          (f.find? name (some i) = none ↔
            (f.resolveScale time s i).1 = .error (.scale (.noSuchPattern name)) ∧
              ((f.resolveScale time s i).2.get i).scale = 0.0 ∧
              ((f.resolveScale time s i).2.get i).lacksScale = true)) := by
  have hset := Fleet.isSetUp_of_fleet hf
  have hrule : (f.pattern i).rule = .toPattern name := by
    obtain ⟨hi, rfl⟩ := List.getElem?_eq_some_iff.mp hp
    obtain ⟨field, sampler, factor, -, -, -, hmade⟩ := hset.patterns.get hi i.isLt
    have hsame : (f.pattern i).rule = (c.patterns[i.val]).scale.rule :=
      congrArg Pattern.rule hmade
    rw [hsame, hscale]
    rfl
  exact ⟨c.unresolvedNames_eq, unresolvedName?_iff_find? hset hp hscale,
    fun hh time s hi => Fleet.find?_eq_none_iff_resolveScale hrule hh time hi⟩

/-- A pattern whose scale refers to its own name. -/
def loopPlan : RunPlan :=
  { RunPlan.default with
    maps := [⟨"bay", [{ PatternPlan.ofFile "loop" "tide.mesh" with
      scale := .likePattern "loop" ⟨0.2, 0.2⟩ }]⟩] }

/-- The pattern is left without a scale, of which the plan says nothing. -/
theorem unresolvedNames_loopPlan :
    loopPlan.unresolvedNames = [] ∧
      ∃ f, Setup.fleet Run.readTriangle ChaCha.seeding [] loopPlan = Except.ok f ∧
        ∃ i : f.Index, (f.resolveScale 0.0 f.start i).1 = .error (.scale (.noSuchPattern "loop")) ∧
          ((f.resolveScale 0.0 f.start i).2.get i).scale = 0.0 ∧
          ((f.resolveScale 0.0 f.start i).2.get i).lacksScale = true := by
  have hok : (Setup.fleet Run.readTriangle ChaCha.seeding [] loopPlan).toOption.isSome = true := by
    decide +kernel
  refine ⟨by decide +kernel, ?_⟩
  cases hf : Setup.fleet Run.readTriangle ChaCha.seeding [] loopPlan with
  | error e => simp [hf, Except.toOption] at hok
  | ok f =>
      have hpatterns := (Fleet.isSetUp_of_fleet hf).patterns
      have hsize : f.patterns.length = 1 := hpatterns.length_eq.symm
      have hlt : 0 < f.patterns.length := by omega
      have hh : (f.pattern ⟨0, hlt⟩).hydrology? = none := by
        obtain ⟨field, sampler, factor, -, -, hfactor, hmade⟩ :=
          hpatterns.get (Nat.one_pos : 0 < loopPlan.patterns.length) hlt
        obtain rfl := Except.ok.inj hfactor
        exact congrArg (fun x => x.factor.bind TimeFactor.hydrology) hmade
      have hfind : f.find? "loop" (some ⟨0, hlt⟩) = none :=
        Fleet.find?_eq_none_iff.mpr fun j hj => (hj (Fin.ext (by omega))).elim
      obtain ⟨-, -, hvain⟩ := unresolvedName?_spec hf (i := ⟨0, hlt⟩) rfl rfl
      exact ⟨f, rfl, ⟨0, hlt⟩, (hvain hh 0.0 f.start (by rw [Fleet.get_start]; rfl)).mp hfind⟩

end RunPlan

end CurrentDrift
