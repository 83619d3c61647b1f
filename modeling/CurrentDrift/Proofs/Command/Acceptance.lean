import CurrentDrift.Command.Run
import CurrentDrift.Command.Validate
import CurrentDrift.Proofs.Command.ForecastIndependence
import CurrentDrift.Proofs.Plan.Valid

/-! # What the check of a plan says about a run

The check goes on after an error and collects all of them; the set-up of a run ends with the first.
Main statement: the check accepts a plan exactly if the set-up succeeds, whatever the seed, and once
a plan could be read nothing but a mesh file that cannot be loaded makes either of them fail. -/

namespace CurrentDrift

/-! ## Setting up -/

theorem PatternPlan.IsValid.exists_factor {p : PatternPlan} (h : p.IsValid) :
    ∃ factor, Setup.factor p = .ok factor := by
  unfold Setup.factor
  cases htime : p.timeSeries with
  | none => exact ⟨none, rfl⟩
  | some t =>
      obtain ⟨factor, hfactor⟩ := h.exists_series t htime
      exact ⟨some factor, by simp only [hfactor, Except.mapError, Except.map]⟩

namespace Setup

variable {γ : Type} {read : ReadFile Id} {seeding : Seeding γ} {base : List Char}

theorem validate_of_loadPlan {path : List Char} {c : RunPlan}
    (h : loadPlan read path = Except.ok c) : c.validate = .ok () := by
  cases hread : read path with
  | error cause => simp [loadPlan, hread, bind, pure] at h
  | ok bytes =>
      simp only [loadPlan, hread, bind, pure] at h
      exact RunPlan.validate_of_ofBytes h

/-- All mesh files of the patterns can be loaded. -/
def Loads (read : ReadFile Id) (base : List Char) (ps : List PatternPlan) : Prop :=
  ∀ p ∈ ps, ∃ field, loadField read (p.meshPath base) = Except.ok field

/-- A failure that is about the mesh file of one of the patterns. -/
def IsMeshFailure (read : ReadFile Id) (base : List Char) (ps : List PatternPlan) (e : Failure) :
    Prop :=
  ∃ p ∈ ps, ∃ cause, loadField read (p.meshPath base) = Except.error cause ∧
    e = .mesh (String.ofList (p.meshPath base)) cause

/-- A set-up either succeeds with all mesh files, or fails for one of them. -/
def Depends (read : ReadFile Id) (base : List Char) (ps : List PatternPlan) {ρ : Type}
    (r : Id (Except Failure ρ)) : Prop :=
  (∃ x, r = Except.ok x) ∧ Loads read base ps ∨
    ∃ e, r = Except.error e ∧ IsMeshFailure read base ps e

theorem IsMeshFailure.not_loads {ps : List PatternPlan} {e : Failure}
    (h : IsMeshFailure read base ps e) : ¬ Loads read base ps := by
  obtain ⟨p, hp, cause, hcause, -⟩ := h
  intro hloads
  obtain ⟨field, hfield⟩ := hloads p hp
  simp [hfield] at hcause

theorem Depends.isOk_iff {ps : List PatternPlan} {ρ : Type} {r : Id (Except Failure ρ)}
    (h : Depends read base ps r) : (∃ x, r = Except.ok x) ↔ Loads read base ps := by
  rcases h with ⟨hok, hloads⟩ | ⟨e, rfl, hfailure⟩
  · exact iff_of_true hok hloads
  · refine iff_of_false ?_ hfailure.not_loads
    rintro ⟨x, hx⟩
    contradiction

theorem Depends.isMeshFailure {ps : List PatternPlan} {ρ : Type} {e : Failure}
    {r : Id (Except Failure ρ)} (h : Depends read base ps r) (he : r = Except.error e) :
    IsMeshFailure read base ps e := by
  subst he
  rcases h with ⟨⟨x, hx⟩, -⟩ | ⟨e', he', hfailure⟩
  · contradiction
  · obtain rfl := Except.error.inj he'
    exact hfailure

theorem depends_pattern {p : PatternPlan} (hp : p.IsValid) (seeding : Seeding γ)
    (seed : Option UInt64) : Depends read base [p] (pattern read seeding base p seed) := by
  obtain ⟨sampler, hparams⟩ := hp.exists_sampler
  have hsampler : Setup.sampler p = .ok sampler := by rw [Setup.sampler, hparams]; rfl
  obtain ⟨factor, hfactor⟩ := hp.exists_factor
  cases hfield : loadField read (p.meshPath base) with
  | error cause =>
      refine .inr ⟨_, ?_, p, List.mem_singleton_self p, cause, hfield, rfl⟩
      simp only [pattern, hsampler, hfield, bind, pure]
  | ok field =>
      refine .inl ⟨⟨assemble p field sampler factor (seeding seed), ?_⟩, ?_⟩
      · simp only [pattern, hsampler, hfield, hfactor, bind, pure, Except.map]
      · intro q hq
        obtain rfl := List.mem_singleton.mp hq
        exact ⟨field, hfield⟩

/-- A set-up in two parts, of which the first failure is reported. -/
theorem Depends.andThen {ps qs : List PatternPlan} {ρ σ τ : Type} {r : Id (Except Failure ρ)}
    {s : Id (Except Failure σ)} {t : Id (Except Failure τ)} (hr : Depends read base ps r)
    (hs : Depends read base qs s) (hfirst : ∀ e, r = Except.error e → t = Except.error e)
    (hsecond : ∀ x e, r = Except.ok x → s = Except.error e → t = Except.error e)
    (hboth : ∀ x y, r = Except.ok x → s = Except.ok y → ∃ z, t = Except.ok z) :
    Depends read base (ps ++ qs) t := by
  rcases hr with ⟨⟨x, hx⟩, hps⟩ | ⟨e, he, p, hp, hcause⟩
  · rcases hs with ⟨⟨y, hy⟩, hqs⟩ | ⟨e, he, q, hq, hcause⟩
    · refine .inl ⟨hboth x y hx hy, fun p hp => ?_⟩
      exact (List.mem_append.mp hp).elim (hps p) (hqs p)
    · exact .inr ⟨e, hsecond x e hx he, q, List.mem_append_right ps hq, hcause⟩
  · exact .inr ⟨e, hfirst e he, p, List.mem_append_left qs hp, hcause⟩

theorem depends_patterns {ps : List PatternPlan} (hps : ∀ p ∈ ps, p.IsValid)
    (seeding : Seeding γ) (seed : Option UInt64) (i : Nat) :
    Depends read base ps (patterns read seeding base seed i ps) := by
  induction ps generalizing i with
  | nil => exact .inl ⟨⟨[], rfl⟩, by simp [Loads]⟩
  | cons p ps ih =>
      rw [List.forall_mem_cons] at hps
      apply (depends_pattern hps.1 seeding (seedOf seed i)).andThen (ih hps.2 (i + 1))
      · intro e he
        simp only [patterns, he, bind, pure]
      · intro x e hx he
        simp only [patterns, hx, he, bind, pure]
      · intro x xs hx hxs
        exact ⟨x :: xs, by simp only [patterns, hx, hxs, bind, pure]⟩

theorem depends_maps {cs : List MapPlan}
    (hcs : ∀ p ∈ cs.flatMap MapPlan.patterns, p.IsValid) (seeding : Seeding γ)
    (seed : Option UInt64) (i : Nat) :
    Depends read base (cs.flatMap MapPlan.patterns) (maps read seeding base seed i cs) := by
  induction cs generalizing i with
  | nil => exact .inl ⟨⟨[], rfl⟩, by simp [Loads]⟩
  | cons c cs ih =>
      rw [List.flatMap_cons, List.forall_mem_append] at hcs
      apply (depends_patterns hcs.1 seeding seed i).andThen (ih hcs.2 (i + c.patterns.length))
      · intro e he
        simp only [maps, he, bind, pure]
      · intro ps e hps he
        simp only [maps, hps, he, bind, pure]
      · intro ps ms hps hms
        exact ⟨⟨c.name, ps.map Mover.current⟩ :: ms, by simp only [maps, hps, hms, bind, pure]⟩

theorem depends_fleet {c : RunPlan} (h : c.validate = .ok ()) :
    Depends read base c.patterns (fleet read seeding base c) := by
  rcases depends_maps (RunPlan.isValid_of_validate h) seeding c.seed 0 with
    ⟨⟨ms, hms⟩, hloads⟩ | ⟨e, he, hfailure⟩
  · exact .inl ⟨⟨⟨ms⟩, by simp only [fleet, hms, bind, pure, Except.map]⟩, hloads⟩
  · exact .inr ⟨e, by simp only [fleet, he, bind, pure, Except.map], hfailure⟩

theorem exists_setUp_iff {path : List Char} :
    (∃ c f, Run.setUp read seeding path = Except.ok (c, f)) ↔
      ∃ c, loadPlan read path = Except.ok c ∧ Loads read (Path.directory path) c.patterns := by
  cases hc : loadPlan read path with
  | error e => simp [Run.setUp, hc, bind, pure]
  | ok c =>
      have hdepends : Depends read (Path.directory path) c.patterns
          (fleet read seeding (Path.directory path) c) := depends_fleet (validate_of_loadPlan hc)
      constructor
      · rintro ⟨c', f, h⟩
        refine ⟨c, rfl, hdepends.isOk_iff.mp ?_⟩
        cases hf : fleet read seeding (Path.directory path) c with
        | error e => simp [Run.setUp, hc, hf, bind, pure, Except.map] at h
        | ok f => exact ⟨f, rfl⟩
      · rintro ⟨c', hc', hloads⟩
        obtain rfl := Except.ok.inj hc'
        obtain ⟨f, hf⟩ := hdepends.isOk_iff.mpr hloads
        exact ⟨c, f, by simp only [Run.setUp, hc, hf, bind, pure, Except.map]⟩

end Setup

/-! ## Checking -/

namespace Validate

open Setup

variable {read : ReadFile Id} {base : List Char}

/-- What is complained about if a pattern cannot be set up. -/
def complaint? (read : ReadFile Id) (base : List Char) (p : PatternPlan) : Option String :=
  match Setup.pattern read (fun _ => ()) base p none with
  | .error e => some (p.name ++ ": " ++ e.message)
  | .ok _ => none

theorem errors_warnIf (r : Report) (bad : Bool) (text : String) :
    (r.warnIf bad text).errors = r.errors := by
  cases bad <;> rfl

theorem errors_reportPattern (r : Report) (p : PatternPlan) (f : FlowField Float) :
    (reportPattern r p f).errors = r.errors := by
  unfold reportPattern
  cases p.timeSeries <;> cases p.scale.reference? <;>
    simp only [errors_warnIf, Report.print]

theorem errors_checkPattern (map : String) (r : Report) (p : PatternPlan) :
    Report.errors (checkPattern read base map r p) =
      r.errors ++ (complaint? read base p).toList := by
  cases hp : Setup.pattern read (fun _ => ()) base p none with
  | error e => simp [checkPattern, complaint?, hp, bind, pure, Report.error, Report.print]
  | ok x =>
      simp [checkPattern, complaint?, hp, bind, pure, errors_reportPattern, Report.print]

theorem errors_checkMap (r : Report) (c : MapPlan) :
    Report.errors (checkMap read base r c) =
      r.errors ++ c.patterns.filterMap (complaint? read base) := by
  unfold checkMap
  induction c.patterns generalizing r with
  | nil => simp [pure]
  | cons p ps ih =>
      rw [List.foldlM_cons]
      refine (ih (checkPattern read base c.name r p)).trans ?_
      rw [errors_checkPattern, List.filterMap_cons, List.append_assoc]
      cases complaint? read base p <;> rfl

/-- The errors of a check are one for each pattern that cannot be set up, in their order. -/
theorem errors_checkPlan (r : Report) (c : RunPlan) :
    Report.errors (checkPlan read base r c) =
      r.errors ++ c.patterns.filterMap (complaint? read base) := by
  have hmaps : ∀ (ms : List MapPlan) (r : Report),
      Report.errors (ms.foldlM (checkMap read base) r : Id Report) =
        r.errors ++ (ms.flatMap MapPlan.patterns).filterMap (complaint? read base) := by
    intro ms
    induction ms with
    | nil => simp [pure]
    | cons m ms ih =>
        intro r
        rw [List.foldlM_cons]
        refine (ih (checkMap read base r m)).trans ?_
        rw [errors_checkMap, List.flatMap_cons, List.filterMap_append, List.append_assoc]
  have hnames : ∀ (names : List String) (r : Report),
      (names.foldl (fun r name =>
        r.warn ("缩放引用的模式 '" ++ name ++ "' 不存在，其缩放系数将为 0")) r).errors = r.errors := by
    intro names
    induction names with
    | nil => exact fun r => rfl
    | cons name names ih => exact fun r => ih _
  refine (hmaps c.maps _).trans ?_
  rw [errors_warnIf, hnames]
  rfl

theorem complaint?_eq_none_iff {p : PatternPlan} (hp : p.IsValid) :
    complaint? read base p = none ↔ Loads read base [p] := by
  have hdepends : Depends read base [p] (Setup.pattern read (fun _ => ()) base p none) :=
    depends_pattern hp _ none
  rw [← hdepends.isOk_iff, complaint?]
  cases Setup.pattern read (fun _ => ()) base p none <;> simp

theorem errors_check (path : List Char) :
    Report.errors (check read path) = [] ↔
      ∃ c, loadPlan read path = Except.ok c ∧ Loads read (Path.directory path) c.patterns := by
  cases hplan : loadPlan read path with
  | error e => simp [check, hplan, bind, pure, Report.error]
  | ok c =>
      have hvalid := RunPlan.isValid_of_validate (validate_of_loadPlan hplan)
      have herrors : Report.errors (check read path) =
          c.patterns.filterMap (complaint? read (Path.directory path)) := by
        simp only [check, hplan, bind]
        rw [errors_checkPlan]
        rfl
      rw [herrors, List.filterMap_eq_nil_iff]
      constructor
      · intro h
        refine ⟨c, rfl, fun p hp => ?_⟩
        exact (complaint?_eq_none_iff (hvalid p hp)).mp (h p hp) p (List.mem_singleton_self p)
      · rintro ⟨c', hc', hloads⟩ p hp
        obtain rfl := Except.ok.inj hc'
        refine (complaint?_eq_none_iff (hvalid p hp)).mpr fun q hq => ?_
        obtain rfl := List.mem_singleton.mp hq
        exact hloads q hp

theorem run_failure (path : List Char) (strict : Bool) :
    CommandResult.failure (run read path strict) = none ↔
      Report.isAccepted (check read path) strict = true := by
  simp only [run, bind, pure]
  cases Report.isAccepted (check read path) strict <;> simp

theorem run_failure_eq_none_iff (path : List Char) :
    CommandResult.failure (run read path false) = none ↔
      ∃ c, loadPlan read path = Except.ok c ∧ Loads read (Path.directory path) c.patterns := by
  rw [run_failure, ← errors_check]
  simp [Report.isAccepted]

/-- What passes the strict check passes the other one. -/
theorem run_failure_of_strict {path : List Char}
    (h : CommandResult.failure (run read path true) = none) :
    CommandResult.failure (run read path false) = none := by
  rw [run_failure, Report.isAccepted, Bool.and_eq_true] at h
  rw [run_failure, Report.isAccepted, h.1]
  rfl

/-- The check of a file accepts it exactly if a run of the file gets through its set-up, and a file
that the strict check accepts gets through as well. Once the plan could be read, both depend on the
mesh files alone: the parameters of velocity errors and the time series of a plan that was accepted
are accepted again, the set-up succeeds for every seed exactly if all mesh files can be loaded, and
fails for none but the mesh file of a pattern. -/
theorem run_failure_spec {γ : Type} (read : ReadFile Id) (seeding : Seeding γ)
    (path : List Char) :
    (CommandResult.failure (run read path false) = none ↔
      ∃ c f, Run.setUp read seeding path = Except.ok (c, f)) ∧
    (CommandResult.failure (run read path true) = none →
      ∃ c f, Run.setUp read seeding path = Except.ok (c, f)) ∧
    ∀ c, loadPlan read path = Except.ok c →
      (∀ p ∈ c.patterns, (∃ s, Sampler.ofParams p.spread = .ok s) ∧
        ∀ t ∈ p.timeSeries, ∃ x, t.factor = .ok x) ∧
      (CommandResult.failure (run read path false) = none ↔
        ∀ p ∈ c.patterns, ∃ field,
          loadField read (p.meshPath (Path.directory path)) = Except.ok field) ∧
      ∀ seed,
        ((∃ f, fleet read seeding (Path.directory path) { c with seed } = Except.ok f) ↔
          CommandResult.failure (run read path false) = none) ∧
        ∀ e, fleet read seeding (Path.directory path) { c with seed } = Except.error e →
          ∃ p ∈ c.patterns, ∃ cause,
            loadField read (p.meshPath (Path.directory path)) = Except.error cause ∧
              e = .mesh (String.ofList (p.meshPath (Path.directory path))) cause := by
  have haccepts : CommandResult.failure (run read path false) = none ↔
      ∃ c f, Run.setUp read seeding path = Except.ok (c, f) :=
    (run_failure_eq_none_iff path).trans exists_setUp_iff.symm
  refine ⟨haccepts, fun h => haccepts.mp (run_failure_of_strict h), fun c hc => ?_⟩
  have hvalid := validate_of_loadPlan hc
  have hloads : CommandResult.failure (run read path false) = none ↔
      Loads read (Path.directory path) c.patterns := by
    rw [run_failure_eq_none_iff, hc]
    exact ⟨fun ⟨c', hc', h⟩ => Except.ok.inj hc' ▸ h, fun h => ⟨c, rfl, h⟩⟩
  refine ⟨fun p hp => ?_, hloads, fun seed => ?_⟩
  · have hp' := RunPlan.isValid_of_validate hvalid p hp
    exact ⟨hp'.exists_sampler, hp'.exists_series⟩
  · have hdepends : Depends read (Path.directory path) c.patterns
        (fleet read seeding (Path.directory path) { c with seed }) :=
      depends_fleet ((c.validate_withSeed seed).trans hvalid)
    exact ⟨hdepends.isOk_iff.trans hloads.symm, fun e he => hdepends.isMeshFailure he⟩

/-- A plan of one particle in a steady current. -/
def bayText : List Char :=
  ("\x7b\"particles\": [[0.2, 0.2]], \"maps\": [\x7b\"name\": \"bay\", \"patterns\": [" ++
    "\x7b\"name\": \"tide\", \"topology_file\": \"tide.mesh\"\x7d]\x7d]\x7d").toList

def readBay : ReadFile Id :=
  (FileTree.ofFiles [("run.json".toList, bayText.flatMap String.utf8EncodeChar),
    ("tide.mesh".toList, Run.triangleText.flatMap String.utf8EncodeChar)]).read

/-- The strict check accepts the plan, and it is set up with any seed. -/
theorem run_failure_bay :
    CommandResult.failure (run readBay "run.json".toList true) = none ∧
      ∃ c, loadPlan readBay "run.json".toList = Except.ok c ∧
        ∀ seed, ∃ f, fleet readBay ChaCha.seeding [] { c with seed } = Except.ok f := by
  have haccepted : Report.isAccepted (check readBay "run.json".toList) true = true := by
    decide +kernel
  have hstrict := (run_failure "run.json".toList true).mpr haccepted
  have haccepts := run_failure_of_strict hstrict
  obtain ⟨c, hc, -⟩ := (run_failure_eq_none_iff "run.json".toList).mp haccepts
  obtain ⟨-, -, hseed⟩ := (run_failure_spec readBay ChaCha.seeding "run.json".toList).2.2 c hc
  exact ⟨hstrict, c, hc, fun seed => (hseed seed).1.mpr haccepts⟩

end Validate

end CurrentDrift
