import CurrentDrift.Command.FileTree
import CurrentDrift.Command.Run
import CurrentDrift.Proofs.Command.Setup
import CurrentDrift.Proofs.Drift.Forecast

/-! # What forecast positions depend on

Main statement: the forecast positions of a particle depend on where it starts and on what a plan
says about the clock and the flow, and on nothing else that a plan says: not on the seed, on the
uncertain particles and the errors of their velocities, on eddies or on other particles. -/

namespace CurrentDrift

variable {γ γ' : Type} {read read' : ReadFile Id} {base base' : List Char}

/-- Two parts of plans with the same flow: the same mesh, wherever it is read from, the same scale
and time series, and active at the same times. -/
structure PatternPlan.FlowsLike (read : ReadFile Id) (base : List Char) (p : PatternPlan)
    (read' : ReadFile Id) (base' : List Char) (p' : PatternPlan) : Prop where
  name : p'.name = p.name
  field : Setup.loadField read' (p'.meshPath base') = Setup.loadField read (p.meshPath base)
  scale : p'.scale = p.scale
  timeSeries : p'.timeSeries = p.timeSeries
  isOn : p'.isOn = p.isOn
  activeFrom : p'.activeFrom = p.activeFrom
  activeUntil : p'.activeUntil = p.activeUntil

/-- Two plans with the same clock and the same flows in the same order. -/
structure RunPlan.FlowsLike (read : ReadFile Id) (base : List Char) (c : RunPlan)
    (read' : ReadFile Id) (base' : List Char) (c' : RunPlan) : Prop where
  start : c'.start = c.start
  step : c'.step = c.step
  patterns : List.Forall₂ (fun p p' => p.FlowsLike read base read' base' p') c.patterns c'.patterns

/-- The random sources have no part in the flow. -/
theorem Pattern.FlowsLike.of_unsourced {α β : Type} [Scalar α] {x : Pattern α β γ}
    {x' : Pattern α β γ'} (h : x.unsourced.FlowsLike x'.unsourced) : x.FlowsLike x' :=
  ⟨h.name, h.field, h.rule, h.reference, h.hydrology?, h.timeFactor, h.isActive⟩

theorem PatternPlan.FlowsLike.of_makes {p p' : PatternPlan}
    {x : Pattern Float (Sampler Float) γ} {x' : Pattern Float (Sampler Float) γ'}
    (h : p.FlowsLike read base read' base' p') (hx : Setup.Makes read base p x.unsourced)
    (hx' : Setup.Makes read' base' p' x'.unsourced) : x.FlowsLike x' := by
  obtain ⟨field, sampler, factor, hfield, -, hfactor, hmade⟩ := hx
  obtain ⟨field', sampler', factor', hfield', -, hfactor', hmade'⟩ := hx'
  obtain rfl := Except.ok.inj (hfield'.symm.trans (h.field.trans hfield))
  have hsame : Setup.factor p' = Setup.factor p := by
    rw [Setup.factor, Setup.factor, h.timeSeries, h.name]
  obtain rfl := Except.ok.inj (hfactor'.symm.trans (hsame.trans hfactor))
  apply Pattern.FlowsLike.of_unsourced
  rw [hmade, hmade']
  constructor
  · exact h.name
  · rfl
  · exact congrArg ScalePlan.rule h.scale
  · exact congrArg ScalePlan.referencePoint h.scale
  · rfl
  · intro time
    simp only [Pattern.timeFactor, Setup.assemble, h.timeSeries]
  · intro time
    simp only [Pattern.isActive, Setup.assemble, h.isOn, h.activeFrom, h.activeUntil]

theorem Fleet.IsSetUp.flowsLike {c c' : RunPlan} {f : Fleet Float (Sampler Float) γ}
    {g : Fleet Float (Sampler Float) γ'} (hc : RunPlan.FlowsLike read base c read' base' c')
    (hf : f.IsSetUp read base c) (hg : g.IsSetUp read' base' c') : f.FlowsLike g := by
  have hf_size := hf.patterns.length_eq
  have hg_size := hg.patterns.length_eq
  have hc_size := hc.patterns.length_eq
  refine ⟨by omega, fun i => ?_⟩
  have hi : i.val < c.patterns.length := by omega
  have hi' : i.val < c'.patterns.length := by omega
  exact (hc.patterns.get hi hi').of_makes (hf.patterns.get hi i.isLt) (hg.patterns.get hi' _)

namespace Run

variable [RandomSource Float γ] [RandomSource Float γ']

/-- One function moves the forecast particles in the runs of two plans with the same flows. -/
theorem exists_move_of_isSetUp {c c' : RunPlan} {f : Fleet Float (Sampler Float) γ}
    {g : Fleet Float (Sampler Float) γ'} (hc : RunPlan.FlowsLike read base c read' base' c')
    (hf : f.IsSetUp read base c) (hg : g.IsSetUp read' base' c') (n : Nat) :
    ∃ move : Point → Point, (drift c f n).forecast = c.startPoints.map move ∧
      (drift c' g n).forecast = c'.startPoints.map move := by
  have h : f.FlowsLike g := hf.flowsLike hc hg
  have hclock : (start c' g).clock = (start c f).clock := by
    rw [start, start, hc.start, hc.step]
  exact h.alike_start.steps hf.hasOnlyPatterns hg.hasOnlyPatterns Sampler.neverFails
    Sampler.neverFails c.isUncertain c'.isUncertain n hclock

/-- If two plans with the same clock and the same flows are set up and then run with any random
sources, a forecast particle that starts at the same point in both is at the same position after
every number of steps, whichever number it has among the particles of either plan. -/
theorem forecast_eq_of_flowsLike {δ δ' : Type} {seeding : Seeding δ} {seeding' : Seeding δ'}
    {c c' : RunPlan} {f : RunFleet δ} {f' : RunFleet δ'}
    (hf : Setup.fleet read seeding base c = Except.ok f)
    (hf' : Setup.fleet read' seeding' base' c' = Except.ok f')
    (hc : RunPlan.FlowsLike read base c read' base' c')
    {g : Fleet Float (Sampler Float) γ} {g' : Fleet Float (Sampler Float) γ'}
    (hg : g.unsourced = f.unsourced) (hg' : g'.unsourced = f'.unsourced)
    {a b : Nat} {point : Point} (ha : c.startPoints[a]? = some point)
    (hb : c'.startPoints[b]? = some point) (n : Nat) :
    ∃ q, (drift c g n).forecast[a]? = some q ∧ (drift c' g' n).forecast[b]? = some q := by
  have hset : g.IsSetUp read base c := by
    rw [← Fleet.isSetUp_unsourced, hg, Fleet.isSetUp_unsourced]
    exact Fleet.isSetUp_of_fleet hf
  have hset' : g'.IsSetUp read' base' c' := by
    rw [← Fleet.isSetUp_unsourced, hg', Fleet.isSetUp_unsourced]
    exact Fleet.isSetUp_of_fleet hf'
  obtain ⟨move, hmove, hmove'⟩ := exists_move_of_isSetUp hc hset hset' n
  refine ⟨move point, ?_, ?_⟩
  · rw [hmove, List.getElem?_map, ha, Option.map_some]
  · rw [hmove', List.getElem?_map, hb, Option.map_some]

/-- A mesh of one triangle with a steady current. -/
def triangleText : List Char :=
  ("DAGTREE\nVertices 3\n0 0\n1 0\n0 1\n" ++ "Topology 1\n0 1 2 -1 -1 -1 0.5 0.25\n" ++
    "DAGTree 1\n1 -1 -1\n").toList

def readTriangle : ReadFile Id :=
  (FileTree.ofFiles [("tide.mesh".toList, triangleText.flatMap String.utf8EncodeChar)]).read

/-- A forecast of one particle. -/
def plainPlan : RunPlan :=
  { RunPlan.default with
    particles := [⟨0.2, 0.2⟩]
    maps := [⟨"bay", [PatternPlan.ofFile "tide" "tide.mesh"]⟩] }

/-- The same particle behind another one, in an uncertain current with eddies. -/
def uncertainPlan : RunPlan :=
  { RunPlan.default with
    isUncertain := true
    seed := some 7
    particles := [⟨0.3, 0.1⟩, ⟨0.2, 0.2⟩]
    maps := [⟨"bay", [{ PatternPlan.ofFile "tide" "tide.mesh" with
      eddy := ⟨100000.0, 0.1⟩
      spread := { SpreadParams.default with up := 0.5 } }]⟩] }

theorem flowsLike_uncertainPlan :
    RunPlan.FlowsLike readTriangle [] plainPlan readTriangle [] uncertainPlan where
  start := rfl
  step := rfl
  patterns := .cons ⟨rfl, rfl, rfl, rfl, rfl, rfl, rfl⟩ .nil

/-- Three steps of both plans. -/
theorem forecast_eq_of_flowsLike_uncertainPlan :
    ∃ f f', Setup.fleet readTriangle ChaCha.seeding [] plainPlan = Except.ok f ∧
      Setup.fleet readTriangle ChaCha.seeding [] uncertainPlan = Except.ok f' ∧
      ∃ q, (drift plainPlan f 3).forecast[0]? = some q ∧
        (drift uncertainPlan f' 3).forecast[1]? = some q := by
  have hok : (Setup.fleet readTriangle ChaCha.seeding [] plainPlan).toOption.isSome = true := by
    decide +kernel
  have hok' :
      (Setup.fleet readTriangle ChaCha.seeding [] uncertainPlan).toOption.isSome = true := by
    decide +kernel
  have hstart : plainPlan.startPoints[0]? = some ⟨200000, 200000⟩ := by decide +kernel
  have hstart' : uncertainPlan.startPoints[1]? = some ⟨200000, 200000⟩ := by decide +kernel
  cases hf : Setup.fleet readTriangle ChaCha.seeding [] plainPlan with
  | error e => simp [hf, Except.toOption] at hok
  | ok f =>
      cases hf' : Setup.fleet readTriangle ChaCha.seeding [] uncertainPlan with
      | error e => simp [hf', Except.toOption] at hok'
      | ok f' =>
          exact ⟨f, f', rfl, rfl,
            forecast_eq_of_flowsLike hf hf' flowsLike_uncertainPlan rfl rfl hstart hstart' 3⟩

end Run

end CurrentDrift
