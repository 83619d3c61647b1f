import CurrentDrift.Command.Failure
import CurrentDrift.Plan.Reader
import CurrentDrift.Mesh.File

/-!
# Setting up a run

From a plan to a fleet. Files are read as they are needed, and the first thing that fails
ends the set-up.
-/

namespace CurrentDrift

abbrev RunPattern (γ : Type) : Type := Pattern Float (Sampler Float) γ

abbrev RunFleet (γ : Type) : Type := Fleet Float (Sampler Float) γ

abbrev RunMap (γ : Type) : Type := FleetMap Float (Sampler Float) γ

namespace Setup

variable {m : Type → Type} [Monad m] {γ : Type}

/-- The flow field in the file at a path. -/
def loadField (read : ReadFile m) (path : List Char) :
    m (Except MeshError (FlowField Float)) := do
  match ← read path with
  | .ok bytes => pure (FlowField.ofFile bytes)
  | .error cause => pure (.error (.file cause))

/-- The plan in the file at a path. -/
def loadPlan (read : ReadFile m) (path : List Char) : m (Except PlanError RunPlan) := do
  match ← read path with
  | .ok bytes => pure (RunPlan.ofBytes bytes)
  | .error cause => pure (.error (.file cause))

/-- The sampler of a pattern. -/
def sampler (p : PatternPlan) : Except Failure (Sampler Float) :=
  (Sampler.ofParams p.spread).mapError (Failure.spread p.name)

/-- The time factor of a pattern, if it has a time series. -/
def factor (p : PatternPlan) : Except Failure (Option (TimeFactor Float)) :=
  match p.timeSeries with
  | none => .ok none
  | some t => (t.factor.mapError (Failure.timeSeries p.name t.points.length)).map some

/-- The pattern of a plan over its flow field. -/
def assemble (p : PatternPlan) (field : FlowField Float) (sampler : Sampler Float)
    (factor : Option (TimeFactor Float)) (source : γ) : RunPattern γ where
  name := p.name
  field
  rule := p.scale.rule
  reference := p.scale.referencePoint
  eddy := p.eddy
  factor
  isFactorActive := p.timeSeries.any fun t => t.isActive
  isOn := p.isOn
  activeFrom := p.activeFrom
  activeUntil := p.activeUntil
  supply := sampler
  source

/-- Sets up one pattern, its files being taken from a directory. -/
def pattern (read : ReadFile m) (seeding : Seeding γ) (base : List Char) (p : PatternPlan)
    (seed : Option UInt64) : m (Except Failure (RunPattern γ)) := do
  match sampler p with
  | .error e => pure (.error e)
  | .ok sampler =>
    let path := p.meshPath base
    match ← loadField read path with
    | .error e => pure (.error (.mesh (String.ofList path) e))
    | .ok field =>
      pure ((factor p).map fun factor => assemble p field sampler factor (seeding seed))

/-- The seed of pattern number `i`. -/
def seedOf (seed : Option UInt64) (i : Nat) : Option UInt64 := seed.map (· + UInt64.ofNat i)

/-- Sets up patterns, of which the first one has number `i`. -/
def patterns (read : ReadFile m) (seeding : Seeding γ) (base : List Char) (seed : Option UInt64) :
    Nat → List PatternPlan → m (Except Failure (List (RunPattern γ)))
  | _, [] => pure (.ok [])
  | i, p :: ps => do
    match ← pattern read seeding base p (seedOf seed i) with
    | .error e => pure (.error e)
    | .ok x =>
      match ← patterns read seeding base seed (i + 1) ps with
      | .error e => pure (.error e)
      | .ok xs => pure (.ok (x :: xs))

/-- Sets up maps, of which the first one begins with pattern number `i`. -/
def maps (read : ReadFile m) (seeding : Seeding γ) (base : List Char) (seed : Option UInt64) :
    Nat → List MapPlan → m (Except Failure (List (RunMap γ)))
  | _, [] => pure (.ok [])
  | i, c :: cs => do
    match ← patterns read seeding base seed i c.patterns with
    | .error e => pure (.error e)
    | .ok ps =>
      match ← maps read seeding base seed (i + c.patterns.length) cs with
      | .error e => pure (.error e)
      | .ok ms => pure (.ok (⟨c.name, ps.map Mover.current⟩ :: ms))

/-- Sets up all maps of a plan. Each pattern has a seed of its own. -/
def fleet (read : ReadFile m) (seeding : Seeding γ) (base : List Char) (c : RunPlan) :
    m (Except Failure (RunFleet γ)) := do
  pure ((← maps read seeding base c.seed 0 c.maps).map Fleet.mk)

end Setup

end CurrentDrift
