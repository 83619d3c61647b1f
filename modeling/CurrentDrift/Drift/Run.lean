import CurrentDrift.Drift.Step

/-!
# Running movers

In each step all movers prepare themselves, then every particle is moved by the sum of what those
movers do that could prepare, all at the position of the beginning of the step, and then all movers
finish the step.

A mover may keep what it likes from one call to the next, and while it prepares and moves it is
shown the other movers. So what all of them keep is one state, which any call may change. -/

namespace CurrentDrift

/-- The particles of a run: those that follow the flow as it is, and those that follow uncertain
versions of it. -/
structure Swarm where
  forecast : List Point
  uncertain : List Point
  deriving DecidableEq, Repr

namespace Swarm

/-- Particles at the given points, a second time as uncertain ones if asked for. -/
def ofPoints (points : List Point) (isUncertain : Bool) : Swarm :=
  ⟨points, if isUncertain then points else []⟩

/-- All particles as they are moved: the forecast ones, then the only set of uncertain ones. -/
def forecastParticles (ps : Swarm) : List Particle :=
  ps.forecast.zipIdx.map fun (p, i) => Particle.forecast i p

def uncertainParticles (ps : Swarm) : List Particle :=
  ps.uncertain.zipIdx.map fun (p, i) => Particle.uncertain 0 i p

end Swarm

/-- Points, each moved by the displacement at its place. A point without one stays. -/
def Point.movedBy {α : Type} [Scalar α] : List Point → List (Displacement α) → List Point
  | p :: ps, d :: ds => p.moved d :: movedBy ps ds
  | ps, _ => ps

/-- Movers of any kind, in the order in which they are asked, and what a call to one of them does to
the state of all. -/
structure Crew (α S μ : Type) where
  movers : List μ
  prepare : Moment α → S → μ → Except (DriftError α) Unit × S
  move : Moment α → S → Particle → α → μ → Displacement α × S
  finish : S → μ → S

namespace Crew

variable {α S μ : Type}

/-- Prepares movers one after the other. -/
def prepareAll (prepare : S → μ → Except (DriftError α) Unit × S) (s : S) :
    List μ → List (μ × Except (DriftError α) Unit) × S
  | [] => ([], s)
  | x :: xs =>
    let (outcome, s) := prepare s x
    let (outcomes, s) := prepareAll prepare s xs
    ((x, outcome) :: outcomes, s)

/-- The movers that are prepared. -/
def ready (outcomes : List (μ × Except (DriftError α) Unit)) : List μ :=
  outcomes.filterMap fun (x, outcome) =>
    match outcome with
    | .ok () => some x
    | .error _ => none

variable [Scalar α]

/-- How far movers together move a particle. -/
def moveBy (move : S → Particle → μ → Displacement α × S) (ready : List μ) (s : S)
    (particle : Particle) : Displacement α × S :=
  ready.foldl (fun (total, s) x =>
      let (d, s) := move s particle x
      (total.add d, s))
    (Displacement.zero, s)

/-- How far movers together move particles, one after the other. -/
def moveAll (move : S → Particle → μ → Displacement α × S) (ready : List μ) (s : S) :
    List Particle → List (Displacement α) × S
  | [] => ([], s)
  | p :: ps =>
    let (d, s) := moveBy move ready s p
    let (ds, s) := moveAll move ready s ps
    (d :: ds, s)

/-- One step of a run. No particle is moved before all displacements are known. -/
def step (c : Crew α S μ) (m : Moment α) (s : S) (ps : Swarm) : Swarm × S :=
  let (outcomes, s) := prepareAll (c.prepare m) s c.movers
  let move (s : S) (particle : Particle) (x : μ) := c.move m s particle m.clock.step x
  let (forecast, s) := moveAll move (ready outcomes) s ps.forecastParticles
  let (uncertain, s) := moveAll move (ready outcomes) s ps.uncertainParticles
  (⟨Point.movedBy ps.forecast forecast, Point.movedBy ps.uncertain uncertain⟩,
    c.movers.foldl c.finish s)

end Crew

/-- What a run has come to. -/
structure Stage (α S : Type) where
  clock : Clock α
  states : S
  particles : Swarm

namespace Stage

variable {α S μ : Type}

/-- The moment of the next step. The uncertain particles, if the run has them, are one set. -/
def moment (r : Stage α S) (isUncertain : Bool) : Moment α :=
  if isUncertain then Moment.uncertain r.clock [r.particles.uncertain.length]
  else Moment.certain r.clock

variable [Scalar α]

/-- One step, after which the clock goes on. -/
def step (c : Crew α S μ) (isUncertain : Bool) (r : Stage α S) : Stage α S :=
  let (particles, states) := c.step (r.moment isUncertain) r.states r.particles
  ⟨r.clock.advance, states, particles⟩

/-- So many steps. -/
def steps (c : Crew α S μ) (isUncertain : Bool) : Nat → Stage α S → Stage α S
  | 0, r => r
  | n + 1, r => steps c isUncertain n (r.step c isUncertain)

end Stage

/-! ## The movers of a fleet -/

/-- A mover of a fleet: a current pattern by its number, or one of another kind. -/
inductive Fleet.Member {α β γ : Type} (f : Fleet α β γ) (κ : Type := SimpleMover α) where
  | current (i : f.Index)
  | other (x : κ)

/-- Movers of other kinds beside the patterns of a fleet. The state has the states of the patterns
in it, and to prepare and to move they may do anything to it. At the end of a step they are not told
the moment, without which no pattern can be prepared, so that what is cleared by then stays so. -/
structure Fleet.Company {α β γ : Type} [Scalar α] (f : Fleet α β γ) (S κ : Type) where
  patterns : S → f.States
  withPatterns : S → f.States → S
  patterns_withPatterns : ∀ s t, patterns (withPatterns s t) = t
  prepare : Moment α → S → κ → Except (DriftError α) Unit × S
  move : Moment α → S → Particle → α → κ → Displacement α × S
  finish : S → κ → S
  cleared_finish : ∀ s x i, ((patterns s).get i).step = StepData.cleared →
    ((patterns (finish s x)).get i).step = StepData.cleared

namespace Fleet

variable {α β γ : Type} [Scalar α]

namespace Company

variable {f : Fleet α β γ} {S κ : Type} (o : f.Company S κ)

def prepareMember [TableSupply α β γ] (m : Moment α) (s : S) :
    Member f κ → Except (DriftError α) Unit × S
  | .current i =>
    let (outcome, t) := f.prepare m (o.patterns s) i
    (outcome, o.withPatterns s t)
  | .other x => o.prepare m s x

def moveMember [RandomSource α γ] (m : Moment α) (s : S) (particle : Particle) (dt : α) :
    Member f κ → Displacement α × S
  | .current i =>
    let (d, t) := f.move m (o.patterns s) i particle dt
    (d, o.withPatterns s t)
  | .other x => o.move m s particle dt x

def finishMember (s : S) : Member f κ → S
  | .current i => o.withPatterns s (f.finish (o.patterns s) i)
  | .other x => o.finish s x

/-- The crew of some patterns of the fleet and some other movers, in any order. -/
def crew [RandomSource α γ] [TableSupply α β γ] (movers : List (Member f κ)) :
    Crew α S (Member f κ) where
  movers
  prepare := o.prepareMember
  move := o.moveMember
  finish := o.finishMember

end Company

/-- Other movers that keep nothing and ask no pattern. -/
def simple (f : Fleet α β γ) : f.Company f.States (SimpleMover α) where
  patterns s := s
  withPatterns _ t := t
  patterns_withPatterns _ _ := rfl
  prepare m s x := (x.prepare m, s)
  move m s particle dt x := (x.move m particle dt, s)
  finish s _ := s
  cleared_finish _ _ _ h := h

/-- The mover at a place. -/
def member? (f : Fleet α β γ) (place : Place) (mover : Mover α β γ) :
    Option (Member f) :=
  match mover with
  | .simple m => some (.other m)
  | .current _ => (f.index? place).map .current

/-- All movers in order. -/
def members (f : Fleet α β γ) : List (Member f) :=
  f.movers.filterMap fun (place, mover) => f.member? place mover

/-- Ends the step of all movers. -/
def finishAll (f : Fleet α β γ) (s : f.States) : f.States :=
  f.members.foldl f.simple.finishMember s

/-- Prepares movers one after the other. -/
def prepareAll [TableSupply α β γ] (f : Fleet α β γ) (m : Moment α) (s : f.States)
    (xs : List (Member f)) :
    List (Member f × Except (DriftError α) Unit) × f.States :=
  Crew.prepareAll (f.simple.prepareMember m) s xs

/-- How far movers together move particles in a step, one after the other. -/
def moveAll [RandomSource α γ] (f : Fleet α β γ) (m : Moment α)
    (ready : List (Member f)) (s : f.States) (particles : List Particle) :
    List (Displacement α) × f.States :=
  Crew.moveAll (fun s particle => f.simple.moveMember m s particle m.clock.step) ready s particles

variable [RandomSource α γ] [TableSupply α β γ]

/-- All movers of a fleet. -/
def crew (f : Fleet α β γ) : Crew α f.States (Member f) := f.simple.crew f.members

/-- One step of a run. -/
def step (f : Fleet α β γ) (m : Moment α) (s : f.States) (ps : Swarm) : Swarm × f.States :=
  f.crew.step m s ps

end Fleet

/-- What a run of a fleet has come to. -/
abbrev RunState {α β γ : Type} (f : Fleet α β γ) : Type := Stage α f.States

namespace RunState

variable {α β γ : Type} [Scalar α] [RandomSource α γ] [TableSupply α β γ] {f : Fleet α β γ}

/-- One step, after which the clock goes on. -/
def step (isUncertain : Bool) (r : RunState f) : RunState f := Stage.step f.crew isUncertain r

/-- So many steps. -/
def steps (isUncertain : Bool) (n : Nat) (r : RunState f) : RunState f :=
  Stage.steps f.crew isUncertain n r

end RunState

end CurrentDrift
