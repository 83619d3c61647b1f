import CurrentDrift.Drift.Resolution

/-!
# One step of a pattern

A step of a run has three parts. Every mover prepares itself: it brings its table up to date, works
out its scale and stores what stays the same during the step. Then it is asked for the displacement
of every particle. At the end the stored values are forgotten.
-/

namespace CurrentDrift.Fleet

variable {α β γ : Type} [Scalar α]

/-- The speeds at a point without the scale and under the present one. -/
def speedsAt (f : Fleet α β γ) (s : f.States) (i : f.Index) (point : Point) :
    Except (DriftError α) (α × α) :=
  (f.pattern i).speedsUnder (s.get i).scale point

/-- What a pattern stores for a step. -/
def stepData (f : Fleet α β γ) (clock : Clock α) (i : f.Index) : StepData α :=
  ⟨clock.isFirst, true, (f.pattern i).eddy.walkSpeed clock.step⟩

/-- Prepares a pattern for a step. If the table cannot be brought up to date, the pattern is not
prepared; if there is no scale, it is prepared to move nothing. -/
def prepare [TableSupply α β γ] (f : Fleet α β γ) (m : Moment α) (s : f.States) (i : f.Index) :
    Except (DriftError α) Unit × f.States :=
  let r : Renewed α β γ := TableSupply.renew m (s.get i).supply (s.get i).source (s.get i).table
  let s := s.put i { s.get i with supply := r.supply, source := r.source, table := r.table }
  match r.outcome with
  | .error e => (.error e, s)
  | .ok () =>
    let s := (f.resolveScale m.clock.now s i).2
    (.ok (), s.put i { s.get i with step := f.stepData m.clock i })

/-- Forgets what a pattern has stored for the step. -/
def finish (f : Fleet α β γ) (s : f.States) (i : f.Index) : f.States :=
  s.put i { s.get i with step := StepData.cleared }

/-- The velocity of an uncertain particle: unchanged without a table, zero without a record. -/
def varied [RandomSource α γ] (f : Fleet α β γ) (s : f.States) (i : f.Index) (particle : Particle)
    (velocity : Velocity α) (dt : α) (useEddy : Bool) : Velocity α × f.States :=
  match (s.get i).table with
  | none => (velocity, s)
  | some table =>
    let (found, source) := (f.pattern i).eddy.disturb (some table) particle velocity (s.get i).step
      dt useEddy (s.get i).source
    let s := s.put i { s.get i with source }
    match found with
    | .ok v => (v, s)
    | .error _ => (Velocity.zero, s)

/-- How far a pattern moves a particle. It does not move particles out of its mesh, and none while
it is not active. -/
def move [RandomSource α γ] (f : Fleet α β γ) (m : Moment α) (s : f.States) (i : f.Index)
    (particle : Particle) (dt : α) : Displacement α × f.States :=
  if !(f.pattern i).isActive m.clock.now then (Displacement.zero, s)
  else
    match f.scaledFlow m.clock.now s i particle.position with
    | (.error _, s) => (Displacement.zero, s)
    | (.ok (velocity, useEddy), s) =>
      let (velocity, s) := match particle.kind with
        | .uncertain => f.varied s i particle velocity dt useEddy
        | .forecast => (velocity, s)
      (velocity.carry particle.position dt, s)

/-- How far a pattern moves particles, one after the other. -/
def moveEach [RandomSource α γ] (f : Fleet α β γ) (m : Moment α) (s : f.States) (i : f.Index)
    (particles : List Particle) (dt : α) : List (Displacement α) × f.States :=
  match particles with
  | [] => ([], s)
  | p :: ps =>
    let (d, s) := f.move m s i p dt
    let (ds, s) := f.moveEach m s i ps dt
    (d :: ds, s)

end CurrentDrift.Fleet
