import CurrentDrift.Drift.Particle
import CurrentDrift.Drift.SpreadTable
import CurrentDrift.Geo.Velocity
import CurrentDrift.Random.Source

/-!
# Uncertain velocities

The velocity of an uncertain particle is varied along the flow and across it by the particle's
record, and by a random walk that stands for eddies. In slow water, where there is no direction to
go by, only the random walk is left.
-/

namespace CurrentDrift

/-- The strength of the random walk: a diffusion coefficient in square centimetres per second, and
the speed above which the flow itself weakens it. -/
structure Eddy (α : Type) where
  diffusion : α
  halfSpeed : α
  deriving Repr

/-- What a pattern works out once for a step. -/
structure StepData (α : Type) where
  isFirst : Bool
  isPrepared : Bool
  walkSpeed : α
  deriving Repr

/-- What is stored between two steps: nothing. -/
def StepData.cleared {α : Type} [Scalar α] : StepData α := ⟨false, false, 0.0⟩

namespace Eddy

variable {α γ : Type} [Scalar α]

/-- No random walk. -/
def still : Eddy α := ⟨0.0, 0.1⟩

/-- The least speed at which a velocity has a direction. -/
def minSpeed : α := 1.0e-6

/-- The speed of the random walk for a length of the time step. -/
def walkSpeed (e : Eddy α) (dt : α) : α :=
  Scalar.sqrt (6.0 * (e.diffusion / 10000.0) / dt)

/-- The random pair of one particle in one step: a point of the unit disk in the first step of a
run, a point of the square later, and nothing is drawn without the random walk. -/
def drawPair [RandomSource α γ] (useEddy : Bool) (step : StepData α) (g : γ) : (α × α) × γ :=
  if useEddy then if step.isFirst then Random.drawDisk g else Random.drawSquare g
  else ((0.0, 0.0), g)

/-- A velocity varied by a record and a random pair. -/
def vary (e : Eddy α) (record : SpreadRecord α) (velocity : Velocity α) (value : α)
    (useEddy : Bool) (r : α × α) : Velocity α :=
  let speed := velocity.length
  if minSpeed < speed then
    let gamma := if useEddy then value * e.halfSpeed / (speed * (e.halfSpeed + speed)) else 0.0
    let alpha := record.along + gamma * r.1
    let beta := record.across + gamma * r.2
    ⟨velocity.u * (1.0 + alpha) + velocity.v * beta, velocity.v * (1.0 + alpha) - velocity.u * beta⟩
  else if useEddy then ⟨value * r.1, value * r.2⟩
  else velocity

/-- The velocity of an uncertain particle. A particle without a record has none, and nothing is
drawn for it. -/
def disturb [RandomSource α γ] (e : Eddy α) (table : Option (SpreadTable α)) (particle : Particle)
    (velocity : Velocity α) (step : StepData α) (dt : α) (useEddy : Bool) (g : γ) :
    Except (DriftError α) (Velocity α) × γ :=
  match table.bind fun t => t.record? particle.set particle.index with
  | none => (.error (.recordMissing particle.set particle.index), g)
  | some record =>
    let (r, g) := drawPair useEddy step g
    let value := if step.isPrepared then step.walkSpeed else e.walkSpeed dt
    (.ok (e.vary record velocity value useEddy r), g)

end Eddy

end CurrentDrift
