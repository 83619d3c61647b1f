import CurrentDrift.Drift.Error
import CurrentDrift.Mesh.FlowField

/-!
# Scaling a flow

The velocities of a flow field have a shape but not always a size. A scale factor gives them one:
from a speed that is wanted at a reference point, or from another pattern at that point.
-/

namespace CurrentDrift

/-- How the scale factor of a pattern is found. -/
inductive ScaleRule (α : Type) where
  /-- The factor is one. -/
  | unscaled
  /-- The speed at the reference point is to be `target`. -/
  | toSpeed (target : α)
  /-- The speed at the reference point is to be that of another pattern. -/
  | toPattern (name : String)
  deriving Repr

/-- Whether the factor may change while the run goes on. -/
def ScaleRule.dependsOnOther {α : Type} : ScaleRule α → Bool
  | toPattern _ => true
  | _ => false

namespace Scaling

variable {α : Type} [Scalar α]

/-- The largest scale factor. -/
def maxScale : α := 1000000.0

/-- The least speed that can be scaled. -/
def minLength : α := 1.0e-5

/-- The factor that gives a velocity a wanted speed. -/
def scaleToSpeed (target : α) (mine : Velocity α) : Except (ScaleFault α) α :=
  let length := mine.length
  if length * maxScale < Scalar.abs target then .error (.targetTooFast target length)
  else if length < minLength then .error (.referenceTooSlow length)
  else .ok (target / length)

/-- The factor that gives a velocity the speed of another one; it turns the velocity round if the
two point against each other. -/
def scaleToVelocity (mine theirs : Velocity α) : Except (ScaleFault α) α :=
  let mySquare := mine.lengthSquared
  let theirSquare := theirs.lengthSquared
  if mySquare * maxScale * maxScale < theirSquare then
    .error (.targetTooFast (Scalar.sqrt theirSquare) (Scalar.sqrt mySquare))
  else if mySquare < minLength * minLength then .error (.referenceTooSlow (Scalar.sqrt mySquare))
  else
    let scale := Scalar.sqrt (theirSquare / mySquare)
    .ok (if mine.dot theirs < 0.0 then -scale else scale)

/-- A reference point out of the mesh is a fault of the scale. -/
def referenceFault : DriftError α → DriftError α
  | .mesh (.outside _) => .scale .referenceOutside
  | e => e

/-- The velocity of a field at a reference point. -/
def sampleAt (field : FlowField α) (p : Point) : Except (DriftError α) (Velocity α) :=
  ((field.sample p).mapError DriftError.mesh).mapError referenceFault

/-- The scale factor of a field. `other` is the scaled velocity at the reference point of the
pattern that is to be matched, if there is such a pattern. -/
def factor (field : FlowField α) (rule : ScaleRule α) (reference : Point)
    (other : Option (Except (DriftError α) (Velocity α))) : Except (DriftError α) α :=
  match rule with
  | .unscaled => .ok 1.0
  | .toSpeed target => do
    let mine ← sampleAt field reference
    (scaleToSpeed target mine).mapError .scale
  | .toPattern name =>
    match other with
    | none => .error (.scale (.noSuchPattern name))
    | some found => do
      let theirs ← found.mapError referenceFault
      let mine ← sampleAt field reference
      (scaleToVelocity mine theirs).mapError .scale

end Scaling

end CurrentDrift
