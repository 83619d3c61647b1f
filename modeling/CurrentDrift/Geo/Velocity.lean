import CurrentDrift.Geo.Point

/-!
# Velocities

Horizontal velocities in metres per second, and the displacement that one causes.
-/

namespace CurrentDrift

/-- A velocity: `u` to the east and `v` to the north. -/
structure Velocity (α : Type) where
  u : α
  v : α
  deriving Repr

namespace Velocity

variable {α : Type} [Scalar α]

def zero : Velocity α := ⟨0.0, 0.0⟩

def dot (a b : Velocity α) : α := a.u * b.u + a.v * b.v

def lengthSquared (a : Velocity α) : α := a.dot a

def length (a : Velocity α) : α := Scalar.sqrt a.lengthSquared

def scale (a : Velocity α) (s : α) : Velocity α := ⟨a.u * s, a.v * s⟩

/-- Whether both components are zero, of either sign. -/
def isZero (a : Velocity α) : Bool := a.u == 0.0 && a.v == 0.0

/-- Metres in a degree of latitude. -/
def metresPerDegree : α := 111120.00024

/-- How far a velocity carries a particle from a position in a time. A degree of longitude is as
long as at the position's own latitude. -/
def carry (a : Velocity α) (here : Point) (time : α) : Displacement α :=
  Displacement.ofDegrees (a.u / metresPerDegree * time / Point.longitudeRatio here.lat)
    (a.v / metresPerDegree * time)

end Velocity

end CurrentDrift
