import CurrentDrift.Scalar

/-!
# Points and displacements

Positions are whole microdegrees of longitude and latitude. Adding to a position stops at the ends
of the range instead of wrapping.
-/

namespace CurrentDrift

/-- A position, or a difference of positions, in microdegrees. -/
structure Point where
  long : Int32
  lat : Int32
  deriving DecidableEq, Repr

/-- A displacement: a horizontal one in microdegrees and a vertical one in metres. -/
structure Displacement (α : Type) where
  horizontal : Point
  vertical : α
  deriving Repr

namespace Point

variable {α : Type} [Scalar α]

def zero : Point := ⟨0, 0⟩

/-- The nearest position to a longitude and a latitude in degrees. -/
def ofDegrees (long lat : α) : Point :=
  ⟨Scalar.nearestInt32 (long * 1000000.0), Scalar.nearestInt32 (lat * 1000000.0)⟩

/-- A number of microdegrees in degrees. -/
def degrees (x : Int32) : α := Scalar.ofInt x.toInt / 1000000.0

/-- The sum of two numbers of microdegrees, kept inside the range. -/
def addWithin (x y : Int32) : Int32 := Scalar.clampInt32 (x.toInt + y.toInt)

/-- The position moved by a difference of positions, component by component. -/
def add (p d : Point) : Point := ⟨addWithin p.long d.long, addWithin p.lat d.lat⟩

/-- The length of a degree of longitude at a latitude, as a share of a degree of latitude. -/
def longitudeRatio (lat : Int32) : α := Scalar.cos (degrees lat * Scalar.pi / 180.0)

/-- The position moved by the horizontal part of a displacement. -/
def moved (p : Point) (d : Displacement α) : Point := p.add d.horizontal

end Point

namespace Displacement

variable {α : Type} [Scalar α]

def zero : Displacement α := ⟨Point.zero, 0.0⟩

/-- A horizontal displacement in degrees, cut off to whole microdegrees. -/
def ofDegrees (long lat : α) : Displacement α :=
  ⟨⟨Scalar.truncInt32 (long * 1000000.0), Scalar.truncInt32 (lat * 1000000.0)⟩, 0.0⟩

/-- One displacement after another. -/
def add (a b : Displacement α) : Displacement α :=
  ⟨a.horizontal.add b.horizontal, a.vertical + b.vertical⟩

def isZero (d : Displacement α) : Bool :=
  d.horizontal.long == 0 && d.horizontal.lat == 0 && d.vertical == 0.0

end Displacement

end CurrentDrift
