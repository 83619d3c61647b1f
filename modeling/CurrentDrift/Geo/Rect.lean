import CurrentDrift.Geo.Point

/-!
# Bounding boxes

Boxes with sides along the meridians and parallels, closed on all sides.
-/

namespace CurrentDrift

structure Rect where
  west : Int32
  south : Int32
  east : Int32
  north : Int32
  deriving DecidableEq, Repr

namespace Rect

/-- The box of no points: its sides are crossed, so that the first point added sets all four. -/
def empty : Rect := ⟨Int32.maxValue, Int32.maxValue, Int32.minValue, Int32.minValue⟩

def isEmpty (r : Rect) : Bool := r.east < r.west || r.north < r.south

/-- The smallest box that holds a box and a point. -/
def insert (r : Rect) (p : Point) : Rect :=
  ⟨min r.west p.long, min r.south p.lat, max r.east p.long, max r.north p.lat⟩

/-- The smallest box that holds the given points. -/
def ofPoints (ps : Array Point) : Rect := ps.foldl insert empty

def contains (r : Rect) (p : Point) : Bool :=
  r.west ≤ p.long && p.long ≤ r.east && r.south ≤ p.lat && p.lat ≤ r.north

/-- The middle of two coordinates, without its fraction. -/
def middle (x y : Int32) : Int32 := Int32.ofInt ((x.toInt + y.toInt).tdiv 2)

def center (r : Rect) : Point := ⟨middle r.west r.east, middle r.south r.north⟩

end Rect

end CurrentDrift
