import CurrentDrift.Drift.Run
import CurrentDrift.Path

/-!
# Plans of runs

What a run needs to know: its clock, where the particles start, and the maps with their current
patterns. Positions are in degrees, and the paths of mesh files are taken from the directory of the
plan.
-/

namespace CurrentDrift

/-- A position in degrees. -/
structure Degrees where
  long : Float
  lat : Float
  deriving Repr

def Degrees.point (d : Degrees) : Point := Point.ofDegrees d.long d.lat

/-- How a pattern is scaled. -/
inductive ScalePlan where
  | unscaled
  /-- To a speed at a reference point. -/
  | atSpeed (value : Float) (reference : Degrees)
  /-- To another pattern at a reference point. -/
  | likePattern (name : String) (reference : Degrees)
  deriving Repr

namespace ScalePlan

def reference? : ScalePlan → Option Degrees
  | unscaled => none
  | atSpeed _ reference => some reference
  | likePattern _ reference => some reference

def rule : ScalePlan → ScaleRule Float
  | unscaled => .unscaled
  | atSpeed value _ => .toSpeed value
  | likePattern name _ => .toPattern name

def referencePoint (s : ScalePlan) : Point := (s.reference?.map Degrees.point).getD Point.zero

/-- The name of the pattern that is referred to. -/
def referredName? : ScalePlan → Option String
  | likePattern name _ => some name
  | _ => none

end ScalePlan

/-- A time series that a pattern is multiplied by. -/
structure SeriesPlan where
  points : List (Float × Float)
  extrapolation : Extrapolation
  hydrology : Option Float
  /-- An inactive series is kept and not used as a factor. -/
  isActive : Bool
  deriving Repr

/-- The series with its hydrology factor. -/
def SeriesPlan.factor (t : SeriesPlan) : Except (SeriesFault Float) (TimeFactor Float) :=
  (TimeSeries.ofPoints t.points).map fun s => ⟨s.extrapolatedBy t.extrapolation, t.hydrology⟩

structure PatternPlan where
  name : String
  meshFile : String
  scale : ScalePlan
  eddy : Eddy Float
  spread : SpreadParams Float
  timeSeries : Option SeriesPlan
  isOn : Bool
  activeFrom : Option Float
  activeUntil : Option Float
  deriving Repr

namespace PatternPlan

/-- A pattern of which only the name and the mesh file are given. -/
def ofFile (name meshFile : String) : PatternPlan where
  name
  meshFile
  scale := .unscaled
  eddy := Eddy.still
  spread := SpreadParams.default
  timeSeries := none
  isOn := true
  activeFrom := none
  activeUntil := none

/-- The path of the mesh file, taken from a directory. -/
def meshPath (p : PatternPlan) (base : List Char) : List Char := Path.join base p.meshFile.toList

end PatternPlan

structure MapPlan where
  name : String
  patterns : List PatternPlan
  deriving Repr

structure RunPlan where
  start : Float
  duration : Float
  step : Float
  isUncertain : Bool
  /-- Without a seed the random numbers of a run are arbitrary. -/
  seed : Option UInt64
  particles : List Degrees
  maps : List MapPlan
  deriving Repr

namespace RunPlan

def default : RunPlan := ⟨0.0, 86400.0, 900.0, false, none, [], []⟩

/-- All patterns in order. -/
def patterns (c : RunPlan) : List PatternPlan := c.maps.flatMap fun m => m.patterns

/-- The number of steps; a rest of a step counts as one. -/
def stepCount (c : RunPlan) : UInt64 := Binary64.ceilWord (c.duration / c.step)

def startPoints (c : RunPlan) : List Point := c.particles.map Degrees.point

/-- The names that scales refer to and no pattern has. -/
def unresolvedNames (c : RunPlan) : List String :=
  let names := c.patterns.map fun p => p.name
  (c.patterns.filterMap fun p => p.scale.referredName?).filter fun n => !names.contains n

end RunPlan

end CurrentDrift
