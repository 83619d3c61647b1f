import CurrentDrift.Drift.Error

/-!
# Time series

A quantity known at some times. Between two of them it is interpolated along a straight line;
before the first and after the last one an `Extrapolation` decides.
-/

namespace CurrentDrift

/-- What a time series is worth outside its range. -/
inductive Extrapolation where
  /-- The nearest value. -/
  | clamp
  /-- The first or the last line goes on. -/
  | linear
  /-- The range repeats itself. -/
  | cyclic
  /-- Nothing. -/
  | reject
  deriving DecidableEq, Repr

def Extrapolation.name : Extrapolation → String
  | clamp => "Clamp"
  | linear => "Linear"
  | cyclic => "Cyclic"
  | reject => "Reject"

/-- Points in time with their values, at least one. -/
structure TimeSeries (α : Type) where
  points : Array (α × α)
  extrapolation : Extrapolation
  points_pos : 0 < points.size

namespace TimeSeries

variable {α : Type} [Scalar α]

/-- The first time that is not after the one before it, with its index. -/
def firstDisorder? (i : Nat) : List α → Option (Nat × α × α)
  | s :: t :: r => if t ≤ s then some (i + 1, t, s) else firstDisorder? (i + 1) (t :: r)
  | _ => none

/-- The series of the given times and values, the times in their order. -/
def ofColumns (times values : List α) : Except (SeriesFault α) (TimeSeries α) :=
  if times.length ≠ values.length then .error (.lengths times.length values.length)
  else
    let points := (times.zip values).toArray
    if h : points.size = 0 then .error .empty
    else
      match firstDisorder? 0 times with
      | some (i, t, s) => .error (.disorder i t s)
      | none => .ok ⟨points, .clamp, Nat.pos_of_ne_zero h⟩

def ofPoints (points : List (α × α)) : Except (SeriesFault α) (TimeSeries α) :=
  ofColumns (points.map Prod.fst) (points.map Prod.snd)

def extrapolatedBy (s : TimeSeries α) (e : Extrapolation) : TimeSeries α :=
  { s with extrapolation := e }

def first (s : TimeSeries α) : α × α :=
  have := s.points_pos
  s.points[0]

def last (s : TimeSeries α) : α × α :=
  have := s.points_pos
  s.points[s.points.size - 1]

/-- Whether the time of point `i` has come. -/
def hasCome (s : TimeSeries α) (t : α) (i : Nat) : Bool :=
  s.points[i]?.any fun p => decide (p.1 ≤ t)

/-- Halves a window of `size` points from `base` on until one point is left, which is the last one
whose time has come, or the first of the window. -/
def narrow (s : TimeSeries α) (t : α) (base size : Nat) : Nat :=
  if size ≤ 1 then base
  else
    let half := size / 2
    s.narrow t (if s.hasCome t (base + half) then base + half else base) (size - half)
termination_by size

/-- The number of points whose time has come. -/
def countCome (s : TimeSeries α) (t : α) : Nat :=
  let i := s.narrow t 0 s.points.size
  if s.hasCome t i then i + 1 else i

/-- The value at a time in the range. -/
def interpolate (s : TimeSeries α) (t : α) : α :=
  match s.countCome t with
  | 0 => s.first.2
  | i + 1 =>
    match s.points[i]?, s.points[i + 1]? with
    | some (t0, v0), some (t1, v1) => v0 + (t - t0) / (t1 - t0) * (v1 - v0)
    | _, _ => s.last.2

/-- The value at a time out of the range, on the line through two points. -/
def onLine (anchor : α × α) (earlier later : α × α) (t : α) : α :=
  anchor.2 + (later.2 - earlier.2) / (later.1 - earlier.1) * (t - anchor.1)

/-- The value at a time out of the range. -/
def extrapolate? (s : TimeSeries α) (t : α) : Option α :=
  let isBefore := decide (t < s.first.1)
  match s.extrapolation with
  | .reject => none
  | .clamp => some (if isBefore then s.first.2 else s.last.2)
  | .cyclic =>
    let period := s.last.1 - s.first.1
    if period < 1.0e-12 then some s.first.2
    else some (s.interpolate (s.first.1 + Scalar.modulo (t - s.first.1) period))
  | .linear =>
    match s.points[1]?, s.points[s.points.size - 2]? with
    | some second, some beforeLast =>
      some (if isBefore then onLine s.first s.first second t else onLine s.last beforeLast s.last t)
    | _, _ => some s.first.2

/-- The value at a time; nothing where the series is not extrapolated. -/
def value? (s : TimeSeries α) (t : α) : Option α :=
  if t < s.first.1 ∨ s.last.1 < t then s.extrapolate? t else some (s.interpolate t)

end TimeSeries

/-- A time series that a flow is multiplied by. A hydrology factor, if there is one, takes the
place of the flow's own scale. -/
structure TimeFactor (α : Type) where
  series : TimeSeries α
  hydrology : Option α

/-- The factor at a time. -/
def TimeFactor.at {α : Type} [Scalar α] (f : TimeFactor α) (t : α) : Except (DriftError α) α :=
  match f.series.value? t with
  | some v => .ok v
  | none => .error (.lookup t (.outsideRange f.series.first.1 f.series.last.1))

end CurrentDrift
