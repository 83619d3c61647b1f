import CurrentDrift.Drift.Eddy
import CurrentDrift.Drift.Sampler
import CurrentDrift.Drift.Scaling
import CurrentDrift.Drift.TimeSeries

/-!
# Current patterns

A pattern is a flow field with all that turns its velocities into those of particles. What a
pattern is set up with stays the same during a run; what changes is its state.
-/

namespace CurrentDrift

/-- A pattern as it is set up, with its supply of velocity errors and its random source as they
are at the beginning. -/
structure Pattern (α β γ : Type) where
  name : String
  field : FlowField α
  rule : ScaleRule α
  reference : Point
  eddy : Eddy α
  factor : Option (TimeFactor α)
  isFactorActive : Bool
  isOn : Bool
  activeFrom : Option α
  activeUntil : Option α
  supply : β
  source : γ

/-- What changes in a pattern. -/
structure PatternStatus (α β γ : Type) where
  scale : α
  /-- The scale has been worked out, if only to find that there is none. -/
  isScaled : Bool
  lacksScale : Bool
  step : StepData α
  table : Option (SpreadTable α)
  /-- The scale is being worked out; another pattern that asks for it gets the present value. -/
  isResolving : Bool
  supply : β
  source : γ

namespace Pattern

variable {α β γ : Type} [Scalar α]

/-- A pattern that is used as its field is: not scaled, without a random walk, always on. -/
def plain (name : String) (field : FlowField α) (supply : β) (source : γ) : Pattern α β γ where
  name
  field
  rule := .unscaled
  reference := Point.zero
  eddy := Eddy.still
  factor := none
  isFactorActive := false
  isOn := true
  activeFrom := none
  activeUntil := none
  supply
  source

/-- The state at the beginning of a run. -/
def start (p : Pattern α β γ) : PatternStatus α β γ :=
  ⟨1.0, false, false, StepData.cleared, none, false, p.supply, p.source⟩

/-- Whether the pattern moves anything at a time. -/
def isActive (p : Pattern α β γ) (time : α) : Bool :=
  p.isOn && p.activeFrom.all (fun s => decide (s ≤ time)) &&
    p.activeUntil.all (fun e => decide (time ≤ e))

/-- The hydrology factor that takes the place of a scale. -/
def hydrology? (p : Pattern α β γ) : Option α := p.factor.bind fun f => f.hydrology

/-- What the scaled velocity is multiplied by at a time: zero where the time series has no value,
one without an active time series. -/
def timeFactor (p : Pattern α β γ) (time : α) : α :=
  match p.factor, p.isFactorActive with
  | some f, true =>
    match f.at time with
    | .ok v => v
    | .error _ => 0.0
  | _, _ => 1.0

/-- The velocity of the field, neither scaled nor varied. -/
def rawFlow (p : Pattern α β γ) (place : Point) : Except (DriftError α) (Velocity α) :=
  (p.field.sample place).mapError .mesh

/-- The velocity at a time under a scale, and whether the scaled flow is fast enough for eddies. -/
def flowUnder (p : Pattern α β γ) (scale : α) (time : α) (place : Point) :
    Except (DriftError α) (Velocity α × Bool) :=
  (p.rawFlow place).map fun raw =>
    let scaled := raw.scale scale
    (scaled.scale (p.timeFactor time),
      decide (p.eddy.halfSpeed * p.eddy.halfSpeed ≤ scaled.lengthSquared))

/-- The speed at a point without a scale and under one. -/
def speedsUnder (p : Pattern α β γ) (scale : α) (place : Point) : Except (DriftError α) (α × α) :=
  (p.rawFlow place).map fun raw => (raw.length, scale * raw.length)

end Pattern

namespace PatternStatus

variable {α β γ : Type} [Scalar α]

/-- Whether the scale has to be worked out before it is used: outside a prepared step, if it never
was or if it depends on another pattern. -/
def needsScale (s : PatternStatus α β γ) (rule : ScaleRule α) : Bool :=
  !s.step.isPrepared && (!s.isScaled || rule.dependsOnOther)

/-- The state once the scale is known. -/
def withScale (s : PatternStatus α β γ) (scale : α) : PatternStatus α β γ :=
  { s with scale, isScaled := true, lacksScale := false }

/-- The state after an attempt to find the scale. Without a scale the pattern moves nothing. -/
def withOutcome (s : PatternStatus α β γ) (outcome : Except (DriftError α) α) :
    PatternStatus α β γ :=
  match outcome with
  | .ok scale => s.withScale scale
  | .error _ => { s with scale := 0.0, isScaled := true, lacksScale := true }

end PatternStatus

end CurrentDrift
