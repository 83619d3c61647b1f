import CurrentDrift.Scalar

/-!
# The clock of a run

Times are seconds. A step of a run happens at a moment: the clock, and what is known about the
particles that follow an uncertain flow.
-/

namespace CurrentDrift

structure Clock (α : Type) where
  now : α
  origin : α
  step : α
  deriving Repr

namespace Clock

variable {α : Type} [Scalar α]

/-- The clock at the beginning of a run. -/
def start (origin step : α) : Clock α := ⟨origin, origin, step⟩

def isFirst (c : Clock α) : Bool := c.now == c.origin

def elapsed (c : Clock α) : α := c.now - c.origin

def advance (c : Clock α) : Clock α := { c with now := c.now + c.step }

end Clock

/-- The time of a step, and the sizes of the sets of uncertain particles if there are any. The
patterns that a pattern may ask are those of its own fleet, which are no part of the moment. -/
structure Moment (α : Type) where
  clock : Clock α
  isUncertain : Bool
  sets : List Nat
  deriving Repr

namespace Moment

variable {α : Type}

def certain (clock : Clock α) : Moment α := ⟨clock, false, []⟩

def uncertain (clock : Clock α) (sets : List Nat) : Moment α := ⟨clock, true, sets⟩

end Moment

end CurrentDrift
