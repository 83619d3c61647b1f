import CurrentDrift.Geo.Point

/-!
# Particles

What is moved. A forecast particle follows the flow as it is, an uncertain one follows a flow with
errors of its own, which are found by its set and its number in the set.
-/

namespace CurrentDrift

inductive ParticleKind where
  | forecast
  | uncertain
  deriving DecidableEq, Repr

structure Particle where
  set : Nat
  index : Nat
  position : Point
  kind : ParticleKind
  deriving DecidableEq, Repr

namespace Particle

def forecast (index : Nat) (position : Point) : Particle := ⟨0, index, position, .forecast⟩

def uncertain (set index : Nat) (position : Point) : Particle := ⟨set, index, position, .uncertain⟩

end Particle

end CurrentDrift
