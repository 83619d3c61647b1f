import CurrentDrift.Scalar

/-!
# Random numbers

Random draws are numbers between two ends, which both are possible. A source of 64-bit words gives
them, one for each word; it may be a written list of words, or a generator. A point of the unit disk
takes two draws for each point of the square that is tried.
-/

namespace CurrentDrift

/-- A source of random numbers, of which each is drawn between two ends. -/
class RandomSource (α γ : Type) where
  draw : α → α → γ → α × γ

/-- The source that a seed begins, and the one that is begun where there is no seed. -/
abbrev Seeding (γ : Type) : Type := Option UInt64 → γ

/-- A source of 64-bit words. -/
class WordSource (γ : Type) where
  next : γ → UInt64 × γ

/-- A written list of words. After its end every word is the middle one. -/
structure WordScript where
  words : List UInt64
  /-- How many words have been taken. -/
  drawn : Nat
  deriving Repr

namespace WordScript

def ofList (words : List UInt64) : WordScript := ⟨words, 0⟩

def next (s : WordScript) : UInt64 × WordScript :=
  (s.words.headD 0x8000000000000000, ⟨s.words.tail, s.drawn + 1⟩)

end WordScript

instance : WordSource WordScript where
  next := WordScript.next

namespace Random

variable {α γ : Type} [Scalar α]

/-- The leading 52 bits of a word as a fraction of one. -/
def unitInterval (w : UInt64) : α := Scalar.ofInt (w >>> 12).toNat / 4503599627370496.0

/-- The largest value of `unitInterval`. -/
def greatestUnit : α := 1.0 - 1.0 / 4503599627370496.0

/-- The factor that stretches `unitInterval` to the width of a range; where rounding makes it too
large for the upper end, the next smaller one that is not. -/
def stretch (low high : α) : α :=
  Scalar.shrink (fun s => decide (high < s * greatestUnit + low)) ((high - low) / greatestUnit)

/-- The number between two ends that a word stands for. -/
def between (low high : α) (w : UInt64) : α := unitInterval w * stretch low high + low

instance [WordSource γ] : RandomSource α γ where
  draw low high g :=
    let (w, g) := WordSource.next g
    (between low high w, g)

variable [RandomSource α γ]

/-- Draws a point of the square from `-1` to `1`, the first coordinate first. -/
def drawSquare (g : γ) : (α × α) × γ :=
  let (x, g) := RandomSource.draw (-1.0) 1.0 g
  let (y, g) := RandomSource.draw (-1.0) 1.0 g
  ((x, y), g)

/-- Whether a point lies in the unit disk or on its border. -/
def inUnitDisk (p : α × α) : Bool := decide (p.1 * p.1 + p.2 * p.2 ≤ 1.0)

/-- Draws points of the square until the latest one lies in the unit disk. This goes on for ever in
a source that has no such point. -/
def drawDisk (g : γ) : (α × α) × γ := Id.run do
  let mut latest : (α × α) × γ := drawSquare g
  while !inUnitDisk latest.1 do
    latest := drawSquare latest.2
  return latest

end Random

end CurrentDrift
