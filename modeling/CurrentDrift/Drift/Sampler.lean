import CurrentDrift.Drift.Clock
import CurrentDrift.Drift.SpreadTable
import CurrentDrift.Random.Source

/-!
# Sampling velocity errors

A table of velocity errors comes into force some time after the beginning of a run and is sampled
anew after a given time. Whatever supplies tables is a `TableSupply`; `Sampler` is the supply that
draws each error between two bounds.
-/

namespace CurrentDrift

/-- How large velocity errors are, and when they are sampled. Times are in seconds, bounds are
shares of the speed. -/
structure SpreadParams (α : Type) where
  lifetime : α
  delay : α
  up : α
  down : α
  left : α
  right : α
  deriving Repr

/-- What a supply has done at the beginning of a step. -/
structure Renewed (α β γ : Type) where
  outcome : Except (DriftError α) Unit
  supply : β
  source : γ
  table : Option (SpreadTable α)

/-- Something that keeps the table of a pattern up to date, with random words from a source. -/
class TableSupply (α β γ : Type) where
  renew : Moment α → β → γ → Option (SpreadTable α) → Renewed α β γ

namespace SpreadParams

variable {α : Type} [Scalar α]

def default : SpreadParams α := ⟨172800.0, 0.0, 0.3, -0.3, -0.1, 0.1⟩

/-- The first thing that is wrong with the parameters. -/
def fault? (p : SpreadParams α) : Option (SpreadFault α) :=
  if Scalar.isNaN p.lifetime || decide (p.lifetime ≤ 0.0) then some (.lifetime p.lifetime)
  else if Scalar.isNaN p.delay || decide (p.delay < 0.0) then
    some (.delay p.delay)
  else if [p.up, p.down, p.left, p.right].all Scalar.isFinite then none
  else some .unbounded

end SpreadParams

/-- A supply that draws all errors anew when they have become too old. -/
structure Sampler (α : Type) where
  params : SpreadParams α
  /-- The model time at which the present table was drawn. -/
  drawnAt : Option α
  deriving Repr

namespace Sampler

variable {α γ : Type} [Scalar α]

def default : Sampler α := ⟨SpreadParams.default, none⟩

def ofParams (p : SpreadParams α) : Except (SpreadFault α) (Sampler α) :=
  match p.fault? with
  | some fault => .error fault
  | none => .ok ⟨p, none⟩

variable [RandomSource α γ]

/-- Draws a record, the error along the flow first. -/
def drawRecord (p : SpreadParams α) (g : γ) : SpreadRecord α × γ :=
  let (d, g) := RandomSource.draw (Scalar.least p.down p.up) (Scalar.greatest p.down p.up) g
  let (c, g) := RandomSource.draw (Scalar.least p.left p.right) (Scalar.greatest p.left p.right) g
  (⟨d, c⟩, g)

/-- Draws records one after the other. -/
def drawRecords (p : SpreadParams α) :
    (n : Nat) → γ → { rs : List (SpreadRecord α) // rs.length = n } × γ
  | 0, g => (⟨[], rfl⟩, g)
  | n + 1, g =>
    let (r, g) := drawRecord p g
    let (⟨rs, h⟩, g) := drawRecords p n g
    (⟨r :: rs, congrArg Nat.succ h⟩, g)

/-- Draws a table for sets of the given sizes. -/
def drawTable (p : SpreadParams α) (sets : List Nat) (g : γ) : SpreadTable α × γ :=
  let (⟨rs, h⟩, g) := drawRecords p (SpreadTable.count sets) g
  (SpreadTable.ofSized sets rs.toArray h, g)

/-- Whether a table drawn at the given time is to be drawn anew now. -/
def isExpired (s : Sampler α) (now : α) : Bool :=
  match s.drawnAt with
  | none => true
  | some t => decide (now < t) || decide (s.params.lifetime ≤ now - t)

/-- Whether there is a table for sets of the given sizes. -/
def hasTableFor (table : Option (SpreadTable α)) (sets : List Nat) : Bool :=
  table.any fun t => t.fits sets

/-- Whether velocity errors are in force at a moment. -/
def isInForce (s : Sampler α) (m : Moment α) : Bool :=
  m.isUncertain && !m.sets.isEmpty && !decide (m.clock.elapsed < s.params.delay)

/-- Whether a table has to be drawn at a moment. -/
def mustDraw (s : Sampler α) (m : Moment α) (table : Option (SpreadTable α)) : Bool :=
  s.isInForce m && (s.isExpired m.clock.now || !hasTableFor table m.sets)

def renew (m : Moment α) (s : Sampler α) (g : γ) (table : Option (SpreadTable α)) :
    Renewed α (Sampler α) γ :=
  if !s.isInForce m then ⟨.ok (), { s with drawnAt := none }, g, none⟩
  else
    let now := m.clock.now
    if s.isExpired now || !hasTableFor table m.sets then
      let (t, g) := drawTable s.params m.sets g
      ⟨.ok (), { s with drawnAt := some now }, g, some t⟩
    else ⟨.ok (), s, g, table⟩

/-- `renew`, unless a table has to be drawn that there is no room for, which ends the program. -/
def renew? (m : Moment α) (s : Sampler α) (g : γ) (table : Option (SpreadTable α)) :
    Option (Renewed α (Sampler α) γ) :=
  if s.mustDraw m table && decide (SpreadTable.capacity < SpreadTable.count m.sets) then none
  else some (renew m s g table)

end Sampler

instance {α γ : Type} [Scalar α] [RandomSource α γ] : TableSupply α (Sampler α) γ where
  renew := Sampler.renew

end CurrentDrift
