import CurrentDrift.Drift.Error

/-!
# Tables of velocity errors

For every uncertain particle, the share by which its velocity is larger along the flow and turned
across it. The particles are numbered set by set. Numbers of particles are words of 64 bits, and
their sums wrap around. -/

namespace CurrentDrift

/-- The error of one particle's velocity along the flow and across it. -/
structure SpreadRecord (α : Type) where
  along : α
  across : α
  deriving Repr

namespace SpreadTable

/-- The sum of two numbers of particles. -/
def add (x y : Nat) : Nat := (x + y) % UInt64.size

/-- The number of particles in sets of the given sizes. -/
def count (sets : List Nat) : Nat := sets.foldl add 0

/-- How many records there is room for: memory comes in blocks of less than `2 ^ 63` bytes, of which
a record takes sixteen. -/
def capacity : Nat := (UInt64.size / 2 - 1) / 16

/-- Puts the beginning of a set behind those of the sets before, and goes on to its end. -/
def place (places : Array Nat × Nat) (size : Nat) : Array Nat × Nat :=
  (places.1.push places.2, add places.2 size)

/-- The positions of the first records of all sets, one set after the other. -/
def offsetsOf (sets : List Nat) : Array Nat := (sets.foldl place (#[], 0)).1

theorem size_foldl_place (sets : List Nat) (places : Array Nat × Nat) :
    (sets.foldl place places).1.size = places.1.size + sets.length := by
  induction sets generalizing places with
  | nil => rfl
  | cons size sets ih =>
      rw [List.foldl_cons, ih, place, Array.size_push, List.length_cons]
      omega

theorem size_offsetsOf (sets : List Nat) : (offsetsOf sets).size = sets.length := by
  rw [offsetsOf, size_foldl_place, Array.size_empty, Nat.zero_add]

end SpreadTable

/-- One record for each particle of the sets, set after set. -/
structure SpreadTable (α : Type) where
  sets : List Nat
  /-- The positions of the first records of the sets. -/
  offsets : Array Nat
  records : Array (SpreadRecord α)
  offsets_eq : offsets = SpreadTable.offsetsOf sets
  records_size : records.size = SpreadTable.count sets

namespace SpreadTable

variable {α : Type}

/-- The table of as many records as there are particles. -/
def ofSized (sets : List Nat) (records : Array (SpreadRecord α))
    (h : records.size = count sets) : SpreadTable α where
  sets
  offsets := offsetsOf sets
  records
  offsets_eq := rfl
  records_size := h

def ofRecords (sets : List Nat) (records : Array (SpreadRecord α)) :
    Except (SpreadFault α) (SpreadTable α) :=
  if h : records.size = count sets then .ok (ofSized sets records h)
  else .error (.recordCount records.size (count sets))

/-- The table that gives all particles the same record. -/
def uniform (sets : List Nat) (record : SpreadRecord α) : SpreadTable α :=
  ofSized sets (Array.replicate (count sets) record) Array.size_replicate

theorem offsets_size (t : SpreadTable α) : t.offsets.size = t.sets.length := by
  rw [t.offsets_eq, size_offsetsOf]

/-- The record of a particle. -/
def record? (t : SpreadTable α) (set index : Nat) : Option (SpreadRecord α) :=
  if h : set < t.sets.length then
    have := t.offsets_size
    if index < t.sets[set] then t.records[add t.offsets[set] index]? else none
  else none

def fits (t : SpreadTable α) (sets : List Nat) : Bool := t.sets == sets

end SpreadTable

end CurrentDrift
