import CurrentDrift.Drift.Pattern

/-!
# Fleets of movers

The movers of a run, map by map. Movers are numbered in the order of the maps and, in a map, in the
order in which they were added. Current patterns have states; a mover of another kind is known only
by what it does.
-/

namespace CurrentDrift

/-- A mover without a state of its own. -/
structure SimpleMover (α : Type) where
  name : String
  prepare : Moment α → Except (DriftError α) Unit
  move : Moment α → Particle → α → Displacement α

/-- A mover that moves nothing. -/
def SimpleMover.idle {α : Type} [Scalar α] (name : String) : SimpleMover α where
  name
  prepare _ := .ok ()
  move _ _ _ := Displacement.zero

inductive Mover (α β γ : Type) where
  | current (pattern : Pattern α β γ)
  | simple (mover : SimpleMover α)

namespace Mover

variable {α β γ : Type}

def name : Mover α β γ → String
  | current p => p.name
  | simple m => m.name

def pattern? : Mover α β γ → Option (Pattern α β γ)
  | current p => some p
  | simple _ => none

end Mover

/-- A map with its movers. -/
structure FleetMap (α β γ : Type) where
  name : String
  movers : List (Mover α β γ)

/-- All movers of a run. -/
structure Fleet (α β γ : Type) where
  maps : List (FleetMap α β γ)

/-- Where a mover is: its map, and its number in the map. -/
structure Place where
  map : Nat
  slot : Nat
  deriving DecidableEq, Repr

namespace Fleet

variable {α β γ : Type}

def empty : Fleet α β γ := ⟨[]⟩

/-- All movers in order, with their places. -/
def movers (f : Fleet α β γ) : List (Place × Mover α β γ) :=
  f.maps.zipIdx.flatMap fun (m, i) => m.movers.zipIdx.map fun (mover, k) => (⟨i, k⟩, mover)

/-- All current patterns in order, with their places. -/
def patterns (f : Fleet α β γ) : List (Place × Pattern α β γ) :=
  f.movers.filterMap fun (place, mover) => mover.pattern?.map fun p => (place, p)

/-- The number of a current pattern among all current patterns. -/
abbrev Index (f : Fleet α β γ) : Type := Fin f.patterns.length

def pattern (f : Fleet α β γ) (i : f.Index) : Pattern α β γ := f.patterns[i].2

def place (f : Fleet α β γ) (i : f.Index) : Place := f.patterns[i].1

/-- The current pattern at a place. -/
def index? (f : Fleet α β γ) (place : Place) : Option f.Index :=
  (List.finRange f.patterns.length).find? fun i => f.place i = place

/-- The first current pattern of that name, passing over an excluded one. -/
def find? (f : Fleet α β γ) (name : String) (excluded : Option f.Index) : Option f.Index :=
  (List.finRange f.patterns.length).find? fun i => excluded ≠ some i && (f.pattern i).name == name

/-- Adds a map without movers behind the others. -/
def withMap (f : Fleet α β γ) (name : String) : Fleet α β γ := ⟨f.maps ++ [⟨name, []⟩]⟩

/-- Adds a mover behind the others of a map. -/
def withMover (f : Fleet α β γ) (map : Nat) (mover : Mover α β γ) : Fleet α β γ :=
  ⟨f.maps.modify map fun m => { m with movers := m.movers ++ [mover] }⟩

/-- The states of all current patterns. -/
abbrev States (f : Fleet α β γ) : Type := Vector (PatternStatus α β γ) f.patterns.length

/-- The state of a pattern. -/
def States.get {f : Fleet α β γ} (s : f.States) (i : f.Index) : PatternStatus α β γ := s[i]

/-- The states with that of one pattern replaced. -/
def States.put {f : Fleet α β γ} (s : f.States) (i : f.Index) (x : PatternStatus α β γ) :
    f.States :=
  s.set i x

theorem States.get_put {f : Fleet α β γ} (s : f.States) (i j : f.Index)
    (x : PatternStatus α β γ) : (s.put i x).get j = if i = j then x else s.get j := by
  simp [get, put, Vector.getElem_set, Fin.ext_iff]

/-- The states at the beginning of a run. -/
def start [Scalar α] (f : Fleet α β γ) : f.States := Vector.ofFn fun i => (f.pattern i).start

/-- The number of patterns whose scale is not being worked out. -/
def idleCount (f : Fleet α β γ) (s : f.States) : Nat := s.countP fun x => !x.isResolving

theorem idleCount_put_lt (f : Fleet α β γ) (s : f.States) (i : f.Index) (x : PatternStatus α β γ)
    (h : ¬ (s.get i).isResolving = true) (hx : x.isResolving = true) :
    f.idleCount (s.put i x) < f.idleCount s := by
  have hi : s[i.val].isResolving = false := by simpa [States.get] using h
  have hpos : 0 < f.idleCount s :=
    Vector.countP_pos_iff.2 ⟨s[i.val], Vector.getElem_mem i.isLt, by simp [hi]⟩
  simpa [idleCount, States.put, Vector.countP_set, hi, hx] using Nat.sub_lt hpos Nat.one_pos

end Fleet

/-- A fleet in the middle of a run. -/
structure World (α β γ : Type) where
  fleet : Fleet α β γ
  states : fleet.States

namespace World

variable {α β γ : Type} [Scalar α]

def ofFleet (f : Fleet α β γ) : World α β γ := ⟨f, f.start⟩

/-- The same patterns with their states in a larger fleet, the new ones at their beginning. -/
def extend (w : World α β γ) (f : Fleet α β γ) : World α β γ where
  fleet := f
  states := Vector.ofFn fun i =>
    match w.fleet.index? (f.place i) with
    | some j => w.states.get j
    | none => (f.pattern i).start

def withMap (w : World α β γ) (name : String) : World α β γ := w.extend (w.fleet.withMap name)

/-- Adds a mover to a map; without such a map nothing changes. -/
def withMover (w : World α β γ) (map : Nat) (mover : Mover α β γ) : World α β γ :=
  w.extend (w.fleet.withMover map mover)

end World

end CurrentDrift
