import CurrentDrift.Command.Info
import CurrentDrift.Random.ChaCha

/-!
# The run command

Sets up a plan, lets the particles drift, and prints where they are at the end.
-/

namespace CurrentDrift.Run

/-- A text on the right of a column of the given width. -/
def right (width : Nat) (text : String) : String :=
  String.ofList (List.replicate (width - text.length) ' ') ++ text

def row (number long lat : String) : String :=
  right 6 number ++ " " ++ right 14 long ++ " " ++ right 14 lat

/-- A table of positions under a title. -/
def positions (title : String) (points : List Point) : List String :=
  ("\n=== " ++ title ++ " (" ++ toString points.length ++ ") ===") :: row "#" "经度" "纬度" ::
    points.zipIdx.map fun (p, i) => row (toString i) (Info.degrees p.long) (Info.degrees p.lat)

section Drifting

variable {γ : Type}

/-- The beginning of a run of a fleet. -/
def start (c : RunPlan) (f : Fleet Float (Sampler Float) γ) : RunState f :=
  ⟨Clock.start c.start c.step, f.start, Swarm.ofPoints c.startPoints c.isUncertain⟩

/-- The particles after so many steps. -/
def drift [RandomSource Float γ] (c : RunPlan) (f : Fleet Float (Sampler Float) γ) (steps : Nat) :
    Swarm :=
  ((start c f).steps c.isUncertain steps).particles

end Drifting

/-- Reads a plan and sets up its fleet. -/
def setUp {m : Type → Type} [Monad m] {γ : Type} (read : ReadFile m) (seeding : Seeding γ)
    (path : List Char) : m (Except Failure (RunPlan × RunFleet γ)) := do
  match ← Setup.loadPlan read path with
  | .error e => pure (.error (.plan (String.ofList path) e))
  | .ok c => pure ((← Setup.fleet read seeding (Path.directory path) c).map fun f => (c, f))

/-- Runs the plan in a file, for a given number of steps or for its own. -/
def run {m : Type → Type} [Monad m] (read : ReadFile m) (path : List Char)
    (steps : Option Nat) : m CommandResult := do
  match ← setUp read ChaCha.seeding path with
  | .error e => pure ⟨[], some e⟩
  | .ok (c, f) =>
    let ps := drift c f (steps.getD c.stepCount.toNat)
    let uncertain := if c.isUncertain then positions "不确定性粒子" ps.uncertain else []
    pure ⟨positions "预报粒子" ps.forecast ++ uncertain, none⟩

end CurrentDrift.Run
