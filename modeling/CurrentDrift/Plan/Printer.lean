import CurrentDrift.Plan.Basic
import CurrentDrift.Json.Printer

/-!
# Writing plans

A plan is written as a JSON object with all its members in a fixed order.
-/

namespace CurrentDrift

def Degrees.toJson (d : Degrees) : Json := .array [Json.ofFloat d.long, Json.ofFloat d.lat]

/-- A value, or null in the place of none. -/
def Json.ofOption {α : Type} (write : α → Json) : Option α → Json
  | some x => write x
  | none => .null

def Extrapolation.key : Extrapolation → String
  | clamp => "clamp"
  | linear => "linear"
  | cyclic => "cyclic"
  | reject => "reject"

def ScalePlan.toJson : ScalePlan → Json
  | unscaled => Json.ofMembers [("type", Json.ofString "none")]
  | atSpeed value reference =>
    Json.ofMembers [("type", Json.ofString "constant"), ("value", Json.ofFloat value),
      ("ref_point", reference.toJson)]
  | likePattern name reference =>
    Json.ofMembers [("type", Json.ofString "other_grid"), ("name", Json.ofString name),
      ("ref_point", reference.toJson)]

def SpreadParams.toJson (p : SpreadParams Float) : Json :=
  Json.ofMembers [("duration", Json.ofFloat p.lifetime), ("start_delay", Json.ofFloat p.delay),
    ("up", Json.ofFloat p.up), ("down", Json.ofFloat p.down), ("left", Json.ofFloat p.left),
    ("right", Json.ofFloat p.right)]

def SeriesPlan.toJson (t : SeriesPlan) : Json :=
  Json.ofMembers [
    ("points", .array (t.points.map fun (x, y) => .array [Json.ofFloat x, Json.ofFloat y])),
    ("extrapolation", Json.ofString t.extrapolation.key),
    ("hydrology_factor", Json.ofOption Json.ofFloat t.hydrology), ("active", .bool t.isActive)]

def PatternPlan.toJson (p : PatternPlan) : Json :=
  Json.ofMembers [("name", Json.ofString p.name), ("topology_file", Json.ofString p.meshFile),
    ("scale", p.scale.toJson), ("eddy_diffusion", Json.ofFloat p.eddy.diffusion),
    ("eddy_v0", Json.ofFloat p.eddy.halfSpeed), ("uncertainty", p.spread.toJson),
    ("time_series", Json.ofOption SeriesPlan.toJson p.timeSeries), ("on", .bool p.isOn),
    ("active_start", Json.ofOption Json.ofFloat p.activeFrom),
    ("active_stop", Json.ofOption Json.ofFloat p.activeUntil)]

def MapPlan.toJson (m : MapPlan) : Json :=
  Json.ofMembers [("name", Json.ofString m.name),
    ("patterns", .array (m.patterns.map PatternPlan.toJson))]

namespace RunPlan

def toJson (c : RunPlan) : Json :=
  Json.ofMembers [("start_time", Json.ofFloat c.start), ("duration", Json.ofFloat c.duration),
    ("time_step", Json.ofFloat c.step), ("uncertain", .bool c.isUncertain),
    ("seed", Json.ofOption (fun w : UInt64 => Json.ofNat w.toNat) c.seed),
    ("particles", .array (c.particles.map Degrees.toJson)),
    ("maps", .array (c.maps.map MapPlan.toJson))]

/-- The text of a plan. -/
def toText (c : RunPlan) : List Char := c.toJson.pretty

end RunPlan

end CurrentDrift
