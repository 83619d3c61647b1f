import CurrentDrift.Plan.Basic
import CurrentDrift.Text.Blank
import CurrentDrift.Text.Dump

/-!
# Valid plans

What a plan has to fulfil before it is used. The first thing that is wrong is reported
with the place of the value, the value and the reason; the wording is in the `message` functions.
-/

namespace CurrentDrift

open Decimal

/-- Why a value in a plan cannot be used. -/
inductive ValueFault where
  | step (x : Float)
  | duration (x : Float)
  | start (x : Float)
  | offGlobe (d : Degrees)
  | repeatedMap (name : String)
  | scaleValue (x : Float)
  | diffusion (x : Float)
  | halfSpeed (x : Float)
  | spread (p : SpreadParams Float) (fault : SpreadFault Float)
  | timeSeries (points : Nat) (fault : SeriesFault Float)
  | activeRange (first last : Float)
  deriving Repr

/-- The parameters of velocity errors as a structure dump. -/
def SpreadParams.dump (p : SpreadParams Float) : String :=
  Dump.fields "UncertaintyConfig" [("duration", inDump p.lifetime),
    ("start_delay", inDump p.delay), ("up", inDump p.up), ("down", inDump p.down),
    ("left", inDump p.left), ("right", inDump p.right)]

namespace ValueFault

/-- The value as it is reported. -/
def value : ValueFault → String
  | step x => inText x
  | duration x => inText x
  | start x => inText x
  | offGlobe d => "[" ++ inText d.long ++ ", " ++ inText d.lat ++ "]"
  | repeatedMap name => name
  | scaleValue x => inText x
  | diffusion x => inText x
  | halfSpeed x => inText x
  | spread p _ => p.dump
  | timeSeries points _ => toString points
  | activeRange first _ => inText first

def reason : ValueFault → String
  | step _ => "时间步长必须为正"
  | duration _ => "运行时长不能为负"
  | start _ => "起始时间必须为有限值"
  | offGlobe _ => "经度须在 [-180, 180]，纬度须在 [-90, 90]"
  | repeatedMap _ => "地图名称重复"
  | scaleValue _ => "目标流速必须为有限值"
  | diffusion _ => "涡扩散系数不能为负"
  | halfSpeed _ => "基准流速不能为负"
  | spread _ fault => (DriftError.spread fault).message
  | timeSeries _ fault => (DriftError.series fault).message
  | activeRange _ last => "晚于 active_stop (" ++ inText last ++ ")"

end ValueFault

/-- Why a plan cannot be used. -/
inductive PlanError where
  | file (cause : FileError)
  | unreadable
  /-- The value at a place, such as `maps[0].name`, is wrong. -/
  | invalid (place : String) (fault : ValueFault)
  /-- There is nothing at a place. -/
  | missing (place : String)
  deriving Repr

def PlanError.message : PlanError → String
  | file cause => "IO 错误: " ++ cause.message
  | unreadable => "解析错误: "
  | invalid place fault =>
    "无效值 '" ++ place ++ "': " ++ fault.value ++ " - " ++ fault.reason
  | missing place => "缺失配置: " ++ place

/-- Whether a number is negative or not a number at all. -/
def isBelowZero (x : Float) : Bool := x.isNaN || decide (x < 0.0)

/-- Whether a position is on the globe. -/
def Degrees.isOnGlobe (d : Degrees) : Bool :=
  decide (-180.0 ≤ d.long) && decide (d.long ≤ 180.0) && decide (-90.0 ≤ d.lat) &&
    decide (d.lat ≤ 90.0)

/-- A fault at a place if a condition holds. -/
def faultIf (bad : Bool) (place : String) (fault : ValueFault) : Option PlanError :=
  if bad then some (.invalid place fault) else none

/-- An element of a list in a place, such as `maps[0]`. -/
def elementAt (list : String) (i : Nat) : String := list ++ "[" ++ toString i ++ "]"

namespace PatternPlan

def scaleFault? (p : PatternPlan) (place : String) : Option PlanError :=
  (p.scale.reference?.bind fun d =>
      faultIf (!d.isOnGlobe) (place ++ ".scale.ref_point") (.offGlobe d)) <|>
    match p.scale with
    | .atSpeed value _ => faultIf (!value.isFinite) (place ++ ".scale.value") (.scaleValue value)
    | _ => none

def seriesFault? (p : PatternPlan) (place : String) : Option PlanError :=
  p.timeSeries.bind fun t =>
    match t.factor with
    | .ok _ => none
    | .error fault =>
      some (.invalid (place ++ ".time_series.points") (.timeSeries t.points.length fault))

def rangeFault? (p : PatternPlan) (place : String) : Option PlanError :=
  match p.activeFrom, p.activeUntil with
  | some start, some stop =>
    faultIf (decide (stop < start)) (place ++ ".active_start") (.activeRange start stop)
  | _, _ => none

/-- The first thing that is wrong with the pattern at a place. -/
def fault? (p : PatternPlan) (place : String) : Option PlanError :=
  (if (Text.trim p.name.toList).isEmpty then some (.missing (place ++ ".name")) else none) <|>
  (if p.meshFile.isEmpty then some (.missing (place ++ ".topology_file")) else none) <|>
  p.scaleFault? place <|>
  faultIf (isBelowZero p.eddy.diffusion) (place ++ ".eddy_diffusion")
    (.diffusion p.eddy.diffusion) <|>
  faultIf (isBelowZero p.eddy.halfSpeed) (place ++ ".eddy_v0") (.halfSpeed p.eddy.halfSpeed) <|>
  (p.spread.fault?.map fun fault => .invalid (place ++ ".uncertainty") (.spread p.spread fault)) <|>
  p.seriesFault? place <|>
  p.rangeFault? place

end PatternPlan

/-- The first thing that is wrong with the map at a place, after maps with the given names. -/
def MapPlan.fault? (m : MapPlan) (earlier : List String) (place : String) :
    Option PlanError :=
  faultIf (earlier.contains m.name) (place ++ ".name") (.repeatedMap m.name) <|>
    m.patterns.zipIdx.findSome? fun (p, j) => p.fault? (elementAt (place ++ ".patterns") j)

namespace RunPlan

/-- The first thing that is wrong with the maps from number `i` on. -/
def mapsFault? (earlier : List String) (i : Nat) : List MapPlan → Option PlanError
  | [] => none
  | m :: ms => m.fault? earlier (elementAt "maps" i) <|> mapsFault? (m.name :: earlier) (i + 1) ms

/-- The first thing that is wrong with a plan. -/
def fault? (c : RunPlan) : Option PlanError :=
  faultIf (c.step.isNaN || decide (c.step ≤ 0.0)) "time_step" (.step c.step) <|>
  faultIf (isBelowZero c.duration) "duration" (.duration c.duration) <|>
  faultIf (!c.start.isFinite) "start_time" (.start c.start) <|>
  (c.particles.zipIdx.findSome? fun (d, i) =>
    faultIf (!d.isOnGlobe) (elementAt "particles" i) (.offGlobe d)) <|>
  (if c.maps.isEmpty then some (.missing "maps") else none) <|>
  mapsFault? [] 0 c.maps

def validate (c : RunPlan) : Except PlanError Unit :=
  match c.fault? with
  | some e => .error e
  | none => .ok ()

end RunPlan

end CurrentDrift
