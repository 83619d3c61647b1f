import CurrentDrift.Command.Setup

/-!
# The info command

Prints the sizes of a mesh file and, if asked for, the speed at a point.
-/

namespace CurrentDrift.Info

open Decimal

/-- A coordinate in degrees with six places. -/
def degrees (x : Int32) : String := inPlaces 6 (Point.degrees x)

def statistics (name : String) (f : FlowField Float) : List String :=
  let b := f.mesh.bounds
  ["=== 网格统计 ===",
    "名称: " ++ name,
    "顶点数: " ++ toString f.mesh.vertices.size,
    "三角形数: " ++ toString f.mesh.triangles.size,
    "DAG 节点数: " ++ toString f.dag.nodes.size,
    "DAG 最大深度: " ++ toString f.dag.depth,
    "含流速: " ++ (if f.mesh.isMoving then "是" else "否"),
    "包围盒: 经度 [" ++ degrees b.west ++ ", " ++ degrees b.east ++ "], 纬度 [" ++
      degrees b.south ++ ", " ++ degrees b.north ++ "]"]

/-- The speeds at a point: that of the field, and that of a pattern which does not scale it. -/
def probe (name : String) (f : FlowField Float) (p : Point) : List String :=
  let pattern : RunPattern Unit := Pattern.plain name f Sampler.default ()
  let answer := match pattern.speedsUnder pattern.start.scale p with
    | .ok (unscaled, scaled) =>
      "[grid: " ++ name ++ ", unscaled: " ++ inPlaces 4 unscaled ++ " m/s, scaled: " ++
        inPlaces 4 scaled ++ " m/s]"
    | .error e => "无法查询: " ++ e.message
  ["", "=== 测点 (" ++ degrees p.long ++ ", " ++ degrees p.lat ++ ") ===", answer]

/-- The name under which a mesh file is reported. -/
def nameOf (path : List Char) : String :=
  match Path.fileName? path with
  | some name => String.ofList name
  | none => "pattern"

def run {m : Type → Type} [Monad m] (read : ReadFile m) (path : List Char)
    (place : Option Degrees) : m CommandResult := do
  match ← Setup.loadField read path with
  | .error e => pure ⟨[], some (.mesh (String.ofList path) e)⟩
  | .ok f =>
    let name := nameOf path
    pure ⟨statistics name f ++ (place.map fun d => probe name f d.point).getD [], none⟩

end CurrentDrift.Info
