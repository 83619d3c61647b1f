import CurrentDrift.FileError
import CurrentDrift.Geo.Point
import CurrentDrift.Text.Utf8

/-!
# Mesh errors

What can be wrong with a mesh, with the file that holds it, or with a point looked up in it. The
wording is in the `message` functions.
-/

namespace CurrentDrift

/-- The three blocks of a mesh file. -/
inductive Block where
  | vertices
  | triangles
  | nodes
  deriving DecidableEq, Repr

/-- The first word of a block's header line. -/
def Block.title : Block → String
  | vertices => "Vertices"
  | triangles => "Topology"
  | nodes => "DAGTree"

/-- The part of a mesh file that an error is in. -/
inductive Section where
  | preamble
  | block (b : Block)
  deriving DecidableEq, Repr

def Section.name : Section → String
  | preamble => "preamble"
  | block b => b.title

/-- What a word in a record of a mesh file stands for. -/
inductive Field where
  | longitude
  | latitude
  | depth
  | vertexIndex
  | neighborIndex
  | eastVelocity
  | northVelocity
  | segment
  | leftChild
  | rightChild
  deriving DecidableEq, Repr

def Field.name : Field → String
  | longitude => "经度"
  | latitude => "纬度"
  | depth => "水深"
  | vertexIndex => "顶点索引"
  | neighborIndex => "邻接索引"
  | eastVelocity => "流速 u"
  | northVelocity => "流速 v"
  | segment => "分割边"
  | leftChild => "左子节点"
  | rightChild => "右子节点"

/-- Why a line of a mesh file, or the file as a whole, cannot be read. -/
inductive Malformation where
  | tooShort
  | notText (error : Text.Utf8.Error)
  | endsEarly
  | noHeader (block : Block) (line : String)
  | fieldCount (block : Block) (found : Nat)
  | mixedVelocities
  | unreadable (field : Field) (word : String)
  deriving DecidableEq, Repr

def Malformation.message : Malformation → String
  | tooShort => "文件长度不足以包含前导标记"
  | notText error => "文件不是有效文本: " ++ error.message
  | endsEarly => "文件提前结束"
  | noHeader block line => "期望 " ++ block.title ++ " 段头, 实际为 '" ++ line ++ "'"
  | fieldCount .vertices found => "顶点行需要 2 或 3 个字段, 实际 " ++ toString found
  | fieldCount .triangles found => "拓扑行需要 6 或 8 个字段, 实际 " ++ toString found
  | fieldCount .nodes found => "DAG 行需要 3 个字段, 实际 " ++ toString found
  | mixedVelocities => "同一文件中部分拓扑行缺少流速"
  | unreadable field word => field.name ++ " '" ++ word ++ "' 无法解析"

/-- Why vertices, triangles and tree nodes do not make a mesh. -/
inductive Corruption where
  | noVertices
  | noTriangles
  | depthCount (depths vertices : Nat)
  | velocityCount (velocities triangles : Nat)
  | vertexIndex (triangle vertex vertices : Nat)
  | neighborIndex (triangle : Nat) (neighbor : Int)
  | noNodes
  | segmentIndex (node segment segments : Nat)
  | childIndex (node : Nat) (child : Int)
  | segmentOutside (node segment triangles : Nat)
  | cycle (steps : Nat)
  | other (details : String)
  deriving DecidableEq, Repr

def Corruption.message : Corruption → String
  | noVertices => "网格没有顶点"
  | noTriangles => "网格没有三角形"
  | depthCount depths vertices =>
    "水深数量 " ++ toString depths ++ " 与顶点数量 " ++ toString vertices ++ " 不一致"
  | velocityCount velocities triangles =>
    "流速数量 " ++ toString velocities ++ " 与三角形数量 " ++ toString triangles ++ " 不一致"
  | vertexIndex triangle vertex vertices =>
    "三角形 " ++ toString triangle ++ " 的顶点索引 " ++ toString vertex ++ " 超出范围 [0, " ++
      toString vertices ++ ")"
  | neighborIndex triangle neighbor =>
    "三角形 " ++ toString triangle ++ " 的邻接索引 " ++ toString neighbor ++ " 超出范围"
  | noNodes => "DAG 树没有节点"
  | segmentIndex node segment segments =>
    "DAG 节点 " ++ toString node ++ " 的分割边 " ++ toString segment ++ " 超出范围 [0, " ++
      toString segments ++ ")"
  | childIndex node child =>
    "DAG 节点 " ++ toString node ++ " 的子节点 " ++ toString child ++ " 超出范围"
  | segmentOutside node segment triangles =>
    "DAG 节点 " ++ toString node ++ " 的分割边 " ++ toString segment ++ " 与拓扑不匹配 (" ++
      toString triangles ++ " 个三角形)"
  | cycle steps => "DAG 树下降超过 " ++ toString steps ++ " 步，树中存在环"
  | other details => details

inductive MeshError where
  /-- The point is in no triangle. This is the only error after which a run goes on. -/
  | outside (p : Point)
  | corrupt (cause : Corruption)
  /-- The line is counted from one after the preamble; zero stands for the file as a whole. -/
  | malformed (part : Section) (line : Nat) (cause : Malformation)
  | file (cause : FileError)
  deriving DecidableEq, Repr

namespace MeshError

def message : MeshError → String
  | outside p =>
    "点 (经度 " ++ toString p.long ++ ", 纬度 " ++ toString p.lat ++ ") 不在网格范围内"
  | corrupt cause => "拓扑数据损坏: " ++ cause.message
  | malformed part line cause =>
    "拓扑文件格式错误: " ++ part.name ++ " 段, 行 " ++ toString line ++ ": " ++ cause.message
  | file cause => "IO 错误: " ++ cause.message

def isHarmless : MeshError → Bool
  | outside _ => true
  | _ => false

def line? : MeshError → Option Nat
  | malformed _ line _ => some line
  | _ => none

end MeshError

end CurrentDrift
