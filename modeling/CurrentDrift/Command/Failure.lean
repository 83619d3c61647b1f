import CurrentDrift.Plan.Validation

/-!
# Failures of commands

Why a command comes to an end without a result: what it was doing, and what went wrong, from the
outermost cause to the innermost.
-/

namespace CurrentDrift

inductive Failure where
  | plan (path : String) (error : PlanError)
  | mesh (path : String) (error : MeshError)
  | spread (pattern : String) (fault : SpreadFault Float)
  | timeSeries (pattern : String) (points : Nat) (fault : SeriesFault Float)
  | notValid (errors warnings : Nat)
  deriving Repr

/-- A mesh error and what it comes from. -/
def MeshError.chain (e : MeshError) : List String :=
  match e with
  | file cause => [e.message, cause.message]
  | _ => [e.message]

/-- A plan error and what it comes from. -/
def PlanError.chain (e : PlanError) : List String :=
  match e with
  | file cause => [e.message, cause.message]
  | _ => [e.message]

namespace Failure

/-- The texts of a failure, the outermost first. -/
def chain : Failure → List String
  | plan path e => ("无法读取配置: " ++ path) :: e.chain
  | mesh path e => ("无法加载拓扑文件: " ++ path) :: (DriftError.mesh e).message :: e.chain
  | spread pattern fault =>
    ["模式 '" ++ pattern ++ "' 的不确定性参数无效", (DriftError.spread fault).message]
  | timeSeries pattern points fault =>
    ["模式 '" ++ pattern ++ "' 的时间序列无效",
      (PlanError.invalid "time_series.points" (.timeSeries points fault)).message]
  | notValid errors warnings =>
    ["验证失败：发现 " ++ toString errors ++ " 个错误，" ++ toString warnings ++ " 个警告"]

/-- All texts on one line. -/
def message (f : Failure) : String := ": ".intercalate f.chain

end Failure

/-- What a command has printed, line by line, and how it ended. -/
structure CommandResult where
  lines : List String
  failure : Option Failure

namespace CommandResult

/-- The printed text. -/
def output (r : CommandResult) : String := String.join (r.lines.map (· ++ "\n"))

end CommandResult

/-- A way to read files: the bytes at a path. -/
abbrev ReadFile (m : Type → Type) : Type := List Char → m (Except FileError (List UInt8))

end CurrentDrift
