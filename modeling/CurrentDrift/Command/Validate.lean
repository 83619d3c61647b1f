import CurrentDrift.Command.Info

/-!
# The validate command

Checks a plan and sets up each of its patterns. Errors are what would keep a run from
beginning; warnings are what makes a part of it useless, and count as errors if the check is strict.
-/

namespace CurrentDrift.Validate

/-- What has been printed and found so far. -/
structure Report where
  lines : List String
  errors : List String
  warnings : List String

namespace Report

def empty : Report := ⟨[], [], []⟩

def print (r : Report) (line : String) : Report := { r with lines := r.lines ++ [line] }

def error (r : Report) (text : String) : Report := { r with errors := r.errors ++ [text] }

def warn (r : Report) (text : String) : Report := { r with warnings := r.warnings ++ [text] }

/-- Warns if a condition holds. -/
def warnIf (r : Report) (bad : Bool) (text : String) : Report := if bad then r.warn text else r

def isAccepted (r : Report) (strict : Bool) : Bool :=
  r.errors.isEmpty && (!strict || r.warnings.isEmpty)

end Report

/-- What is said about the time series of a pattern. -/
def seriesLine (t : SeriesPlan) : String :=
  "  ✓ 时间序列 " ++ toString t.points.length ++ " 点, 外推模式 " ++ t.extrapolation.name ++
    (if t.isActive then "" else " (已停用)")

/-- Whether a point is in no triangle of a field, or cannot be looked for. -/
def isOutside (f : FlowField Float) (p : Point) : Bool :=
  match f.locate p with
  | .ok _ => false
  | .error _ => true

/-- Reports on a pattern that has been set up. -/
def reportPattern (r : Report) (c : PatternPlan) (f : FlowField Float) : Report :=
  let r := r.print ("  ✓ " ++ toString f.mesh.triangles.size ++ " 个三角形, DAG 深度 " ++
    toString f.dag.depth)
  let r := r.warnIf (!f.mesh.isMoving) (c.name ++ ": 拓扑文件不含流速")
  let r := match c.timeSeries with
    | some t => r.print (seriesLine t)
    | none => r
  match c.scale.reference? with
  | some d =>
    let p := d.point
    r.warnIf (isOutside f p) (c.name ++ ": 缩放参考点 (" ++ Info.degrees p.long ++ ", " ++
      Info.degrees p.lat ++ ") 不在网格内")
  | none => r

variable {m : Type → Type} [Monad m]

/-- Sets up a pattern of a map and reports on it. -/
def checkPattern (read : ReadFile m) (base : List Char) (map : String) (r : Report)
    (c : PatternPlan) : m Report := do
  let r := r.print ("\n检查模式: " ++ map ++ "/" ++ c.name)
  match ← Setup.pattern read (fun _ => ()) base c none with
  | .error e => pure (r.error (c.name ++ ": " ++ e.message))
  | .ok p => pure (reportPattern r c p.field)

def checkMap (read : ReadFile m) (base : List Char) (r : Report) (c : MapPlan) : m Report :=
  c.patterns.foldlM (checkPattern read base c.name) r

/-- Reports on a plan that could be read. -/
def checkPlan (read : ReadFile m) (base : List Char) (r : Report) (c : RunPlan) : m Report :=
  let r := c.unresolvedNames.foldl
    (fun r name => r.warn ("缩放引用的模式 '" ++ name ++ "' 不存在，其缩放系数将为 0")) r
  let r := r.warnIf c.particles.isEmpty "没有初始粒子"
  c.maps.foldlM (checkMap read base) r

/-- A list of findings under a title; nothing if there are none. -/
def findings (title mark : String) (texts : List String) : List String :=
  if texts.isEmpty then []
  else ("\n" ++ title ++ " (" ++ toString texts.length ++ "):") :: texts.map (mark ++ ·)

/-- What is printed at the end. -/
def conclusion (r : Report) (strict : Bool) : List String :=
  "\n=== 验证结果 ===" :: findings "错误" "  ✗ " r.errors ++ findings "警告" "  ⚠ " r.warnings ++
    [if r.isAccepted strict then "\n✓ 验证通过" else "\n✗ 验证失败"]

/-- Checks the plan in a file. -/
def check (read : ReadFile m) (path : List Char) : m Report := do
  let r := Report.empty.print ("\n检查配置文件: " ++ String.ofList path)
  match ← Setup.loadPlan read path with
  | .error e => pure (r.error ("配置无效: " ++ e.message))
  | .ok c => checkPlan read (Path.directory path) (r.print "  ✓ 配置文件有效") c

def run (read : ReadFile m) (path : List Char) (strict : Bool) : m CommandResult := do
  let r ← check read path
  let failure := if r.isAccepted strict then none
    else some (.notValid r.errors.length r.warnings.length)
  pure ⟨r.lines ++ conclusion r strict, failure⟩

end CurrentDrift.Validate
