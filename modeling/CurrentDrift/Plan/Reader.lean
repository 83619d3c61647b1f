import CurrentDrift.Plan.Validation
import CurrentDrift.Json.Double
import CurrentDrift.Json.Reader

/-!
# Reading plans

A plan is a JSON object. Members that are not known are skipped; a known one may be left
out if it has a default, and may not occur twice. In place of an object the values of its members
may be listed in their order.
-/

namespace CurrentDrift

namespace Json

/-- The values of the named members of an object, absent ones as `none`. -/
def members? (names : List String) : Json → Option (List (Option Json))
  | .object ms => do
    let named ← ms.mapM fun (k, v) => k.map fun cs => (String.ofList cs, v)
    names.mapM fun n =>
      match named.filter (fun m => m.1 == n) with
      | [] => some none
      | [(_, v)] => some (some v)
      | _ => none
  | .array vs =>
    if vs.length ≤ names.length then
      some (vs.map some ++ List.replicate (names.length - vs.length) none)
    else none
  | _ => none

def double? : Json → Option Float
  | .number l => (Number.ofLiteral? l).bind Number.double?
  | _ => none

def bool? : Json → Option Bool
  | .bool b => some b
  | _ => none

def string? : Json → Option String
  | .string content => content.map String.ofList
  | _ => none

/-- A whole number of 64 bits. -/
def word? : Json → Option UInt64
  | .number l => do
    let n ← (Number.ofLiteral? l).bind Number.natural?
    if n < UInt64.size then some (UInt64.ofNat n) else none
  | _ => none

def listOf? {α : Type} (read : Json → Option α) : Json → Option (List α)
  | .array vs => vs.mapM read
  | _ => none

/-- A value or null. -/
def orNull? {α : Type} (read : Json → Option α) : Json → Option (Option α)
  | .null => some none
  | v => (read v).map some

def pair? : Json → Option (Float × Float)
  | .array [x, y] => do some (← double? x, ← double? y)
  | _ => none

/-- A member that may be left out. -/
def orDefault {α : Type} (read : Json → Option α) (d : α) : Option Json → Option α
  | some v => read v
  | none => some d

mutual

/-- How deep arrays and objects are nested in a value. -/
def depth : Json → Nat
  | .array vs => depthList vs + 1
  | .object ms => depthMembers ms + 1
  | _ => 0

def depthList : List Json → Nat
  | [] => 0
  | v :: vs => max v.depth (depthList vs)

def depthMembers : List (Option (List Char) × Json) → Nat
  | [] => 0
  | (_, v) :: ms => max v.depth (depthMembers ms)

end

mutual

/-- Whether all strings in a value have a content and all numbers are in range. -/
def isSound : Json → Bool
  | .number l => ((Number.ofLiteral? l).bind Number.double?).isSome
  | .string content => content.isSome
  | .array vs => allSound vs
  | .object ms => allSoundMembers ms
  | _ => true

def allSound : List Json → Bool
  | [] => true
  | v :: vs => v.isSound && allSound vs

def allSoundMembers : List (Option (List Char) × Json) → Bool
  | [] => true
  | (k, v) :: ms => k.isSome && v.isSound && allSoundMembers ms

end

end Json

def Degrees.ofJson? (j : Json) : Option Degrees := j.pair?.map fun (x, y) => ⟨x, y⟩

def Extrapolation.ofName? : String → Option Extrapolation
  | "clamp" => some .clamp
  | "linear" => some .linear
  | "cyclic" => some .cyclic
  | "reject" => some .reject
  | _ => none

/-- An extrapolation is its name, or an object with the name and nothing to it. -/
def Extrapolation.ofJson? : Json → Option Extrapolation
  | .string (some cs) => ofName? (String.ofList cs)
  | .object [(some cs, .null)] => ofName? (String.ofList cs)
  | _ => none

def SeriesPlan.ofJson? (j : Json) : Option SeriesPlan := do
  match ← j.members? ["points", "extrapolation", "hydrology_factor", "active"] with
  | [points, extrapolation, hydrology, active] =>
    some {
      points := ← (← points).listOf? Json.pair?
      extrapolation := ← Json.orDefault Extrapolation.ofJson? .clamp extrapolation
      hydrology := ← Json.orDefault (Json.orNull? Json.double?) none hydrology
      isActive := ← Json.orDefault Json.bool? true active }
  | _ => none

def SpreadParams.ofJson? (j : Json) : Option (SpreadParams Float) := do
  let d : SpreadParams Float := SpreadParams.default
  match ← j.members? ["duration", "start_delay", "up", "down", "left", "right"] with
  | [lifetime, delay, up, down, left, right] =>
    some {
      lifetime := ← Json.orDefault Json.double? d.lifetime lifetime
      delay := ← Json.orDefault Json.double? d.delay delay
      up := ← Json.orDefault Json.double? d.up up
      down := ← Json.orDefault Json.double? d.down down
      left := ← Json.orDefault Json.double? d.left left
      right := ← Json.orDefault Json.double? d.right right }
  | _ => none

namespace ScalePlan

/-- The containers that a scale is inside of, itself among them, are at most these many. -/
def outerDepth : Nat := 6

/-- How deep containers may be nested in a plan, one less than this. -/
def depthLimit : Nat := 128

/-- A scale of the kind that `tag` names, from an object or a list of the members of that kind. -/
def ofTag? (tag : String) (rest : Json) : Option ScalePlan :=
  match tag with
  | "none" =>
    match rest with
    | .array (_ :: _) => none
    | _ => some .unscaled
  | "constant" => do
    match ← rest.members? ["value", "ref_point"] with
    | [value, reference] =>
      some (.atSpeed (← (← value).double?) (← Degrees.ofJson? (← reference)))
    | _ => none
  | "other_grid" => do
    match ← rest.members? ["name", "ref_point"] with
    | [name, reference] =>
      some (.likePattern (← (← name).string?) (← Degrees.ofJson? (← reference)))
    | _ => none
  | _ => none

/-- The kind of scale and the value without it. The kind is the member `type`, wherever it stands,
or the first item of a list. -/
def untag? : Json → Option (String × Json)
  | .object ms => do
    match ms.partition (fun m => m.1 = some "type".toList) with
    | ([(_, tag)], rest) => some (← tag.string?, .object rest)
    | _ => none
  | .array (tag :: rest) => do some (← tag.string?, .array rest)
  | _ => none

/-- All of a scale is read before its kind is known, so that nothing in it is merely skipped. -/
def ofJson? (j : Json) : Option ScalePlan := do
  if j.isSound && outerDepth + (j.depth - 1) < depthLimit then
    let (tag, rest) ← untag? j
    ofTag? tag rest
  else none

end ScalePlan

def PatternPlan.ofJson? (j : Json) : Option PatternPlan := do
  match ← j.members? ["name", "topology_file", "scale", "eddy_diffusion", "eddy_v0", "uncertainty",
      "time_series", "on", "active_start", "active_stop"] with
  | [name, file, scale, diffusion, speed, spread, series, on, start, stop] =>
    some {
      name := ← (← name).string?
      meshFile := ← (← file).string?
      scale := ← Json.orDefault ScalePlan.ofJson? .unscaled scale
      eddy := ⟨← Json.orDefault Json.double? Eddy.still.diffusion diffusion,
        ← Json.orDefault Json.double? Eddy.still.halfSpeed speed⟩
      spread := ← Json.orDefault SpreadParams.ofJson? SpreadParams.default spread
      timeSeries := ← Json.orDefault (Json.orNull? SeriesPlan.ofJson?) none series
      isOn := ← Json.orDefault Json.bool? true on
      activeFrom := ← Json.orDefault (Json.orNull? Json.double?) none start
      activeUntil := ← Json.orDefault (Json.orNull? Json.double?) none stop }
  | _ => none

def MapPlan.ofJson? (j : Json) : Option MapPlan := do
  match ← j.members? ["name", "patterns"] with
  | [name, patterns] =>
    some {
      name := ← (← name).string?
      patterns := ← Json.orDefault (Json.listOf? PatternPlan.ofJson?) [] patterns }
  | _ => none

namespace RunPlan

def ofJson? (j : Json) : Option RunPlan := do
  let d := RunPlan.default
  match ← j.members? ["start_time", "duration", "time_step", "uncertain", "seed", "particles",
      "maps"] with
  | [start, duration, step, uncertain, seed, particles, maps] =>
    some {
      start := ← Json.orDefault Json.double? d.start start
      duration := ← Json.orDefault Json.double? d.duration duration
      step := ← Json.orDefault Json.double? d.step step
      isUncertain := ← Json.orDefault Json.bool? d.isUncertain uncertain
      seed := ← Json.orDefault (Json.orNull? Json.word?) d.seed seed
      particles := ← Json.orDefault (Json.listOf? Degrees.ofJson?) d.particles particles
      maps := ← Json.orDefault (Json.listOf? MapPlan.ofJson?) d.maps maps }
  | _ => none

/-- The valid plan in a text. -/
def ofText (cs : List Char) : Except PlanError RunPlan :=
  match (Json.parse? cs).bind ofJson? with
  | none => .error .unreadable
  | some c => c.validate.map fun _ => c

/-- The valid plan in the content of a file. -/
def ofBytes (bytes : List UInt8) : Except PlanError RunPlan :=
  match Text.Utf8.decode bytes with
  | .ok cs => ofText cs
  | .error _ => .error (.file .notText)

end RunPlan

end CurrentDrift
