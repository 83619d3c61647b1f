import CurrentDrift.Decimal.Literal
import CurrentDrift.Mesh.Basic
import CurrentDrift.Mesh.LocationDag
import CurrentDrift.Text.Blank
import CurrentDrift.Text.Lines

/-!
# Blocks of a mesh file

Each block is a header line with a count and that many record lines. Words are separated by blanks.
An error names the block, the number of the first line that cannot be right, and what is wrong.
-/

namespace CurrentDrift

open Text

/-- The greatest count that a header may declare. -/
def Block.maxCount : Nat := UInt64.size - 1

/-- The count on a header line of the block; the case of the first word does not matter, and what
follows the count is ignored. -/
def Block.header? (b : Block) (line : List Char) : Option Nat :=
  match words line with
  | key :: count :: _ =>
    if key.map Char.toLower = b.title.toList.map Char.toLower then
      Decimal.natural? maxCount count
    else none
  | _ => none

def Block.malformed (b : Block) (line : Nat) (cause : Malformation) : MeshError :=
  .malformed (.block b) line cause

/-- The next line, which the block needs. -/
def Block.line (b : Block) (c : LineReader) : Except MeshError (Line × LineReader) :=
  match c.next? with
  | some found => .ok found
  | none => .error (b.malformed (c.line + 1) .endsEarly)

/-- The count of the block, from the next line. -/
def Block.count (b : Block) (c : LineReader) : Except MeshError (Nat × LineReader) := do
  let (line, rest) ← b.line c
  match b.header? line.chars with
  | some n => .ok (n, rest)
  | none => .error (b.malformed line.number (.noHeader b (String.ofList (trim line.chars))))

/-- Takes in the next `n` lines, one by one. -/
def Block.lines {σ : Type} (b : Block) (add : σ → Line → Except MeshError σ) :
    Nat → σ → LineReader → Except MeshError (σ × LineReader)
  | 0, s, c => .ok (s, c)
  | n + 1, s, c => do
    let (line, rest) ← b.line c
    b.lines add n (← add s line) rest

/-- Reads a word of a line as the field that it stands for. -/
def Field.read {β : Type} (field : Field) (value? : List Char → Option β) (b : Block) (line : Nat)
    (word : List Char) : Except MeshError β :=
  match value? word with
  | some x => .ok x
  | none => .error (b.malformed line (.unreadable field (String.ofList word)))

/-- Numbers of vertices and of segments have 32 bits. -/
def unsignedWord? : List Char → Option Nat := Decimal.natural? (UInt32.size - 1)

/-- Numbers of neighbours and of tree nodes have 32 bits with the sign. -/
def signedWord? : List Char → Option Int := Decimal.integer? 2147483647

/-- The vertices read so far, with the depths of those that have one and the box around all. -/
structure VertexBlock where
  points : Array Point
  depths : Array Float
  allHaveDepth : Bool
  bounds : Rect

namespace VertexBlock

def empty (capacity : Nat) : VertexBlock :=
  ⟨Array.emptyWithCapacity capacity, Array.emptyWithCapacity capacity, true, Rect.empty⟩

def add (b : VertexBlock) (p : Point) (depth : Option Float) : VertexBlock where
  points := b.points.push p
  depths := b.depths ++ depth.toArray
  allHaveDepth := b.allHaveDepth && depth.isSome
  bounds := b.bounds.insert p

/-- A vertex line holds a longitude and a latitude in degrees and may hold a depth. -/
def addLine (b : VertexBlock) (line : Line) : Except MeshError VertexBlock :=
  let real (field : Field) := field.read Decimal.real? .vertices line.number
  match words line.chars with
  | [long, lat] => do
    let x ← real .longitude long
    let y ← real .latitude lat
    .ok (b.add (Point.ofDegrees x y) none)
  | [long, lat, depth] => do
    let x ← real .longitude long
    let y ← real .latitude lat
    let z ← real .depth depth
    .ok (b.add (Point.ofDegrees x y) (some z))
  | ws => .error (Block.vertices.malformed line.number (.fieldCount .vertices ws.length))

/-- The depths, if every vertex has one. -/
def depths? (b : VertexBlock) : Option (Array Float) :=
  if b.allHaveDepth then some b.depths else none

def read (c : LineReader) : Except MeshError (VertexBlock × LineReader) := do
  let (n, rest) ← Block.vertices.count c
  Block.vertices.lines addLine n (empty (rest.roomFor n)) rest

end VertexBlock

/-- The triangles read so far and their velocities. The first line decides whether all have one. -/
structure TriangleBlock where
  triangles : Array Triangle
  velocities : Array (Velocity Float)
  moving : Option Bool

namespace TriangleBlock

def empty (capacity : Nat) : TriangleBlock :=
  ⟨Array.emptyWithCapacity capacity, Array.emptyWithCapacity capacity, none⟩

/-- Three vertices and three neighbours. -/
def triangle (line : Nat) (v0 v1 v2 n0 n1 n2 : List Char) : Except MeshError Triangle := do
  let vertex := Field.vertexIndex.read unsignedWord? .triangles line
  let neighbor := Field.neighborIndex.read signedWord? .triangles line
  let a ← vertex v0
  let b ← vertex v1
  let c ← vertex v2
  let d ← neighbor n0
  let e ← neighbor n1
  let f ← neighbor n2
  .ok ⟨#v[a, b, c], #v[d, e, f]⟩

/-- Refuses a line with a velocity among lines without, and one without among lines with. -/
def checkForm (b : TriangleBlock) (line : Nat) (moving : Bool) : Except MeshError Unit :=
  if b.moving.all (· == moving) then .ok ()
  else .error (Block.triangles.malformed line .mixedVelocities)

/-- A triangle line holds three vertices and three neighbours and may hold a velocity. -/
def addLine (b : TriangleBlock) (line : Line) : Except MeshError TriangleBlock :=
  let real (field : Field) := field.read Decimal.real? .triangles line.number
  match words line.chars with
  | [v0, v1, v2, n0, n1, n2] => do
    b.checkForm line.number false
    let t ← triangle line.number v0 v1 v2 n0 n1 n2
    .ok { b with triangles := b.triangles.push t, moving := some false }
  | [v0, v1, v2, n0, n1, n2, east, north] => do
    b.checkForm line.number true
    let t ← triangle line.number v0 v1 v2 n0 n1 n2
    let u ← real .eastVelocity east
    let v ← real .northVelocity north
    .ok ⟨b.triangles.push t, b.velocities.push ⟨u, v⟩, some true⟩
  | ws => .error (Block.triangles.malformed line.number (.fieldCount .triangles ws.length))

def read (c : LineReader) : Except MeshError (TriangleBlock × LineReader) := do
  let (n, rest) ← Block.triangles.count c
  Block.triangles.lines addLine n (empty (rest.roomFor n)) rest

end TriangleBlock

namespace LocationNode

/-- A node line holds a segment and the nodes to go on with on the left and on the right. -/
def addLine (nodes : Array LocationNode) (line : Line) : Except MeshError (Array LocationNode) :=
  match words line.chars with
  | [segment, left, right] => do
    let s ← Field.segment.read unsignedWord? .nodes line.number segment
    let l ← Field.leftChild.read signedWord? .nodes line.number left
    let r ← Field.rightChild.read signedWord? .nodes line.number right
    .ok (nodes.push ⟨s, l, r⟩)
  | ws => .error (Block.nodes.malformed line.number (.fieldCount .nodes ws.length))

def read (c : LineReader) : Except MeshError (Array LocationNode × LineReader) := do
  let (n, rest) ← Block.nodes.count c
  Block.nodes.lines addLine n (Array.emptyWithCapacity (rest.roomFor n)) rest

end LocationNode

end CurrentDrift
