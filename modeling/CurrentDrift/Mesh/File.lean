import CurrentDrift.ByteReader
import CurrentDrift.Mesh.FlowField
import CurrentDrift.Mesh.Records

/-!
# Mesh files

A mesh file is a preamble of seven bytes, line breaks, and a text of three blocks: vertices,
triangles, and the nodes of the location graph. The body can be cut out of the whole content, or
the file is read piece by piece.
-/

namespace CurrentDrift

open Text

namespace MeshFile

def preambleSize : Nat := 7

def isLineBreak (b : UInt8) : Bool := b = 10 || b = 13

/-- What follows the preamble and the line breaks after it. -/
def bodyOf (bytes : List UInt8) : Except MeshError (List UInt8) :=
  if bytes.length < preambleSize then .error (.malformed .preamble 0 .tooShort)
  else .ok ((bytes.drop preambleSize).dropWhile isLineBreak)

/-- What a reader comes to after the preamble and the line breaks after it. -/
def readBody (r : ByteReader) : Except MeshError (List UInt8) :=
  match r.take? preambleSize with
  | none => .error (.malformed .preamble 0 .tooShort)
  | some (_, rest) => .ok (rest.skipWhile isLineBreak).remaining

/-- Bytes cut into pieces of `size + 1` bytes; the last one may be shorter. -/
def pieces (size : Nat) (bytes : List UInt8) : List Piece :=
  match bytes with
  | [] => []
  | b :: bs => ⟨b :: bs.take size, List.cons_ne_nil _ _⟩ :: pieces size (bs.drop size)
termination_by bytes.length
decreasing_by
  simp only [List.length_drop, List.length_cons]
  omega

/-- The size of the buffer through which files are read. -/
def bufferSize : Nat := 8192

/-- The beginning of a file that is read through the buffer. -/
def reader (bytes : List UInt8) : ByteReader := .ofPieces (pieces (bufferSize - 1) bytes)

end MeshFile

namespace FlowField

/-- The flow field written in a text of three blocks; what follows the last block is ignored. -/
def ofText (text : List Char) : Except MeshError (FlowField Float) := do
  let (v, afterVertices) ← VertexBlock.read (LineReader.ofText text)
  let (t, afterTriangles) ← TriangleBlock.read afterVertices
  let (nodes, _) ← LocationNode.read afterTriangles
  let mesh ← Mesh.ofParts v.points v.depths? t.triangles t.velocities v.bounds
  let dag ← LocationDag.ofNodes nodes mesh.triangles.size
  ofParts mesh dag

/-- The flow field in the body of a mesh file. -/
def ofBody (bytes : List UInt8) : Except MeshError (FlowField Float) :=
  match Utf8.decode bytes with
  | .ok text => ofText text
  | .error e => .error (.malformed .preamble 0 (.notText e))

/-- The flow field in the whole content of a mesh file. -/
def ofBytes (bytes : List UInt8) : Except MeshError (FlowField Float) := do
  ofBody (← MeshFile.bodyOf bytes)

/-- The flow field in a mesh file that is read piece by piece. -/
def ofReader (r : ByteReader) : Except MeshError (FlowField Float) := do
  ofBody (← MeshFile.readBody r)

/-- The flow field in a mesh file that is read through a buffer. -/
def ofFile (bytes : List UInt8) : Except MeshError (FlowField Float) :=
  ofReader (MeshFile.reader bytes)

end FlowField

end CurrentDrift
