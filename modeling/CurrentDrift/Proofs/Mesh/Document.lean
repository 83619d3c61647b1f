import Mathlib.Data.List.Forall2
import CurrentDrift.Mesh.File
import CurrentDrift.Proofs.Text.Lines

/-! # What is written in a mesh file

A text of three blocks is described line by line, and the flow field that it stands for by its
parts, without a word about how one is read and the other put together. -/

namespace CurrentDrift

open Text

/-! ## Lines -/

/-- A vertex as it is written, in degrees. -/
structure VertexRecord where
  long : Float
  lat : Float
  depth : Option Float

/-- A triangle as it is written. -/
structure TriangleRecord where
  triangle : Triangle
  velocity : Option (Velocity Float)

/-- A vertex line has two words, or a third one for the depth. -/
inductive VertexRecord.Written (line : List Char) : VertexRecord → Prop where
  | flat {a b x y} : words line = [a, b] → Decimal.real? a = some x → Decimal.real? b = some y →
      Written line ⟨x, y, none⟩
  | deep {a b c x y z} : words line = [a, b, c] → Decimal.real? a = some x →
      Decimal.real? b = some y → Decimal.real? c = some z → Written line ⟨x, y, some z⟩

/-- Six words say a triangle. -/
inductive Triangle.Written (v0 v1 v2 n0 n1 n2 : List Char) : Triangle → Prop where
  | triangle {a b c d e f} : unsignedWord? v0 = some a → unsignedWord? v1 = some b →
      unsignedWord? v2 = some c → signedWord? n0 = some d → signedWord? n1 = some e →
      signedWord? n2 = some f → Written v0 v1 v2 n0 n1 n2 ⟨#v[a, b, c], #v[d, e, f]⟩

/-- A triangle line has six words, or two more for the velocity. -/
inductive TriangleRecord.Written (line : List Char) : TriangleRecord → Prop where
  | still {v0 v1 v2 n0 n1 n2 t} : words line = [v0, v1, v2, n0, n1, n2] →
      t.Written v0 v1 v2 n0 n1 n2 → Written line ⟨t, none⟩
  | moving {v0 v1 v2 n0 n1 n2 east north t u v} :
      words line = [v0, v1, v2, n0, n1, n2, east, north] → t.Written v0 v1 v2 n0 n1 n2 →
      Decimal.real? east = some u → Decimal.real? north = some v → Written line ⟨t, some ⟨u, v⟩⟩

/-- A node line has three words. -/
inductive LocationNode.Written (line : List Char) : LocationNode → Prop where
  | node {s l r segment left right} : words line = [s, l, r] → unsignedWord? s = some segment →
      signedWord? l = some left → signedWord? r = some right →
      Written line ⟨segment, left, right⟩

/-! ## Texts -/

/-- Lines begin with a block, a header with the number of its records and then one line for each
record in order, and go on with other lines. -/
def Block.Begins {ρ : Type} (b : Block) (written : List Char → ρ → Prop)
    (ls : List (List Char)) (rs : List ρ) (after : List (List Char)) : Prop :=
  ∃ header records, ls = header :: (records ++ after) ∧ b.header? header = some rs.length ∧
    List.Forall₂ written records rs

/-- What the three blocks of a mesh file say. -/
structure MeshDocument where
  vertices : List VertexRecord
  triangles : List TriangleRecord
  nodes : List LocationNode

namespace MeshDocument

/-- Lines begin with the three blocks of a document. -/
def Written (d : MeshDocument) (ls : List (List Char)) : Prop :=
  ∃ afterVertices afterTriangles rest,
    Block.vertices.Begins VertexRecord.Written ls d.vertices afterVertices ∧
      Block.triangles.Begins TriangleRecord.Written afterVertices d.triangles afterTriangles ∧
      Block.nodes.Begins LocationNode.Written afterTriangles d.nodes rest

/-- All triangles have a velocity, or none has. -/
def IsUniform (d : MeshDocument) : Prop :=
  ∃ moving, ∀ t ∈ d.triangles, t.velocity.isSome = moving

/-- All counts are at least one, all numbers in the document are in range, and all triangles have a
velocity or none has. -/
structure IsSound (d : MeshDocument) : Prop where
  vertices_pos : 1 ≤ d.vertices.length
  triangles_pos : 1 ≤ d.triangles.length
  nodes_pos : 1 ≤ d.nodes.length
  isUniform : d.IsUniform
  isWithin : ∀ t ∈ d.triangles, t.triangle.IsWithin d.vertices.length d.triangles.length
  segment_lt : ∀ n ∈ d.nodes, n.segment < 3 * d.triangles.length
  child_range : ∀ n ∈ d.nodes, (-1 ≤ n.left ∧ n.left < d.nodes.length) ∧
    -1 ≤ n.right ∧ n.right < d.nodes.length

/-- Bytes are a text that begins with the document. -/
def IsBody (d : MeshDocument) (bytes : List UInt8) : Prop :=
  ∃ text : List Char, bytes = text.flatMap String.utf8EncodeChar ∧ d.Written (linesOf text)

end MeshDocument

/-! ## A text begins with one document only -/

theorem VertexRecord.rightUnique_written : Relator.RightUnique VertexRecord.Written := by
  intro line r r' h h'
  cases h with
  | flat hw hx hy => cases h' <;> simp_all
  | deep hw hx hy hz => cases h' <;> simp_all

theorem Triangle.Written.unique {v0 v1 v2 n0 n1 n2 : List Char} {t t' : Triangle}
    (h : Written v0 v1 v2 n0 n1 n2 t) (h' : Written v0 v1 v2 n0 n1 n2 t') : t = t' := by
  cases h with
  | triangle ha hb hc hd he hf => cases h'; simp_all

theorem TriangleRecord.rightUnique_written : Relator.RightUnique TriangleRecord.Written := by
  intro line r r' h h'
  cases h with
  | still hw ht =>
      cases h' with
      | still hw' ht' =>
          simp only [hw, List.cons.injEq] at hw'
          obtain ⟨rfl, rfl, rfl, rfl, rfl, rfl, -⟩ := hw'
          rw [ht.unique ht']
      | moving hw' ht' hu' hv' => simp [hw] at hw'
  | moving hw ht hu hv =>
      cases h' with
      | still hw' ht' => simp [hw] at hw'
      | moving hw' ht' hu' hv' =>
          simp only [hw, List.cons.injEq] at hw'
          obtain ⟨rfl, rfl, rfl, rfl, rfl, rfl, rfl, rfl, -⟩ := hw'
          simp_all [ht.unique ht']

theorem LocationNode.rightUnique_written : Relator.RightUnique LocationNode.Written := by
  intro line r r' h h'
  cases h with
  | node hw hs hl hr => cases h'; simp_all

theorem Block.Begins.unique {ρ : Type} {b : Block} {written : List Char → ρ → Prop}
    (hunique : Relator.RightUnique written)
    {ls after after' : List (List Char)} {rs rs' : List ρ} (h : b.Begins written ls rs after)
    (h' : b.Begins written ls rs' after') : rs = rs' ∧ after = after' := by
  obtain ⟨header, records, rfl, hn, hall⟩ := h
  obtain ⟨header', records', heq, hn', hall'⟩ := h'
  obtain ⟨rfl, happend⟩ := List.cons.inj heq
  have hlen : rs.length = rs'.length := Option.some.inj (hn.symm.trans hn')
  have hrecords : records.length = records'.length := by
    rw [hall.length_eq, hall'.length_eq, hlen]
  obtain ⟨rfl, rfl⟩ := List.append_inj happend hrecords
  exact ⟨List.right_unique_forall₂' hunique hall hall', rfl⟩

namespace MeshDocument

theorem Written.unique {d d' : MeshDocument} {ls : List (List Char)} (h : d.Written ls)
    (h' : d'.Written ls) : d = d' := by
  obtain ⟨_, _, _, hv, ht, hn⟩ := h
  obtain ⟨_, _, _, hv', ht', hn'⟩ := h'
  obtain ⟨hvertices, rfl⟩ := hv.unique VertexRecord.rightUnique_written hv'
  obtain ⟨htriangles, rfl⟩ := ht.unique TriangleRecord.rightUnique_written ht'
  obtain ⟨hnodes, rfl⟩ := hn.unique LocationNode.rightUnique_written hn'
  cases d
  cases d'
  simp_all

end MeshDocument

/-! ## Fields -/

/-- The place of a vertex. -/
def VertexRecord.point (r : VertexRecord) : Point := Point.ofDegrees r.long r.lat

/-- The field consists of what is written in the document, in the same order. It has depths if all
vertices have one, and where no velocities are written the water stands still. -/
structure FlowField.Shows (f : FlowField Float) (d : MeshDocument) : Prop where
  vertices : f.mesh.vertices.toList = d.vertices.map VertexRecord.point
  triangles : f.mesh.triangles.toList = d.triangles.map TriangleRecord.triangle
  velocities : f.mesh.velocities.toList = d.triangles.map fun t => t.velocity.getD Velocity.zero
  nodes : f.dag.nodes.toList = d.nodes
  depths : f.mesh.depths.map Array.toList = d.vertices.mapM VertexRecord.depth
  bounds : f.mesh.bounds = Rect.ofPoints f.mesh.vertices

end CurrentDrift
