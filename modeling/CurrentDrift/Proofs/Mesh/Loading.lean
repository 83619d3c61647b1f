import CurrentDrift.Proofs.Mesh.Parts
import CurrentDrift.Proofs.Mesh.Reading
import CurrentDrift.Proofs.Text.Utf8

/-! # Loading a mesh file

Main statement: a body is loaded exactly if it begins with a sound document, and the flow field then
shows what is written there. -/

namespace CurrentDrift

open Text

namespace MeshDocument

/-! ## Depths and velocities -/

theorem depths_eq_mapM (vs : List VertexRecord) :
    (if vs.all fun v => v.depth.isSome then some (vs.filterMap VertexRecord.depth) else none) =
      vs.mapM VertexRecord.depth := by
  induction vs with
  | nil => rfl
  | cons v vs ih =>
      rw [List.mapM_cons, ← ih]
      cases hd : v.depth with
      | none => simp [hd]
      | some z => cases hall : vs.all fun v => v.depth.isSome <;> simp [hd, hall]

theorem filterMap_velocity_eq_map {ts : List TriangleRecord}
    (h : ∀ t ∈ ts, t.velocity.isSome = true) :
    ts.filterMap TriangleRecord.velocity = ts.map fun t => t.velocity.getD Velocity.zero := by
  induction ts with
  | nil => rfl
  | cons t ts ih =>
      obtain ⟨ht, hts⟩ := List.forall_mem_cons.mp h
      obtain ⟨v, hv⟩ := Option.isSome_iff_exists.mp ht
      simp [hv, ih hts]

theorem velocities_eq_map {ts : List TriangleRecord} {moving : Bool}
    (h : ∀ t ∈ ts, t.velocity.isSome = moving) :
    (Mesh.flow (ts.map TriangleRecord.triangle).toArray
      (ts.filterMap TriangleRecord.velocity).toArray).toList =
        ts.map fun t => t.velocity.getD Velocity.zero := by
  cases moving with
  | false =>
      have hnone : ∀ t ∈ ts, t.velocity = none := by simpa using h
      have hzero : (ts.map fun t => t.velocity.getD Velocity.zero) =
          List.replicate ts.length Velocity.zero := by
        rw [List.eq_replicate_iff]
        refine ⟨List.length_map _, fun v hv => ?_⟩
        obtain ⟨t, ht, rfl⟩ := List.mem_map.mp hv
        rw [hnone t ht, Option.getD_none]
      rw [Mesh.flow, List.filterMap_eq_nil_iff.mpr hnone, hzero]
      simp
  | true =>
      rw [Mesh.flow, filterMap_velocity_eq_map h]
      cases ts <;> rfl

/-! ## Putting the parts together -/

variable {d : MeshDocument}

/-- If there are depths, there is one for each vertex. -/
theorem size_of_mem_depths (d : MeshDocument) :
    ∀ x ∈ (if d.vertices.all fun v => v.depth.isSome then
        some (d.vertices.filterMap VertexRecord.depth).toArray else none),
      x.size = (d.vertices.map VertexRecord.point).toArray.size := by
  intro x hx
  split at hx
  · next hall =>
    obtain rfl := Option.some.inj hx
    simpa [List.filterMap_length_eq_length] using hall
  · contradiction

/-- If there are velocities, there is one for each triangle. -/
theorem size_flow (hu : d.IsUniform) :
    (Mesh.flow (d.triangles.map TriangleRecord.triangle).toArray
      (d.triangles.filterMap TriangleRecord.velocity).toArray).size =
        (d.triangles.map TriangleRecord.triangle).toArray.size := by
  obtain ⟨moving, h⟩ := hu
  rw [← Array.length_toList, velocities_eq_map h]
  simp

/-- A sound document describes a flow field that shows it. -/
theorem IsSound.exists_field (h : d.IsSound) : ∃ f, d.field? = .ok f ∧ f.Shows d := by
  obtain ⟨moving, hmoving⟩ := h.isUniform
  have hvertices : (d.vertices.map VertexRecord.point).toArray.size ≠ 0 := by
    have := h.vertices_pos
    simp only [List.size_toArray, List.length_map]
    omega
  have htriangles : (d.triangles.map TriangleRecord.triangle).toArray.size ≠ 0 := by
    have := h.triangles_pos
    simp only [List.size_toArray, List.length_map]
    omega
  have hnodes : d.nodes.toArray.size ≠ 0 := by
    have := h.nodes_pos
    simp only [List.size_toArray]
    omega
  have hwithin : ∀ t ∈ (d.triangles.map TriangleRecord.triangle).toArray,
      t.IsWithin (d.vertices.map VertexRecord.point).toArray.size
        (d.triangles.map TriangleRecord.triangle).toArray.size := by
    simpa using h.isWithin
  have hsegment : ∀ n ∈ d.nodes.toArray,
      n.segment < 3 * (d.triangles.map TriangleRecord.triangle).toArray.size := by
    simpa using h.segment_lt
  have hchild : ∀ n ∈ d.nodes.toArray, ∀ onLeft,
      -1 ≤ n.child onLeft ∧ n.child onLeft < d.nodes.toArray.size := by
    intro n hn onLeft
    obtain ⟨hleft, hright⟩ := h.child_range n (by simpa using hn)
    cases onLeft with
    | true => simpa [LocationNode.child] using hleft
    | false => simpa [LocationNode.child] using hright
  let mesh : Mesh Float :=
    { vertices := (d.vertices.map VertexRecord.point).toArray
      depths := if d.vertices.all fun v => v.depth.isSome then
        some (d.vertices.filterMap VertexRecord.depth).toArray else none
      triangles := (d.triangles.map TriangleRecord.triangle).toArray
      velocities := Mesh.flow (d.triangles.map TriangleRecord.triangle).toArray
        (d.triangles.filterMap TriangleRecord.velocity).toArray
      bounds := (d.vertices.map VertexRecord.point).foldl Rect.insert Rect.empty
      vertices_pos := Nat.pos_of_ne_zero hvertices
      triangles_pos := Nat.pos_of_ne_zero htriangles
      depths_size := d.size_of_mem_depths
      velocities_size := size_flow h.isUniform
      isWithin := hwithin }
  let dag : LocationDag := ⟨d.nodes.toArray, Nat.pos_of_ne_zero hnodes, hchild⟩
  refine ⟨⟨mesh, dag, hsegment⟩, ?_, ?_⟩
  · refine bind_eq_ok_iff.mpr ⟨mesh, Mesh.ofParts_eq_ok_iff.mpr ⟨?_, rfl, rfl, rfl, rfl, rfl⟩, ?_⟩
    · exact ⟨hvertices, htriangles, d.size_of_mem_depths, size_flow h.isUniform, hwithin⟩
    · refine bind_eq_ok_iff.mpr ⟨dag, LocationDag.ofNodes_eq_ok_iff.mpr ⟨?_, rfl⟩, ?_⟩
      · exact ⟨hnodes, fun n hn => ⟨hsegment n hn, hchild n hn⟩⟩
      · exact FlowField.ofParts_of_segment_lt hsegment
  · constructor
    · rfl
    · rfl
    · exact velocities_eq_map hmoving
    · rfl
    · rw [← depths_eq_mapM]
      show Option.map _ (if _ then _ else _) = _
      split <;> rfl
    · exact (List.foldl_toArray _ _ _).symm

theorem isSound_of_field? (hu : d.IsUniform) {f : FlowField Float} (h : d.field? = .ok f) :
    d.IsSound := by
  obtain ⟨mesh, hmesh, h⟩ := bind_eq_ok_iff.mp h
  obtain ⟨dag, hdag, -⟩ := bind_eq_ok_iff.mp h
  obtain ⟨⟨hvertices, htriangles, -, -, hwithin⟩, -, -, hm, -, -⟩ := Mesh.ofParts_eq_ok_iff.mp hmesh
  obtain ⟨⟨hnodes, hranges⟩, -⟩ := LocationDag.ofNodes_eq_ok_iff.mp hdag
  rw [hm] at hranges
  simp only [List.size_toArray, List.length_map, List.mem_toArray, ne_eq]
    at hvertices htriangles hwithin hnodes hranges
  refine ⟨by omega, by omega, by omega, hu, ?_, fun n hn => (hranges n hn).1, fun n hn => ?_⟩
  · simpa using hwithin
  · exact ⟨(hranges n hn).2 true, (hranges n hn).2 false⟩

theorem not_isMismatch_of_field? (hu : d.IsUniform) {e : MeshError} (h : d.field? = .error e) :
    ∃ cause : Corruption, e = .corrupt cause ∧ ¬ cause.IsMismatch := by
  rcases bind_eq_error_iff.mp h with h | ⟨mesh, -, h⟩
  · exact Mesh.not_isMismatch_of_ofParts d.size_of_mem_depths (size_flow hu) h
  · rcases bind_eq_error_iff.mp h with h | ⟨dag, hdag, h⟩
    · exact LocationDag.not_isMismatch_of_ofNodes h
    · obtain ⟨⟨-, hranges⟩, hnodes⟩ := LocationDag.ofNodes_eq_ok_iff.mp hdag
      have hsegment : ∀ n ∈ dag.nodes, n.segment < 3 * mesh.triangles.size := by
        rw [hnodes]
        exact fun n hn => (hranges n hn).1
      rw [FlowField.ofParts_of_segment_lt hsegment] at h
      contradiction

/-! ## A square -/

/-- A square of two triangles in still water, without depths. The only node asks about the side
between them. -/
def square : MeshDocument where
  vertices :=
    [⟨Decimal.nearest 0 0, Decimal.nearest 0 0, none⟩,
     ⟨Decimal.nearest 1 0, Decimal.nearest 0 0, none⟩,
     ⟨Decimal.nearest 1 0, Decimal.nearest 1 0, none⟩,
     ⟨Decimal.nearest 0 0, Decimal.nearest 1 0, none⟩]
  triangles :=
    [⟨⟨#v[0, 1, 3], #v[1, -1, -1]⟩, none⟩,
     ⟨⟨#v[1, 2, 3], #v[-1, 0, -1]⟩, none⟩]
  nodes := [⟨1, -1, -1⟩]

def squareText : List Char :=
  ("Vertices 4\n0 0\n1 0\n1 1\n0 1\n" ++ "Topology 2\n0 1 3 1 -1 -1\n1 2 3 -1 0 -1\n" ++
    "DAGTree 1\n1 -1 -1\n").toList

def squareBody : List UInt8 := squareText.flatMap String.utf8EncodeChar

theorem written_square : square.Written (linesOf squareText) := by
  have hlines : linesOf squareText =
      "Vertices 4".toList :: (["0 0".toList, "1 0".toList, "1 1".toList, "0 1".toList] ++
        "Topology 2".toList :: (["0 1 3 1 -1 -1".toList, "1 2 3 -1 0 -1".toList] ++
          "DAGTree 1".toList :: (["1 -1 -1".toList] ++ []))) := by
    decide +kernel
  have hzero : Decimal.real? ['0'] = some (Decimal.nearest 0 0) := rfl
  have hone : Decimal.real? ['1'] = some (Decimal.nearest 1 0) := rfl
  have hfirst : words "0 1 3 1 -1 -1".toList =
      [['0'], ['1'], ['3'], ['1'], ['-', '1'], ['-', '1']] := by
    decide +kernel
  have hsecond : words "1 2 3 -1 0 -1".toList =
      [['1'], ['2'], ['3'], ['-', '1'], ['0'], ['-', '1']] := by
    decide +kernel
  have hnode : words "1 -1 -1".toList = [['1'], ['-', '1'], ['-', '1']] := by decide +kernel
  refine ⟨_, _, _, ⟨_, _, hlines, by decide +kernel, ?_⟩, ⟨_, _, rfl, by decide +kernel, ?_⟩,
    ⟨_, _, rfl, by decide +kernel, ?_⟩⟩
  · refine .cons ?_ (.cons ?_ (.cons ?_ (.cons ?_ .nil)))
    · exact .flat (a := ['0']) (b := ['0']) (by decide +kernel) hzero hzero
    · exact .flat (a := ['1']) (b := ['0']) (by decide +kernel) hone hzero
    · exact .flat (a := ['1']) (b := ['1']) (by decide +kernel) hone hone
    · exact .flat (a := ['0']) (b := ['1']) (by decide +kernel) hzero hone
  · refine .cons (.still hfirst (.triangle ?_ ?_ ?_ ?_ ?_ ?_))
      (.cons (.still hsecond (.triangle ?_ ?_ ?_ ?_ ?_ ?_)) .nil)
    all_goals decide +kernel
  · refine .cons (.node hnode ?_ ?_ ?_) .nil
    all_goals decide +kernel

theorem isBody_square : square.IsBody squareBody := ⟨_, rfl, written_square⟩

theorem isSound_square : square.IsSound := by
  constructor <;> simp [square, IsUniform, Triangle.IsWithin]

end MeshDocument

/-! ## Loading -/

theorem MeshDocument.IsBody.unique {d d' : MeshDocument} {bytes : List UInt8} (h : d.IsBody bytes)
    (h' : d'.IsBody bytes) : d = d' := by
  obtain ⟨text, htext, hd⟩ := h
  obtain ⟨text', htext', hd'⟩ := h'
  have hdecode := (Utf8.decode_eq_ok_iff bytes text).mpr htext
  obtain rfl := Except.ok.inj (hdecode.symm.trans ((Utf8.decode_eq_ok_iff bytes text').mpr htext'))
  exact hd.unique hd'

namespace FlowField

theorem ofBody_of_decode {bytes : List UInt8} {text : List Char}
    (h : bytes = text.flatMap String.utf8EncodeChar) : ofBody bytes = ofText text := by
  rw [ofBody, (Utf8.decode_eq_ok_iff bytes text).mpr h]

/-- The body is complained about as a text, or it is read as a document. -/
theorem malformed_or_isBody (bytes : List UInt8) :
    (∃ part line cause, ofBody bytes = .error (.malformed part line cause)) ∨
      ∃ d : MeshDocument, d.IsBody bytes ∧ d.IsUniform ∧ ofBody bytes = d.field? := by
  cases hdecode : Utf8.decode bytes with
  | error fault =>
      refine .inl ⟨.preamble, 0, .notText fault, ?_⟩
      rw [ofBody, hdecode]
  | ok text =>
      have hbytes := (Utf8.decode_eq_ok_iff bytes text).mp hdecode
      rw [ofBody_of_decode hbytes]
      rcases MeshDocument.malformed_or_written text with hmalformed | ⟨d, hd, hu⟩
      · exact .inl hmalformed
      · exact .inr ⟨d, ⟨text, hbytes, hd⟩, hu, MeshDocument.ofText_of_written hd hu⟩

/-- A body is loaded exactly if it is a text that begins with a sound document; whatever follows is
ignored. The field then shows that document. That there are as many depths as vertices and as many
velocities as triangles, and that no node asks about a triangle that is not there, never has to be
complained about in the end. -/
theorem ofBody_spec (bytes : List UInt8) :
    ((∃ f, ofBody bytes = .ok f) ↔ ∃ d : MeshDocument, d.IsBody bytes ∧ d.IsSound) ∧
      (∀ f d, ofBody bytes = .ok f → d.IsBody bytes → f.Shows d) ∧
      ∀ cause, ofBody bytes = .error (.corrupt cause) → ¬ cause.IsMismatch := by
  have hload : ∀ d : MeshDocument, d.IsBody bytes → d.IsSound →
      ∃ f, ofBody bytes = .ok f ∧ f.Shows d := by
    rintro d ⟨text, hbytes, hd⟩ hsound
    rw [ofBody_of_decode hbytes, MeshDocument.ofText_of_written hd hsound.isUniform]
    exact hsound.exists_field
  have hsound : ∀ f, ofBody bytes = .ok f → ∃ d : MeshDocument, d.IsBody bytes ∧ d.IsSound := by
    intro f hf
    rcases malformed_or_isBody bytes with ⟨part, line, cause, he⟩ | ⟨d, hd, hu, hfield⟩
    · rw [he] at hf
      contradiction
    · exact ⟨d, hd, MeshDocument.isSound_of_field? hu (hfield.symm.trans hf)⟩
  refine ⟨⟨fun ⟨f, hf⟩ => hsound f hf, ?_⟩, ?_, ?_⟩
  · rintro ⟨d, hd, hds⟩
    obtain ⟨f, hf, -⟩ := hload d hd hds
    exact ⟨f, hf⟩
  · intro f d hf hd
    obtain ⟨d', hd', hds⟩ := hsound f hf
    obtain rfl := hd.unique hd'
    obtain ⟨f', hf', hshows⟩ := hload d hd hds
    obtain rfl := Except.ok.inj (hf.symm.trans hf')
    exact hshows
  · intro cause he
    rcases malformed_or_isBody bytes with ⟨part, line, cause', he'⟩ | ⟨d, -, hu, hfield⟩
    · rw [he'] at he
      simp at he
    · obtain ⟨cause', heq, hnot⟩ :=
        MeshDocument.not_isMismatch_of_field? hu (hfield.symm.trans he)
      obtain rfl := MeshError.corrupt.inj heq
      exact hnot

theorem ofBody_square :
    ∃ f, ofBody MeshDocument.squareBody = .ok f ∧ f.Shows MeshDocument.square := by
  obtain ⟨hloaded, hshows, -⟩ := ofBody_spec MeshDocument.squareBody
  have hbody := MeshDocument.isBody_square
  obtain ⟨f, hf⟩ := hloaded.mpr ⟨_, hbody, MeshDocument.isSound_square⟩
  exact ⟨f, hf, hshows f _ hf hbody⟩

end FlowField

end CurrentDrift
