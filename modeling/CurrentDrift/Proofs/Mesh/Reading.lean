import CurrentDrift.Proofs.Mesh.Document
import CurrentDrift.Proofs.Outcome

/-! # Reading a mesh file

Main statements: a text that begins with a document is read as that document; of any other text
some line is complained about. -/

namespace CurrentDrift

open Text

/-! ## Reading a word -/

theorem Field.read_eq_ok_iff {σ : Type} {field : Field} {value? : List Char → Option σ} {b : Block}
    {line : Nat} {word : List Char} {x : σ} :
    field.read value? b line word = .ok x ↔ value? word = some x := by
  unfold Field.read
  cases value? word <;> simp

theorem TriangleBlock.triangle_eq_ok_iff {line : Nat} {v0 v1 v2 n0 n1 n2 : List Char}
    {t : Triangle} :
    TriangleBlock.triangle line v0 v1 v2 n0 n1 n2 = .ok t ↔ t.Written v0 v1 v2 n0 n1 n2 := by
  unfold triangle
  constructor
  · intro h
    obtain ⟨a, ha, h⟩ := bind_eq_ok_iff.mp h
    obtain ⟨b, hb, h⟩ := bind_eq_ok_iff.mp h
    obtain ⟨c, hc, h⟩ := bind_eq_ok_iff.mp h
    obtain ⟨d, hd, h⟩ := bind_eq_ok_iff.mp h
    obtain ⟨e, he, h⟩ := bind_eq_ok_iff.mp h
    obtain ⟨f, hf, h⟩ := bind_eq_ok_iff.mp h
    rw [Field.read_eq_ok_iff] at ha hb hc hd he hf
    obtain rfl := Except.ok.inj h
    exact .triangle ha hb hc hd he hf
  · rintro ⟨ha, hb, hc, hd, he, hf⟩
    refine bind_eq_ok_iff.mpr ⟨_, Field.read_eq_ok_iff.mpr ha, ?_⟩
    refine bind_eq_ok_iff.mpr ⟨_, Field.read_eq_ok_iff.mpr hb, ?_⟩
    refine bind_eq_ok_iff.mpr ⟨_, Field.read_eq_ok_iff.mpr hc, ?_⟩
    refine bind_eq_ok_iff.mpr ⟨_, Field.read_eq_ok_iff.mpr hd, ?_⟩
    refine bind_eq_ok_iff.mpr ⟨_, Field.read_eq_ok_iff.mpr he, ?_⟩
    exact bind_eq_ok_iff.mpr ⟨_, Field.read_eq_ok_iff.mpr hf, rfl⟩

/-! ## Reading a line -/

/-- What a vertex adds to those before it. -/
def VertexBlock.push (b : VertexBlock) (r : VertexRecord) : Option VertexBlock :=
  some (b.add r.point r.depth)

/-- What a triangle adds to those before it, if it is of their form. -/
def TriangleBlock.push (b : TriangleBlock) (r : TriangleRecord) : Option TriangleBlock :=
  if b.moving.all (· == r.velocity.isSome) then
    some ⟨b.triangles.push r.triangle, b.velocities ++ r.velocity.toArray, some r.velocity.isSome⟩
  else none

/-- What a node adds to those before it. -/
def LocationNode.push (nodes : Array LocationNode) (r : LocationNode) :
    Option (Array LocationNode) :=
  some (Array.push nodes r)

/-- A line is taken in exactly if a record is written on it that can be added. -/
def Block.Adds {σ ρ : Type} (add : σ → Line → Except MeshError σ)
    (written : List Char → ρ → Prop) (push : σ → ρ → Option σ) : Prop :=
  ∀ s line s', add s line = .ok s' ↔ ∃ r, written line.chars r ∧ push s r = some s'

theorem VertexBlock.adds : Block.Adds addLine VertexRecord.Written push := by
  intro b line b'
  unfold addLine
  constructor
  · intro h
    split at h
    · next long lat hw =>
      obtain ⟨x, hx, h⟩ := bind_eq_ok_iff.mp h
      obtain ⟨y, hy, h⟩ := bind_eq_ok_iff.mp h
      rw [Field.read_eq_ok_iff] at hx hy
      exact ⟨⟨x, y, none⟩, .flat hw hx hy, congrArg some (Except.ok.inj h)⟩
    · next long lat depth hw =>
      obtain ⟨x, hx, h⟩ := bind_eq_ok_iff.mp h
      obtain ⟨y, hy, h⟩ := bind_eq_ok_iff.mp h
      obtain ⟨z, hz, h⟩ := bind_eq_ok_iff.mp h
      rw [Field.read_eq_ok_iff] at hx hy hz
      exact ⟨⟨x, y, some z⟩, .deep hw hx hy hz, congrArg some (Except.ok.inj h)⟩
    · contradiction
  · rintro ⟨r, hr, hb⟩
    obtain rfl := Option.some.inj hb
    cases hr with
    | flat hw hx hy =>
        rw [hw]
        refine bind_eq_ok_iff.mpr ⟨_, Field.read_eq_ok_iff.mpr hx, ?_⟩
        exact bind_eq_ok_iff.mpr ⟨_, Field.read_eq_ok_iff.mpr hy, rfl⟩
    | deep hw hx hy hz =>
        rw [hw]
        refine bind_eq_ok_iff.mpr ⟨_, Field.read_eq_ok_iff.mpr hx, ?_⟩
        refine bind_eq_ok_iff.mpr ⟨_, Field.read_eq_ok_iff.mpr hy, ?_⟩
        exact bind_eq_ok_iff.mpr ⟨_, Field.read_eq_ok_iff.mpr hz, rfl⟩

theorem TriangleBlock.checkForm_eq_ok_iff {b : TriangleBlock} {line : Nat} {moving : Bool}
    {u : Unit} : b.checkForm line moving = .ok u ↔ b.moving.all (· == moving) = true := by
  unfold checkForm
  split
  · next h => simp [h]
  · next h => simp [h]

theorem TriangleBlock.adds : Block.Adds addLine TriangleRecord.Written push := by
  intro b line b'
  unfold addLine
  constructor
  · intro h
    split at h
    · next v0 v1 v2 n0 n1 n2 hw =>
      obtain ⟨_, hform, h⟩ := bind_eq_ok_iff.mp h
      obtain ⟨t, ht, h⟩ := bind_eq_ok_iff.mp h
      rw [checkForm_eq_ok_iff] at hform
      rw [triangle_eq_ok_iff] at ht
      refine ⟨⟨t, none⟩, .still hw ht, ?_⟩
      rw [push, ← Except.ok.inj h]
      simpa using hform
    · next v0 v1 v2 n0 n1 n2 east north hw =>
      obtain ⟨_, hform, h⟩ := bind_eq_ok_iff.mp h
      obtain ⟨t, ht, h⟩ := bind_eq_ok_iff.mp h
      obtain ⟨u, hu, h⟩ := bind_eq_ok_iff.mp h
      obtain ⟨v, hv, h⟩ := bind_eq_ok_iff.mp h
      rw [checkForm_eq_ok_iff] at hform
      rw [triangle_eq_ok_iff] at ht
      rw [Field.read_eq_ok_iff] at hu hv
      refine ⟨⟨t, some ⟨u, v⟩⟩, .moving hw ht hu hv, ?_⟩
      rw [push, ← Except.ok.inj h]
      simpa using hform
    · contradiction
  · rintro ⟨r, hr, hb⟩
    unfold push at hb
    split at hb
    · next hform =>
      obtain rfl := Option.some.inj hb
      cases hr with
      | still hw ht =>
          rw [hw]
          refine bind_eq_ok_iff.mpr ⟨(), checkForm_eq_ok_iff.mpr hform, ?_⟩
          refine bind_eq_ok_iff.mpr ⟨_, triangle_eq_ok_iff.mpr ht, ?_⟩
          simp
      | moving hw ht hu hv =>
          rw [hw]
          refine bind_eq_ok_iff.mpr ⟨(), checkForm_eq_ok_iff.mpr hform, ?_⟩
          refine bind_eq_ok_iff.mpr ⟨_, triangle_eq_ok_iff.mpr ht, ?_⟩
          refine bind_eq_ok_iff.mpr ⟨_, Field.read_eq_ok_iff.mpr hu, ?_⟩
          refine bind_eq_ok_iff.mpr ⟨_, Field.read_eq_ok_iff.mpr hv, ?_⟩
          simp
    · contradiction

theorem LocationNode.adds : Block.Adds addLine LocationNode.Written push := by
  intro nodes line nodes'
  unfold addLine
  constructor
  · intro h
    split at h
    · next s l r hw =>
      obtain ⟨segment, hs, h⟩ := bind_eq_ok_iff.mp h
      obtain ⟨left, hl, h⟩ := bind_eq_ok_iff.mp h
      obtain ⟨right, hr, h⟩ := bind_eq_ok_iff.mp h
      rw [Field.read_eq_ok_iff] at hs hl hr
      exact ⟨⟨segment, left, right⟩, .node hw hs hl hr, congrArg some (Except.ok.inj h)⟩
    · contradiction
  · rintro ⟨r, hr, hb⟩
    obtain rfl := Option.some.inj hb
    cases hr with
    | node hw hs hl hr =>
        rw [hw]
        refine bind_eq_ok_iff.mpr ⟨_, Field.read_eq_ok_iff.mpr hs, ?_⟩
        refine bind_eq_ok_iff.mpr ⟨_, Field.read_eq_ok_iff.mpr hl, ?_⟩
        exact bind_eq_ok_iff.mpr ⟨_, Field.read_eq_ok_iff.mpr hr, rfl⟩

/-! ## Reading a block -/

namespace Block

variable {σ ρ : Type} {b : Block} {add : σ → Line → Except MeshError σ}
  {written : List Char → ρ → Prop} {push : σ → ρ → Option σ}

theorem line_of_lines_cons (b : Block) {c : LineReader} {l : List Char} {ls : List (List Char)}
    (h : linesOf c.rest = l :: ls) :
    ∃ c', b.line c = .ok (⟨c.line + 1, l⟩, c') ∧ c'.line = c.line + 1 ∧ linesOf c'.rest = ls := by
  obtain ⟨c', hc, hnumber, hls⟩ := LineReader.next?_of_linesOf_cons h
  exact ⟨c', by rw [line, hc], hnumber, hls⟩

theorem lines_of_line_eq_ok {c c' : LineReader} {l : Line} (h : b.line c = .ok (l, c')) :
    linesOf c.rest = l.chars :: linesOf c'.rest := by
  cases hls : linesOf c.rest with
  | nil =>
      rw [line, LineReader.next?_of_linesOf_nil hls] at h
      contradiction
  | cons l' ls =>
      obtain ⟨c'', hc, -, rfl⟩ := b.line_of_lines_cons hls
      rw [hc] at h
      simp only [Except.ok.injEq, Prod.mk.injEq] at h
      obtain ⟨rfl, rfl⟩ := h
      rfl

/-- Reading takes in the records that are written on the next lines, one after the other. -/
theorem lines_eq_ok (hadd : Adds add written push)
    {n : Nat} {s s' : σ} {c c' : LineReader} (h : b.lines add n s c = .ok (s', c')) :
    ∃ records rs, linesOf c.rest = records ++ linesOf c'.rest ∧ rs.length = n ∧
      List.Forall₂ written records rs ∧ rs.foldlM push s = some s' := by
  induction n generalizing s c with
  | zero =>
      obtain ⟨rfl, rfl⟩ := Prod.mk.inj (Except.ok.inj h)
      exact ⟨[], [], rfl, rfl, .nil, rfl⟩
  | succ n ih =>
      obtain ⟨⟨l, c1⟩, hline, h⟩ := bind_eq_ok_iff.mp h
      obtain ⟨s1, hs1, h⟩ := bind_eq_ok_iff.mp h
      obtain ⟨r, hr, hpush⟩ := (hadd s l s1).mp hs1
      obtain ⟨records, rs, hlines, hlen, hall, hfold⟩ := ih h
      refine ⟨l.chars :: records, r :: rs, ?_, ?_, .cons hr hall, ?_⟩
      · rw [lines_of_line_eq_ok hline, hlines, List.cons_append]
      · rw [List.length_cons, hlen]
      · rw [List.foldlM_cons, hpush]
        exact hfold

theorem lines_of_written (hadd : Adds add written push)
    {s s' : σ} {c : LineReader} {records after : List (List Char)} {rs : List ρ}
    (hlines : linesOf c.rest = records ++ after) (hall : List.Forall₂ written records rs)
    (hfold : rs.foldlM push s = some s') :
    ∃ c', b.lines add rs.length s c = .ok (s', c') ∧ linesOf c'.rest = after := by
  induction hall generalizing s c with
  | nil =>
      obtain rfl := Option.some.inj hfold
      exact ⟨c, rfl, hlines⟩
  | @cons l r records rs hr hall ih =>
      obtain ⟨c1, hline, -, hrest⟩ := b.line_of_lines_cons hlines
      rw [List.foldlM_cons] at hfold
      obtain ⟨s1, hpush, hfold⟩ := Option.bind_eq_some_iff.mp hfold
      obtain ⟨c', hc', hafter⟩ := ih hrest hfold
      refine ⟨c', ?_, hafter⟩
      refine bind_eq_ok_iff.mpr ⟨_, hline, ?_⟩
      exact bind_eq_ok_iff.mpr ⟨s1, (hadd _ _ _).mpr ⟨r, hr, hpush⟩, hc'⟩

theorem count_eq_ok {c c' : LineReader} {n : Nat} (h : b.count c = .ok (n, c')) :
    ∃ header, linesOf c.rest = header :: linesOf c'.rest ∧ b.header? header = some n := by
  obtain ⟨⟨l, c1⟩, hline, h⟩ := bind_eq_ok_iff.mp h
  simp only at h
  split at h
  · next m hheader =>
    obtain ⟨rfl, rfl⟩ := Prod.mk.inj (Except.ok.inj h)
    exact ⟨l.chars, lines_of_line_eq_ok hline, hheader⟩
  · contradiction

theorem count_of_header (b : Block) {c : LineReader} {header : List Char}
    {ls : List (List Char)} {n : Nat} (hlines : linesOf c.rest = header :: ls)
    (hheader : b.header? header = some n) :
    ∃ c', b.count c = .ok (n, c') ∧ linesOf c'.rest = ls := by
  obtain ⟨c', hline, -, hrest⟩ := b.line_of_lines_cons hlines
  refine ⟨c', bind_eq_ok_iff.mpr ⟨_, hline, ?_⟩, hrest⟩
  simp only [hheader]

/-- Reads a block: its header and then its lines, one by one. -/
def read (b : Block) (add : σ → Line → Except MeshError σ) (init : Nat → σ) (c : LineReader) :
    Except MeshError (σ × LineReader) := do
  let (n, rest) ← b.count c
  b.lines add n (init (rest.roomFor n)) rest

theorem begins_of_read (init : Nat → σ) {s s' : σ} (hinit : ∀ k, init k = s)
    (hadd : Adds add written push)
    {c c' : LineReader} (h : b.read add init c = .ok (s', c')) :
    ∃ rs, b.Begins written (linesOf c.rest) rs (linesOf c'.rest) ∧
      rs.foldlM push s = some s' := by
  obtain ⟨⟨n, c1⟩, hcount, h⟩ := bind_eq_ok_iff.mp h
  simp only [hinit] at h
  obtain ⟨header, hheader, hn⟩ := count_eq_ok hcount
  obtain ⟨records, rs, hlines, rfl, hall, hfold⟩ := lines_eq_ok hadd h
  exact ⟨rs, ⟨header, records, by rw [hheader, hlines], hn, hall⟩, hfold⟩

theorem read_of_begins (init : Nat → σ) {s s' : σ} (hinit : ∀ k, init k = s)
    (hadd : Adds add written push)
    {c : LineReader} {rs : List ρ} {after : List (List Char)}
    (h : b.Begins written (linesOf c.rest) rs after) (hfold : rs.foldlM push s = some s') :
    ∃ c', b.read add init c = .ok (s', c') ∧ linesOf c'.rest = after := by
  obtain ⟨header, records, hlines, hn, hall⟩ := h
  obtain ⟨c1, hcount, hrest⟩ := b.count_of_header hlines hn
  obtain ⟨c', hc', hafter⟩ := lines_of_written hadd hrest hall hfold
  refine ⟨c', bind_eq_ok_iff.mpr ⟨_, hcount, ?_⟩, hafter⟩
  simp only [hinit]
  exact hc'

end Block

/-! ## What the blocks come to -/

theorem VertexBlock.foldlM_push (rs : List VertexRecord) (b : VertexBlock) :
    rs.foldlM push b = some
      { points := b.points ++ (rs.map VertexRecord.point).toArray
        depths := b.depths ++ (rs.filterMap VertexRecord.depth).toArray
        allHaveDepth := b.allHaveDepth && rs.all fun r => r.depth.isSome
        bounds := (rs.map VertexRecord.point).foldl Rect.insert b.bounds } := by
  induction rs generalizing b with
  | nil => simp
  | cons r rs ih =>
      have hcons := ih (b.add r.point r.depth)
      rw [List.foldlM_cons]
      refine Eq.trans hcons ?_
      cases hd : r.depth <;> simp [add, hd]

theorem TriangleBlock.isSome_foldlM_push (rs : List TriangleRecord) (b : TriangleBlock) :
    (rs.foldlM push b).isSome = true ↔
      ∃ moving, b.moving.all (· == moving) = true ∧ ∀ r ∈ rs, r.velocity.isSome = moving := by
  induction rs generalizing b with
  | nil => cases hb : b.moving <;> simp
  | cons r rs ih =>
      rw [List.foldlM_cons, push]
      split
      · next hform =>
        refine (ih _).trans ⟨?_, ?_⟩
        · rintro ⟨moving, hm, hall⟩
          obtain rfl : r.velocity.isSome = moving := by simpa using hm
          exact ⟨_, hform, List.forall_mem_cons.mpr ⟨rfl, hall⟩⟩
        · rintro ⟨moving, hm, hall⟩
          obtain ⟨rfl, hrs⟩ := List.forall_mem_cons.mp hall
          exact ⟨_, by simp, hrs⟩
      · next hform =>
        refine ⟨fun h => by contradiction, ?_⟩
        rintro ⟨moving, hm, hall⟩
        obtain ⟨rfl, -⟩ := List.forall_mem_cons.mp hall
        exact (hform hm).elim

theorem TriangleBlock.eq_of_foldlM_push {rs : List TriangleRecord} {b b' : TriangleBlock}
    (h : rs.foldlM push b = some b') :
    b'.triangles = b.triangles ++ (rs.map TriangleRecord.triangle).toArray ∧
      b'.velocities = b.velocities ++ (rs.filterMap TriangleRecord.velocity).toArray := by
  induction rs generalizing b with
  | nil =>
      obtain rfl := Option.some.inj h
      simp
  | cons r rs ih =>
      rw [List.foldlM_cons] at h
      obtain ⟨b1, hb1, h⟩ := Option.bind_eq_some_iff.mp h
      obtain ⟨htriangles, hvelocities⟩ := ih h
      unfold push at hb1
      split at hb1
      · obtain rfl := Option.some.inj hb1
        rw [htriangles, hvelocities]
        cases hv : r.velocity <;> simp [hv]
      · contradiction

theorem LocationNode.foldlM_push (rs : List LocationNode) (nodes : Array LocationNode) :
    rs.foldlM push nodes = some (nodes ++ rs.toArray) := by
  induction rs generalizing nodes with
  | nil => simp
  | cons r rs ih =>
      rw [List.foldlM_cons]
      exact (ih (Array.push nodes r)).trans (by simp)

/-! ## Faults of the text -/

/-- The only errors that a result can be. -/
def FailsOnlyWith {σ : Type} (p : MeshError → Prop) (x : Except MeshError σ) : Prop :=
  ∀ e, x = .error e → p e

namespace FailsOnlyWith

variable {σ τ : Type} {p q : MeshError → Prop}

theorem ok (s : σ) : FailsOnlyWith p (.ok s) := by
  intro e h
  contradiction

theorem error {e : MeshError} (h : p e) : FailsOnlyWith p (.error e : Except MeshError σ) := by
  intro e' h'
  obtain rfl := Except.error.inj h'
  exact h

theorem mono {x : Except MeshError σ} (hx : FailsOnlyWith p x) (h : ∀ e, p e → q e) :
    FailsOnlyWith q x :=
  fun e he => h e (hx e he)

theorem bind {x : Except MeshError σ} {g : σ → Except MeshError τ} (hx : FailsOnlyWith p x)
    (hg : ∀ s, FailsOnlyWith p (g s)) : FailsOnlyWith p (x >>= g) := by
  intro e h
  rcases bind_eq_error_iff.mp h with h | ⟨s, -, h⟩
  · exact hx e h
  · exact hg s e h

end FailsOnlyWith

/-- The error is about a line of the text. -/
def MeshError.IsMalformed (e : MeshError) : Prop :=
  ∃ part line cause, e = .malformed part line cause

/-- The error is about the line of that number, which the block has to be read on with. -/
def Block.Blames (b : Block) (line : Nat) (e : MeshError) : Prop :=
  ∃ cause, e = b.malformed line cause

namespace Block

theorem blames_malformed (b : Block) (line : Nat) (cause : Malformation) :
    b.Blames line (b.malformed line cause) :=
  ⟨cause, rfl⟩

theorem Blames.isMalformed {b : Block} {line : Nat} {e : MeshError} (h : b.Blames line e) :
    e.IsMalformed := by
  obtain ⟨cause, rfl⟩ := h
  exact ⟨_, _, _, rfl⟩

end Block

/-! Taking in a line, nothing but this line can be complained about. -/

theorem Field.read_blames {σ : Type} (field : Field) (value? : List Char → Option σ) (b : Block)
    (line : Nat) (word : List Char) :
    FailsOnlyWith (b.Blames line) (field.read value? b line word) := by
  unfold Field.read
  split
  · exact .ok _
  · exact .error (b.blames_malformed line _)

theorem VertexBlock.addLine_blames (b : VertexBlock) (line : Line) :
    FailsOnlyWith (Block.vertices.Blames line.number) (b.addLine line) := by
  unfold addLine
  split
  · refine .bind (Field.read_blames _ _ _ _ _) fun x => ?_
    exact .bind (Field.read_blames _ _ _ _ _) fun y => .ok _
  · refine .bind (Field.read_blames _ _ _ _ _) fun x => ?_
    refine .bind (Field.read_blames _ _ _ _ _) fun y => ?_
    exact .bind (Field.read_blames _ _ _ _ _) fun z => .ok _
  · exact .error (Block.vertices.blames_malformed _ _)

theorem TriangleBlock.triangle_blames (line : Nat) (v0 v1 v2 n0 n1 n2 : List Char) :
    FailsOnlyWith (Block.triangles.Blames line) (triangle line v0 v1 v2 n0 n1 n2) := by
  unfold triangle
  refine .bind (Field.read_blames _ _ _ _ _) fun a => ?_
  refine .bind (Field.read_blames _ _ _ _ _) fun b => ?_
  refine .bind (Field.read_blames _ _ _ _ _) fun c => ?_
  refine .bind (Field.read_blames _ _ _ _ _) fun d => ?_
  refine .bind (Field.read_blames _ _ _ _ _) fun e => ?_
  exact .bind (Field.read_blames _ _ _ _ _) fun f => .ok _

theorem TriangleBlock.checkForm_blames (b : TriangleBlock) (line : Nat) (moving : Bool) :
    FailsOnlyWith (Block.triangles.Blames line) (b.checkForm line moving) := by
  unfold checkForm
  split
  · exact .ok ()
  · exact .error (Block.triangles.blames_malformed line _)

theorem TriangleBlock.addLine_blames (b : TriangleBlock) (line : Line) :
    FailsOnlyWith (Block.triangles.Blames line.number) (b.addLine line) := by
  unfold addLine
  split
  · refine .bind (b.checkForm_blames _ _) fun _ => ?_
    exact .bind (triangle_blames _ _ _ _ _ _ _) fun t => .ok _
  · refine .bind (b.checkForm_blames _ _) fun _ => ?_
    refine .bind (triangle_blames _ _ _ _ _ _ _) fun t => ?_
    refine .bind (Field.read_blames _ _ _ _ _) fun u => ?_
    exact .bind (Field.read_blames _ _ _ _ _) fun v => .ok _
  · exact .error (Block.triangles.blames_malformed _ _)

theorem LocationNode.addLine_blames (nodes : Array LocationNode) (line : Line) :
    FailsOnlyWith (Block.nodes.Blames line.number) (addLine nodes line) := by
  unfold addLine
  split
  · refine .bind (Field.read_blames _ _ _ _ _) fun s => ?_
    refine .bind (Field.read_blames _ _ _ _ _) fun l => ?_
    exact .bind (Field.read_blames _ _ _ _ _) fun r => .ok _
  · exact .error (Block.nodes.blames_malformed _ _)

namespace Block

variable {σ : Type} {b : Block} {add : σ → Line → Except MeshError σ}

theorem line_isMalformed (b : Block) (c : LineReader) :
    FailsOnlyWith MeshError.IsMalformed (b.line c) := by
  unfold line
  split
  · exact .ok _
  · exact .error (b.blames_malformed _ _).isMalformed

theorem count_isMalformed (b : Block) (c : LineReader) :
    FailsOnlyWith MeshError.IsMalformed (b.count c) := by
  unfold count
  refine .bind (b.line_isMalformed c) fun x => ?_
  dsimp only
  split
  · exact .ok _
  · exact .error (b.blames_malformed _ _).isMalformed

theorem lines_isMalformed (hadd : ∀ s line, FailsOnlyWith (b.Blames line.number) (add s line))
    (n : Nat) (s : σ) (c : LineReader) :
    FailsOnlyWith MeshError.IsMalformed (b.lines add n s c) := by
  induction n generalizing s c with
  | zero => exact .ok _
  | succ n ih =>
      refine .bind (b.line_isMalformed c) fun x => ?_
      exact .bind ((hadd s x.1).mono fun _ => Blames.isMalformed) fun s' => ih s' x.2

theorem read_isMalformed (hadd : ∀ s line, FailsOnlyWith (b.Blames line.number) (add s line))
    (init : Nat → σ) (c : LineReader) :
    FailsOnlyWith MeshError.IsMalformed (b.read add init c) :=
  .bind (b.count_isMalformed c) fun _ => lines_isMalformed hadd _ _ _

end Block

/-! ## Reading a text -/

namespace MeshDocument

/-- The flow field that a document describes, put together from its parts. -/
def field? (d : MeshDocument) : Except MeshError (FlowField Float) := do
  let points := d.vertices.map VertexRecord.point
  let depths := d.vertices.filterMap VertexRecord.depth
  let mesh ← Mesh.ofParts points.toArray
    (if d.vertices.all fun v => v.depth.isSome then some depths.toArray else none)
    (d.triangles.map TriangleRecord.triangle).toArray
    (d.triangles.filterMap TriangleRecord.velocity).toArray
    (points.foldl Rect.insert Rect.empty)
  let dag ← LocationDag.ofNodes d.nodes.toArray mesh.triangles.size
  FlowField.ofParts mesh dag

/-- A text that begins with a document in which all triangles are of one form is read as that
document. -/
theorem ofText_of_written {d : MeshDocument} {text : List Char} (h : d.Written (linesOf text))
    (hu : d.IsUniform) : FlowField.ofText text = d.field? := by
  obtain ⟨afterVertices, afterTriangles, rest, hv, ht, hn⟩ := h
  obtain ⟨t, hfold⟩ := Option.isSome_iff_exists.mp
    ((TriangleBlock.isSome_foldlM_push d.triangles (TriangleBlock.empty 0)).mpr
      (hu.imp fun _ h => ⟨rfl, h⟩))
  obtain ⟨htriangles, hvelocities⟩ := TriangleBlock.eq_of_foldlM_push hfold
  obtain ⟨c1, hc1, rfl⟩ := Block.read_of_begins VertexBlock.empty (fun _ => rfl)
    VertexBlock.adds (c := LineReader.ofText text) hv
    (VertexBlock.foldlM_push d.vertices (VertexBlock.empty 0))
  obtain ⟨c2, hc2, rfl⟩ := Block.read_of_begins TriangleBlock.empty (fun _ => rfl)
    TriangleBlock.adds ht hfold
  obtain ⟨c3, hc3, -⟩ := Block.read_of_begins Array.emptyWithCapacity (fun _ => rfl)
    LocationNode.adds hn (LocationNode.foldlM_push d.nodes #[])
  have hread1 : VertexBlock.read (LineReader.ofText text) = _ := hc1
  have hread2 : TriangleBlock.read c1 = _ := hc2
  have hread3 : LocationNode.read c2 = _ := hc3
  unfold FlowField.ofText field?
  simp only [hread1, hread2, hread3, htriangles, hvelocities, bind, Except.bind]
  simp [VertexBlock.empty, TriangleBlock.empty, VertexBlock.depths?]

/-- The three blocks of a mesh file, one after the other. -/
def blocks (c : LineReader) : Except MeshError (Array LocationNode × LineReader) := do
  let (_, afterVertices) ← VertexBlock.read c
  let (_, afterTriangles) ← TriangleBlock.read afterVertices
  LocationNode.read afterTriangles

theorem blocks_isMalformed (c : LineReader) :
    FailsOnlyWith MeshError.IsMalformed (blocks c) := by
  refine .bind (Block.read_isMalformed VertexBlock.addLine_blames VertexBlock.empty c) fun x => ?_
  refine .bind (Block.read_isMalformed TriangleBlock.addLine_blames TriangleBlock.empty x.2)
    fun y => ?_
  exact Block.read_isMalformed LocationNode.addLine_blames Array.emptyWithCapacity y.2

theorem ofText_of_blocks_eq_error {text : List Char} {e : MeshError}
    (h : blocks (LineReader.ofText text) = .error e) : FlowField.ofText text = .error e := by
  rcases bind_eq_error_iff.mp h with hv | ⟨⟨v, c1⟩, hv, h⟩
  · exact bind_eq_error_iff.mpr (.inl hv)
  · refine bind_eq_error_iff.mpr (.inr ⟨_, hv, ?_⟩)
    rcases bind_eq_error_iff.mp h with ht | ⟨⟨t, c2⟩, ht, hn⟩
    · exact bind_eq_error_iff.mpr (.inl ht)
    · exact bind_eq_error_iff.mpr (.inr ⟨_, ht, bind_eq_error_iff.mpr (.inl hn)⟩)

theorem written_of_blocks_eq_ok {text : List Char} {x : Array LocationNode × LineReader}
    (h : blocks (LineReader.ofText text) = .ok x) :
    ∃ d : MeshDocument, d.Written (linesOf text) ∧ d.IsUniform := by
  obtain ⟨⟨v, c1⟩, hv, h⟩ := bind_eq_ok_iff.mp h
  obtain ⟨⟨t, c2⟩, ht, hn⟩ := bind_eq_ok_iff.mp h
  obtain ⟨vs, hvs, -⟩ := Block.begins_of_read VertexBlock.empty
    (s := VertexBlock.empty 0) (fun _ => rfl) VertexBlock.adds hv
  obtain ⟨ts, hts, hfold⟩ := Block.begins_of_read TriangleBlock.empty
    (s := TriangleBlock.empty 0) (fun _ => rfl) TriangleBlock.adds ht
  obtain ⟨ns, hns, -⟩ := Block.begins_of_read Array.emptyWithCapacity
    (s := #[]) (fun _ => rfl) LocationNode.adds hn
  have hsome := (TriangleBlock.isSome_foldlM_push ts (TriangleBlock.empty 0)).mp
    (Option.isSome_iff_exists.mpr ⟨t, hfold⟩)
  exact ⟨⟨vs, ts, ns⟩, ⟨_, _, _, hvs, hts, hns⟩, hsome.imp fun _ h => h.2⟩

/-- Reading ends with a complaint about a line, or the text begins with such a document. -/
theorem malformed_or_written (text : List Char) :
    (∃ part line cause, FlowField.ofText text = .error (.malformed part line cause)) ∨
      ∃ d : MeshDocument, d.Written (linesOf text) ∧ d.IsUniform := by
  cases hblocks : blocks (LineReader.ofText text) with
  | error e =>
      obtain ⟨part, line, cause, rfl⟩ := blocks_isMalformed _ _ hblocks
      exact .inl ⟨part, line, cause, ofText_of_blocks_eq_error hblocks⟩
  | ok x => exact .inr (written_of_blocks_eq_ok hblocks)

end MeshDocument

end CurrentDrift
