import CurrentDrift.Proofs.Mesh.Loading

/-! # The line that is complained about

Main statement: the line whose number a complaint states is the first one that cannot be right. No
text with the same lines up to it is read, whatever follows, while the lines before it are those of
some text that is. -/

namespace CurrentDrift

open Text

/-! ## Reading line by line -/

/-- A place before some lines of a text, of which `n` have been read. -/
def Text.LineReader.Stands (c : LineReader) (n : Nat) (ls : List (List Char)) : Prop :=
  c.line = n ∧ linesOf c.rest = ls

/-- What can be taken in at a place in a text, and the place after it. -/
abbrev Reading (σ : Type) : Type := LineReader → Except MeshError (σ × LineReader)

namespace Reading

variable {σ τ : Type}

/-- After `n` lines, the reading takes in the lines `used`, no more, and comes to `x`, whatever
follows. -/
structure Takes (P : Reading σ) (n : Nat) (used : List (List Char)) (x : σ) : Prop where
  isLine : ∀ l ∈ used, IsLine l
  reads : ∀ c after, c.Stands n (used ++ after) →
    ∃ c', P c = .ok (x, c') ∧ c'.Stands (n + used.length) after

/-- The lines are the beginning of some that the reading takes in. -/
def CanGoOn (P : Reading σ) (n : Nat) (used : List (List Char)) : Prop :=
  ∃ more x, P.Takes n (used ++ more) x

/-- The lines `used` can be gone on with, but not by what follows them. The complaint is about the
first line that follows, and whatever else follows does not matter. Where nothing follows the
complaint is just that. -/
structure Stops (P : Reading σ) (n : Nat) (used after : List (List Char)) (b : Block)
    (cause : Malformation) : Prop where
  canGoOn : P.CanGoOn n used
  fails : ∀ c after', c.Stands n (used ++ after') → after'.head? = after.head? →
    P c = .error (b.malformed (n + used.length + 1) cause)
  endsEarly : after = [] → cause = .endsEarly

/-- The reading takes in the first of any lines, or stops there in a block that the lines break off
in, in the sense of `breaksOff`. -/
def IsLinewise (P : Reading σ) (breaksOff : Block → List (List Char) → Prop) : Prop :=
  ∀ n ls, (∀ l ∈ ls, IsLine l) →
    (∃ used after x, ls = used ++ after ∧ P.Takes n used x) ∨
      ∃ used after b cause, ls = used ++ after ∧ P.Stops n used after b cause ∧ breaksOff b used

/-- One reading after the other. -/
def andThen (P : Reading σ) (Q : σ → Reading τ) : Reading τ := fun c => do
  let (x, c') ← P c
  Q x c'

variable {P : Reading σ} {Q : σ → Reading τ} {n : Nat} {used : List (List Char)}

theorem stands_unlines (n : Nat) {ls : List (List Char)} (h : ∀ l ∈ ls, IsLine l) :
    LineReader.Stands ⟨unlines ls, n⟩ n ls :=
  ⟨rfl, linesOf_unlines h⟩

theorem Takes.andThen {x : σ} {y : τ} {used' : List (List Char)} (hP : P.Takes n used x)
    (hQ : (Q x).Takes (n + used.length) used' y) : (P.andThen Q).Takes n (used ++ used') y where
  isLine := List.forall_mem_append.mpr ⟨hP.isLine, hQ.isLine⟩
  reads := by
    intro c after hc
    rw [List.append_assoc] at hc
    obtain ⟨c1, hc1, hstands⟩ := hP.reads c _ hc
    obtain ⟨c2, hc2, hstands⟩ := hQ.reads c1 _ hstands
    refine ⟨c2, bind_eq_ok_iff.mpr ⟨_, hc1, hc2⟩, ?_⟩
    rwa [List.length_append, ← Nat.add_assoc]

theorem CanGoOn.isLine (h : P.CanGoOn n used) : ∀ l ∈ used, IsLine l := by
  obtain ⟨more, x, htakes⟩ := h
  exact (List.forall_mem_append.mp htakes.isLine).1

namespace IsLinewise

variable {breaksOff breaksOff' : Block → List (List Char) → Prop}

/-- Before any line is read, all is still possible. -/
theorem canGoOn_nil (h : P.IsLinewise breaksOff) (n : Nat) : P.CanGoOn n [] := by
  rcases h n [] (by simp) with
    ⟨used, after, x, heq, htakes⟩ | ⟨used, after, b, cause, heq, hstops, -⟩
  · obtain ⟨rfl, rfl⟩ := List.append_eq_nil_iff.mp heq.symm
    exact ⟨[], x, htakes⟩
  · obtain ⟨rfl, rfl⟩ := List.append_eq_nil_iff.mp heq.symm
    exact hstops.canGoOn

theorem imp (h : P.IsLinewise breaksOff)
    (himp : ∀ n used after b cause, (∀ l ∈ used ++ after, IsLine l) →
      P.Stops n used after b cause → breaksOff b used → breaksOff' b used) :
    P.IsLinewise breaksOff' := by
  intro n ls hls
  rcases h n ls hls with htakes | ⟨used, after, b, cause, rfl, hstops, hbreaks⟩
  · exact .inl htakes
  · exact .inr ⟨used, after, b, cause, rfl, hstops, himp n used after b cause hls hstops hbreaks⟩

/-- Two readings one after the other stop where the first one does, or else where the second one
does. -/
theorem andThen {breaksOff₁ breaksOff₂ : Block → List (List Char) → Prop}
    (hP : P.IsLinewise breaksOff₁) (hQ : ∀ x, (Q x).IsLinewise breaksOff₂)
    (hfirst : ∀ b used, breaksOff₁ b used → breaksOff b used)
    (hsecond : ∀ b n used used' x, P.Takes n used x → breaksOff₂ b used' →
      breaksOff b (used ++ used')) :
    (P.andThen Q).IsLinewise breaksOff := by
  intro n ls hls
  rcases hP n ls hls with ⟨used, after, x, rfl, hx⟩ | ⟨used, after, b, cause, rfl, hstops, hbreaks⟩
  · rcases hQ x (n + used.length) after (List.forall_mem_append.mp hls).2 with
      ⟨used', after, y, rfl, hy⟩ | ⟨used', after, b, cause, rfl, hstops, hbreaks⟩
    · exact .inl ⟨used ++ used', after, y, (List.append_assoc ..).symm, hx.andThen hy⟩
    · refine .inr ⟨used ++ used', after, b, cause, (List.append_assoc ..).symm, ⟨?_, ?_, ?_⟩,
        hsecond b n used used' x hx hbreaks⟩
      · obtain ⟨more, y, hy⟩ := hstops.canGoOn
        refine ⟨more, y, ?_⟩
        rw [List.append_assoc]
        exact hx.andThen hy
      · intro c after' hc hhead
        rw [List.append_assoc] at hc
        obtain ⟨c', hc', hstands⟩ := hx.reads c _ hc
        have hfails := hstops.fails c' after' hstands hhead
        rw [Nat.add_assoc n, ← List.length_append] at hfails
        exact bind_eq_error_iff.mpr (.inr ⟨_, hc', hfails⟩)
      · exact hstops.endsEarly
  · refine .inr ⟨used, after, b, cause, rfl, ⟨?_, ?_, hstops.endsEarly⟩, hfirst b used hbreaks⟩
    · obtain ⟨more, x, hx⟩ := hstops.canGoOn
      obtain ⟨more', y, hy⟩ := (hQ x).canGoOn_nil (n + (used ++ more).length)
      refine ⟨more ++ more', y, ?_⟩
      rw [← List.append_assoc]
      exact hx.andThen hy
    · intro c after' hc hhead
      exact bind_eq_error_iff.mpr (.inl (hstops.fails c after' hc hhead))

end IsLinewise

end Reading

/-! ## Reading a block -/

namespace Block

variable {σ ρ : Type}

/-- Takes in the next line, which the block needs. -/
def onLine (b : Block) (f : Line → Except MeshError σ) : Reading σ := fun c => do
  let (line, rest) ← b.line c
  .ok (← f line, rest)

theorem takes_onLine (b : Block) {f : Line → Except MeshError σ} {n : Nat} {l : List Char} {x : σ}
    (hl : IsLine l) (h : f ⟨n + 1, l⟩ = .ok x) : (b.onLine f).Takes n [l] x where
  isLine := by simpa using hl
  reads := by
    rintro c after ⟨rfl, hlines⟩
    obtain ⟨c', hline, hnumber, hrest⟩ := b.line_of_lines_cons hlines
    refine ⟨c', bind_eq_ok_iff.mpr ⟨_, hline, ?_⟩, hnumber, hrest⟩
    exact bind_eq_ok_iff.mpr ⟨x, h, rfl⟩

theorem isLinewise_onLine (b : Block) {f : Line → Except MeshError σ}
    (hf : ∀ line, FailsOnlyWith (b.Blames line.number) (f line))
    (hok : ∀ number, ∃ l x, IsLine l ∧ f ⟨number, l⟩ = .ok x) :
    (b.onLine f).IsLinewise fun b' _ => b' = b := by
  intro n ls hls
  have hgo : (b.onLine f).CanGoOn n [] := by
    obtain ⟨l, x, hl, hx⟩ := hok (n + 1)
    exact ⟨[l], x, b.takes_onLine hl hx⟩
  cases ls with
  | nil =>
      refine .inr ⟨[], [], b, .endsEarly, rfl, ⟨hgo, ?_, fun _ => rfl⟩, rfl⟩
      rintro c after' ⟨rfl, hlines⟩ hhead
      obtain rfl := List.head?_eq_none_iff.mp hhead
      refine bind_eq_error_iff.mpr (.inl ?_)
      rw [line, LineReader.next?_of_linesOf_nil hlines]
      rfl
  | cons l ls =>
      cases hx : f ⟨n + 1, l⟩ with
      | ok x =>
          exact .inl ⟨[l], ls, x, rfl, b.takes_onLine (hls l List.mem_cons_self) hx⟩
      | error e =>
          obtain ⟨cause, rfl⟩ := hf _ _ hx
          refine .inr ⟨[], l :: ls, b, cause, rfl, ⟨hgo, ?_, by simp⟩, rfl⟩
          rintro c after' ⟨rfl, hlines⟩ hhead
          obtain ⟨ls', rfl⟩ := List.head?_eq_some_iff.mp hhead
          obtain ⟨c', hline, -, -⟩ := b.line_of_lines_cons hlines
          refine bind_eq_error_iff.mpr (.inr ⟨_, hline, ?_⟩)
          exact bind_eq_error_iff.mpr (.inl hx)

/-- The count of the block on a line, or a complaint about the line. -/
def countOn (b : Block) (line : Line) : Except MeshError Nat :=
  match b.header? line.chars with
  | some n => .ok n
  | none => .error (b.malformed line.number (.noHeader b (String.ofList (trim line.chars))))

theorem count_eq (b : Block) : b.count = b.onLine b.countOn := by
  funext c
  unfold count onLine countOn
  congr 1
  funext x
  dsimp only
  cases b.header? x.1.chars <;> rfl

/-- The shortest header. -/
def emptyHeader (b : Block) : List Char := b.title.toList ++ [' ', '0']

theorem header?_emptyHeader (b : Block) : b.header? b.emptyHeader = some 0 := by
  cases b <;> decide +kernel

theorem isLine_emptyHeader (b : Block) : IsLine b.emptyHeader := by
  apply isLine_of_all
  cases b <;> decide +kernel

theorem isLinewise_count (b : Block) : Reading.IsLinewise b.count fun b' _ => b' = b := by
  rw [count_eq]
  refine b.isLinewise_onLine (fun line => ?_) fun number => ?_
  · unfold countOn
    split
    · exact .ok _
    · exact .error (b.blames_malformed _ _)
  · refine ⟨b.emptyHeader, 0, b.isLine_emptyHeader, ?_⟩
    rw [countOn, header?_emptyHeader]

variable {b : Block} {add : σ → Line → Except MeshError σ} {written : List Char → ρ → Prop}
  {push : σ → ρ → Option σ}

theorem lines_succ (b : Block) (add : σ → Line → Except MeshError σ) (n : Nat) (s : σ) :
    b.lines add (n + 1) s = (b.onLine (add s)).andThen (b.lines add n) := by
  funext c
  simp only [lines, onLine, Reading.andThen, bind, Except.bind]
  cases b.line c with
  | error e => rfl
  | ok x =>
      dsimp only
      cases add s x.1 <;> rfl

/-- Whatever has been read, a line can be found that is taken in next. -/
def AlwaysTakes (add : σ → Line → Except MeshError σ) : Prop :=
  ∀ s number, ∃ l s', IsLine l ∧ add s ⟨number, l⟩ = .ok s'

theorem isLinewise_lines (hadd : ∀ s line, FailsOnlyWith (b.Blames line.number) (add s line))
    (halways : AlwaysTakes add) (n : Nat) (s : σ) :
    Reading.IsLinewise (b.lines add n s) fun b' _ => b' = b := by
  induction n generalizing s with
  | zero =>
      intro n ls _
      refine .inl ⟨[], ls, s, rfl, by simp, fun c after hc => ⟨c, rfl, hc⟩⟩
  | succ n ih =>
      rw [lines_succ]
      exact (b.isLinewise_onLine (hadd s) (halways s)).andThen ih (fun _ _ h => h)
        fun _ _ _ _ _ _ h => h

theorem Begins.append {ls after : List (List Char)} {rs : List ρ} (h : b.Begins written ls rs after)
    (more : List (List Char)) : b.Begins written (ls ++ more) rs (after ++ more) := by
  obtain ⟨header, records, rfl, hn, hall⟩ := h
  exact ⟨header, records, by simp, hn, hall⟩

section

variable (init : Nat → σ) {s : σ} (hinit : ∀ k, init k = s) (hadds : Adds add written push)

include hinit hadds

/-- What is taken in is a block. -/
theorem begins_of_takes {n : Nat} {used : List (List Char)} {x : σ}
    (h : Reading.Takes (b.read add init) n used x) (after : List (List Char)) :
    ∃ rs, b.Begins written (used ++ after) rs after ∧ rs.foldlM push s = some x := by
  have hstands := Reading.stands_unlines n h.isLine
  obtain ⟨c', hread, -, hrest⟩ := h.reads _ [] (by rwa [List.append_nil])
  obtain ⟨rs, hbegins, hfold⟩ := begins_of_read init hinit hadds hread
  rw [hstands.2, hrest] at hbegins
  exact ⟨rs, hbegins.append after, hfold⟩

/-- The reading of a block stops at lines that break off in it. -/
theorem isLinewise_read (hunique : Relator.RightUnique written)
    (hblames : ∀ s line, FailsOnlyWith (b.Blames line.number) (add s line))
    (halways : AlwaysTakes add) :
    Reading.IsLinewise (b.read add init) fun b' used =>
      b' = b ∧ ¬ ∃ rs after, b.Begins written used rs after := by
  have hread : b.read add init = Reading.andThen b.count fun n => b.lines add n s := by
    funext c
    unfold read Reading.andThen
    simp only [hinit]
  have hlinewise : Reading.IsLinewise (b.read add init) fun b' _ => b' = b := by
    rw [hread]
    exact b.isLinewise_count.andThen (fun n => isLinewise_lines hblames halways n s)
      (fun _ _ h => h) fun _ _ _ _ _ _ h => h
  refine hlinewise.imp ?_
  rintro n used after _ cause hls hstops rfl
  refine ⟨rfl, ?_⟩
  rintro ⟨rs, rest, hbegins⟩
  -- The lines can be gone on with, so their records fit together; but then they are a whole block.
  obtain ⟨more, x, htakes⟩ := hstops.canGoOn
  obtain ⟨rs', hbegins', hfold⟩ := begins_of_takes init hinit hadds htakes []
  rw [List.append_nil] at hbegins'
  obtain ⟨rfl, -⟩ := (hbegins.append more).unique hunique hbegins'
  have hstands := Reading.stands_unlines n hls
  obtain ⟨c', hc', -⟩ := read_of_begins init hinit hadds (c := ⟨unlines (used ++ after), n⟩)
    (by rw [hstands.2]; exact hbegins.append after) hfold
  rw [hstops.fails _ after hstands rfl] at hc'
  contradiction

end

end Block

/-! ## The three blocks -/

/-- A line of zeros, which stand for numbers of any kind. -/
def zeros (n : Nat) : List Char := (List.replicate n [' ', '0']).flatten

theorem isLine_zeros (n : Nat) : IsLine (zeros n) := by
  intro c hc
  obtain ⟨word, hword, hc⟩ := List.mem_flatten.mp hc
  obtain rfl := List.eq_of_mem_replicate hword
  exact isLine_of_all rfl c hc

theorem VertexBlock.alwaysTakes : Block.AlwaysTakes addLine := by
  intro b number
  have hwritten : VertexRecord.Written (zeros 2) ⟨Decimal.nearest 0 0, Decimal.nearest 0 0, none⟩ :=
    .flat (a := ['0']) (b := ['0']) (by decide +kernel) rfl rfl
  exact ⟨zeros 2, _, isLine_zeros 2, (adds b ⟨number, zeros 2⟩ _).mpr ⟨_, hwritten, rfl⟩⟩

/-- After lines with a velocity comes another one with a velocity, otherwise one without. -/
theorem TriangleBlock.alwaysTakes : Block.AlwaysTakes addLine := by
  intro b number
  have htriangle : Triangle.Written ['0'] ['0'] ['0'] ['0'] ['0'] ['0']
      ⟨#v[0, 0, 0], #v[0, 0, 0]⟩ := by
    constructor <;> decide +kernel
  by_cases hstill : b.moving.all (· == false) = true
  · have hwritten : TriangleRecord.Written (zeros 6) ⟨⟨#v[0, 0, 0], #v[0, 0, 0]⟩, none⟩ :=
      .still (by decide +kernel) htriangle
    exact ⟨zeros 6, _, isLine_zeros 6,
      (adds b ⟨number, zeros 6⟩ _).mpr ⟨_, hwritten, if_pos hstill⟩⟩
  · have hmoving : b.moving.all (· == true) = true := by
      cases hb : b.moving with
      | none => rfl
      | some moving => cases moving <;> simp_all
    have hzero : Decimal.real? ['0'] = some (Decimal.nearest 0 0) := rfl
    have hwritten : TriangleRecord.Written (zeros 8)
        ⟨⟨#v[0, 0, 0], #v[0, 0, 0]⟩, some ⟨Decimal.nearest 0 0, Decimal.nearest 0 0⟩⟩ :=
      .moving (by decide +kernel) htriangle hzero hzero
    exact ⟨zeros 8, _, isLine_zeros 8,
      (adds b ⟨number, zeros 8⟩ _).mpr ⟨_, hwritten, if_pos hmoving⟩⟩

theorem LocationNode.alwaysTakes : Block.AlwaysTakes addLine := by
  intro nodes number
  have hwritten : LocationNode.Written (zeros 3) ⟨0, 0, 0⟩ := by
    refine .node (s := ['0']) (l := ['0']) (r := ['0']) ?_ ?_ ?_ ?_ <;> decide +kernel
  exact ⟨zeros 3, _, isLine_zeros 3, (adds nodes ⟨number, zeros 3⟩ _).mpr ⟨_, hwritten, rfl⟩⟩

/-- The block that lines break off in: those before it are complete, and it is not. -/
inductive Block.BreaksOff : Block → List (List Char) → Prop where
  | vertices {ls} : (¬ ∃ vs after, Block.vertices.Begins VertexRecord.Written ls vs after) →
      BreaksOff .vertices ls
  | triangles {ls vs after} : Block.vertices.Begins VertexRecord.Written ls vs after →
      (¬ ∃ ts after', Block.triangles.Begins TriangleRecord.Written after ts after') →
      BreaksOff .triangles ls
  | nodes {ls vs after ts after'} : Block.vertices.Begins VertexRecord.Written ls vs after →
      Block.triangles.Begins TriangleRecord.Written after ts after' →
      (¬ ∃ ns rest, Block.nodes.Begins LocationNode.Written after' ns rest) →
      BreaksOff .nodes ls

namespace MeshDocument

theorem isLinewise_blocks : Reading.IsLinewise blocks Block.BreaksOff := by
  have hvertices := Block.isLinewise_read VertexBlock.empty (s := VertexBlock.empty 0)
    (fun _ => rfl) VertexBlock.adds VertexRecord.rightUnique_written VertexBlock.addLine_blames
    VertexBlock.alwaysTakes
  have htriangles := Block.isLinewise_read TriangleBlock.empty (s := TriangleBlock.empty 0)
    (fun _ => rfl) TriangleBlock.adds TriangleRecord.rightUnique_written
    TriangleBlock.addLine_blames TriangleBlock.alwaysTakes
  have hnodes := Block.isLinewise_read Array.emptyWithCapacity (s := #[])
    (fun _ => rfl) LocationNode.adds LocationNode.rightUnique_written
    LocationNode.addLine_blames LocationNode.alwaysTakes
  have hafter : Reading.IsLinewise
      (Reading.andThen TriangleBlock.read fun _ => LocationNode.read) fun b used =>
        ∀ ls vs, Block.vertices.Begins VertexRecord.Written ls vs used → b.BreaksOff ls := by
    refine htriangles.andThen (fun _ => hnodes) ?_ ?_
    · rintro _ used ⟨rfl, h⟩ ls vs hvs
      exact .triangles hvs h
    · rintro _ n used used' x htakes ⟨rfl, h⟩ ls vs hvs
      obtain ⟨ts, hts, -⟩ := Block.begins_of_takes TriangleBlock.empty
        (s := TriangleBlock.empty 0) (fun _ => rfl) TriangleBlock.adds htakes used'
      exact .nodes hvs hts h
  refine hvertices.andThen (fun _ => hafter) ?_ ?_
  · rintro _ used ⟨rfl, h⟩
    exact .vertices h
  · rintro b n used used' x htakes hbreaks
    obtain ⟨vs, hvs, -⟩ := Block.begins_of_takes VertexBlock.empty
      (s := VertexBlock.empty 0) (fun _ => rfl) VertexBlock.adds htakes used'
    exact hbreaks _ _ hvs

/-- The text is complained about exactly where the reading of its blocks fails. -/
theorem ofText_eq_malformed_iff {text : List Char} {part : Section} {line : Nat}
    {cause : Malformation} :
    FlowField.ofText text = .error (.malformed part line cause) ↔
      blocks (LineReader.ofText text) = .error (.malformed part line cause) := by
  refine ⟨fun h => ?_, ofText_of_blocks_eq_error⟩
  cases hblocks : blocks (LineReader.ofText text) with
  | error e =>
      obtain rfl := Except.error.inj ((ofText_of_blocks_eq_error hblocks).symm.trans h)
      rfl
  | ok x =>
      obtain ⟨d, hd, hu⟩ := written_of_blocks_eq_ok hblocks
      rw [ofText_of_written hd hu] at h
      obtain ⟨cause', heq, -⟩ := not_isMismatch_of_field? hu h
      contradiction

end MeshDocument

namespace FlowField

/-- A complaint about a text is about the first line that cannot be right: every text with the same
lines up to this one gets the same complaint, unless there is no such line and the complaint is
that the text ends. The lines before it break off in the block that the complaint names, and some
text that begins with them is not complained about. -/
theorem ofBody_malformed_spec {text : List Char} {part : Section} {line : Nat}
    {cause : Malformation}
    (h : ofBody (text.flatMap String.utf8EncodeChar) = .error (.malformed part line cause)) :
    1 ≤ line ∧
    (∃ b : Block, part = .block b ∧ b.BreaksOff ((linesOf text).take (line - 1))) ∧
    (line ≤ (linesOf text).length ∧
        (∀ text' : List Char, (linesOf text').take line = (linesOf text).take line →
          ofBody (text'.flatMap String.utf8EncodeChar) = .error (.malformed part line cause)) ∨
      line = (linesOf text).length + 1 ∧ cause = .endsEarly) ∧
    ∃ text' : List Char, (linesOf text).take (line - 1) <+: linesOf text' ∧
      ∀ part' line' cause',
        ofBody (text'.flatMap String.utf8EncodeChar) ≠ .error (.malformed part' line' cause') := by
  rw [ofBody_of_decode rfl, MeshDocument.ofText_eq_malformed_iff] at h
  have hlines : ∀ l ∈ linesOf text, IsLine l := fun l => isLine_of_mem_linesOf
  rcases MeshDocument.isLinewise_blocks 0 (linesOf text) hlines with
    ⟨used, after, x, heq, htakes⟩ | ⟨used, after, b, cause', heq, hstops, hbreaks⟩
  · obtain ⟨c', hc', -⟩ := htakes.reads (LineReader.ofText text) after ⟨rfl, heq⟩
    rw [h] at hc'
    contradiction
  · have hfails := hstops.fails (LineReader.ofText text) after ⟨rfl, heq⟩ rfl
    rw [h, Nat.zero_add] at hfails
    obtain ⟨rfl, rfl, rfl⟩ := MeshError.malformed.inj (Except.error.inj hfails)
    have hbefore : (linesOf text).take (used.length + 1 - 1) = used := by
      rw [heq, Nat.add_sub_cancel, List.take_left]
    rw [hbefore]
    refine ⟨Nat.le_add_left 1 _, ⟨b, rfl, hbreaks⟩, ?_, ?_⟩
    · cases after with
      | nil => exact .inr ⟨by rw [heq, List.append_nil], hstops.endsEarly rfl⟩
      | cons l after =>
          refine .inl ⟨by simp [heq], fun text' htext' => ?_⟩
          have hsame : linesOf text' = used ++ l :: (linesOf text').drop (used.length + 1) := by
            conv_lhs => rw [← List.take_append_drop (used.length + 1) (linesOf text'), htext', heq]
            simp [List.take_append]
          rw [ofBody_of_decode rfl, MeshDocument.ofText_eq_malformed_iff]
          have := hstops.fails (LineReader.ofText text') _ ⟨rfl, hsame⟩ rfl
          rwa [Nat.zero_add] at this
    · obtain ⟨more, x, htakes⟩ := hstops.canGoOn
      have htext' := linesOf_unlines htakes.isLine
      refine ⟨unlines (used ++ more), by rw [htext']; exact List.prefix_append _ _, ?_⟩
      intro part' line' cause'' hmalformed
      rw [ofBody_of_decode rfl, MeshDocument.ofText_eq_malformed_iff] at hmalformed
      obtain ⟨c', hc', -⟩ := htakes.reads (LineReader.ofText (unlines (used ++ more))) []
        ⟨rfl, by rw [List.append_nil]; exact htext'⟩
      rw [hmalformed] at hc'
      contradiction

/-- The second of these triangles has a velocity and the first one has none. -/
def mixedText : List Char :=
  "Vertices 1\n0 0\nTopology 2\n0 0 0 -1 -1 -1\n0 0 0 -1 -1 -1 1 0\n".toList

/-- No text goes on from a triangle without a velocity to one with a velocity. -/
theorem ofBody_mixed :
    ofBody (mixedText.flatMap String.utf8EncodeChar) =
        .error (.malformed (.block .triangles) 5 .mixedVelocities) ∧
      ∀ text' : List Char, (linesOf text').take 5 = (linesOf mixedText).take 5 →
        ofBody (text'.flatMap String.utf8EncodeChar) =
          .error (.malformed (.block .triangles) 5 .mixedVelocities) := by
  have hmixed : ofBody (mixedText.flatMap String.utf8EncodeChar) =
      .error (.malformed (.block .triangles) 5 .mixedVelocities) :=
    (ofBody_of_decode rfl).trans (by rfl)
  obtain ⟨-, -, hsame, -⟩ := ofBody_malformed_spec hmixed
  rcases hsame with ⟨-, hsame⟩ | ⟨-, hcause⟩
  · exact ⟨hmixed, hsame⟩
  · contradiction

end FlowField

end CurrentDrift
