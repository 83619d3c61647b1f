import CurrentDrift.Proofs.Drift.TableLifetime
import CurrentDrift.Proofs.Scalar.Difference

/-! # The ranges that velocity errors are drawn from

A number can be drawn from a range of doubles if its ends are finite and in order and its width is
finite, too. Main statement: whenever a table is drawn with valid parameters, the ends are finite
and in order, but two finite bounds may be too far apart; all widths are finite exactly if nothing
is drawn or neither pair of bounds is. -/

namespace CurrentDrift

variable {α γ : Type}

/-! ## The range between two bounds -/

section Range

variable [Scalar α]

/-- The range between two numbers, whichever of these is the larger one. -/
def Scalar.range (a b : α) : α × α := (least a b, greatest a b)

theorem Scalar.IsOrdered.range_le [Scalar.IsOrdered α] {a : α} (ha : Scalar.isNaN a = false)
    (b : α) : (Scalar.range a b).1 ≤ (Scalar.range a b).2 := by
  unfold Scalar.range Scalar.least Scalar.greatest
  split
  · next hba =>
    rw [if_neg (Scalar.IsOrdered.lt_asymm hba)]
    exact Scalar.IsOrdered.le_of_lt hba
  · split
    · next hab => exact Scalar.IsOrdered.le_of_lt hab
    · exact Scalar.IsOrdered.le_refl ha

end Range

namespace Double

variable {a b : Float}

theorem ends_range (ha : a.isFinite = true) (hb : b.isFinite = true) :
    (Scalar.range a b).1.isFinite = true ∧ (Scalar.range a b).2.isFinite = true ∧
      (Scalar.range a b).1 ≤ (Scalar.range a b).2 := by
  have hle := Scalar.IsOrdered.range_le (isNaN_of_isFinite ha) b
  refine ⟨?_, ?_, hle⟩ <;> unfold Scalar.range Scalar.least Scalar.greatest <;> dsimp only <;>
    split <;> assumption

/-- The width is the distance of the two numbers. -/
theorem abs_exact_range (ha : a.isFinite = true) (hb : b.isFinite = true) :
    |exact (Scalar.range a b).2 - exact (Scalar.range a b).1| = |exact a - exact b| := by
  unfold Scalar.range Scalar.least Scalar.greatest
  dsimp only
  by_cases hba : b < a
  · rw [if_pos hba, if_neg (Scalar.IsOrdered.lt_asymm hba)]
  · rw [if_neg hba]
    split
    · exact abs_sub_comm _ _
    · next hab => rw [exact_eq_of_not_lt ha hb hab hba, sub_self]

theorem isFinite_width_range_iff (ha : a.isFinite = true) (hb : b.isFinite = true) :
    ((Scalar.range a b).2 - (Scalar.range a b).1).isFinite = true ↔
      |exact a - exact b| < limit := by
  obtain ⟨hlow, hhigh, -⟩ := ends_range ha hb
  rw [isFinite_sub_iff hhigh hlow, abs_exact_range ha hb]

end Double

/-! ## Draws from ranges -/

section Draws

variable [Scalar α]

/-- The ranges of the errors along the flow and across it. -/
def SpreadParams.ranges (p : SpreadParams α) : List (α × α) :=
  [Scalar.range p.down p.up, Scalar.range p.left p.right]

/-- The errors of a record, in the order in which they are drawn. -/
def SpreadRecord.errors (r : SpreadRecord α) : List α := [r.along, r.across]

namespace Sampler

/-- The ranges of the errors of some records, one record after the other. -/
def rangesOf (p : SpreadParams α) : Nat → List (α × α)
  | 0 => []
  | n + 1 => p.ranges ++ rangesOf p n

/-- The ranges that a sampler draws from at a moment. -/
def drawnRanges (m : Moment α) (r : Renewed α (Sampler α) γ) : List (α × α) :=
  if r.supply.isInForce m && (r.supply.isExpired m.clock.now || !hasTableFor r.table m.sets) then
    rangesOf r.supply.params (SpreadTable.count m.sets)
  else []

/-- The ranges of every record are the same two. -/
theorem forall_mem_rangesOf_iff (p : SpreadParams α) (n : Nat) {P : α × α → Prop} :
    (∀ range ∈ rangesOf p n, P range) ↔ rangesOf p n = [] ∨ ∀ range ∈ p.ranges, P range := by
  induction n with
  | zero => exact iff_of_true (by simp [rangesOf]) (.inl rfl)
  | succ n ih =>
      have hne : rangesOf p (n + 1) ≠ [] := by simp [rangesOf, SpreadParams.ranges]
      rw [or_iff_right hne, rangesOf, List.forall_mem_append, ih]
      exact and_iff_left_of_imp .inr

theorem forall_mem_drawnRanges_iff (m : Moment α) (r : Renewed α (Sampler α) γ)
    {P : α × α → Prop} :
    (∀ range ∈ drawnRanges m r, P range) ↔
      drawnRanges m r = [] ∨ ∀ range ∈ r.supply.params.ranges, P range := by
  unfold drawnRanges
  split
  · exact forall_mem_rangesOf_iff _ _
  · exact iff_of_true (by simp) (.inl rfl)

end Sampler

variable [RandomSource α γ]

/-- Draws a number from each of some ranges, one after the other. -/
def Random.drawEach : List (α × α) → γ → List α × γ
  | [], g => ([], g)
  | range :: rest, g =>
    let (x, g) := RandomSource.draw range.1 range.2 g
    let (xs, g) := drawEach rest g
    (x :: xs, g)

namespace Sampler

theorem drawEach_rangesOf (p : SpreadParams α) (n : Nat) (g : γ) :
    Random.drawEach (rangesOf p n) g =
      ((drawRecords p n g).1.val.flatMap SpreadRecord.errors, (drawRecords p n g).2) := by
  induction n generalizing g with
  | zero => rfl
  | succ n ih =>
      simp only [rangesOf, SpreadParams.ranges, List.cons_append, List.nil_append, Random.drawEach,
        ih]
      rfl

theorem drawEach_rangesOf_count (p : SpreadParams α) (sets : List Nat) (g : γ) :
    Random.drawEach (rangesOf p (SpreadTable.count sets)) g =
      ((drawTable p sets g).1.records.toList.flatMap SpreadRecord.errors,
        (drawTable p sets g).2) :=
  drawEach_rangesOf p _ g

/-- A renewal draws from its ranges and from nothing else, and the errors of its table are what it
has drawn. -/
structure DrawsFrom (ranges : List (α × α)) (before after : Renewed α (Sampler α) γ) : Prop where
  source : after.source = (Random.drawEach ranges before.source).2
  table : ranges ≠ [] → ∃ t, after.table = some t ∧
    t.records.toList.flatMap SpreadRecord.errors = (Random.drawEach ranges before.source).1

theorem drawsFrom_renew (m : Moment α) (r : Renewed α (Sampler α) γ) :
    DrawsFrom (drawnRanges m r) r (renew m r.supply r.source r.table) := by
  unfold drawnRanges renew
  cases hforce : r.supply.isInForce m with
  | false => exact ⟨rfl, fun hne => absurd rfl hne⟩
  | true =>
      cases hdraw : r.supply.isExpired m.clock.now || !hasTableFor r.table m.sets with
      | false =>
          simp only [hdraw]
          exact ⟨rfl, fun hne => absurd rfl hne⟩
      | true =>
          have hdrawn := drawEach_rangesOf_count r.supply.params m.sets r.source
          simp only [hdraw, Bool.and_self, Bool.not_true, Bool.false_eq_true, if_true, if_false]
          exact ⟨(congrArg Prod.snd hdrawn).symm,
            fun _ => ⟨_, rfl, (congrArg Prod.fst hdrawn).symm⟩⟩

theorem params_afterMoments (s : Sampler α) (g : γ) (moments : List (Moment α)) :
    (s.afterMoments g moments).supply.params = s.params := by
  induction moments with
  | nil => rfl
  | cons m past ih => exact (params_renew m _ _ _).trans ih

end Sampler

end Draws

/-! ## Valid parameters -/

namespace Sampler

/-- At every moment of every sequence of moments, whatever the random source, a sampler with valid
parameters draws from ranges with finite ends in order. They are all of finite width exactly if
nothing is drawn or neither pair of bounds is too far apart. -/
theorem drawnRanges_spec [RandomSource Float γ] {p : SpreadParams Float} {s : Sampler Float}
    (hs : Sampler.ofParams p = .ok s) (g : γ) (past : List (Moment Float)) (m : Moment Float) :
    DrawsFrom (drawnRanges m (s.afterMoments g past)) (s.afterMoments g past)
        (s.afterMoments g (m :: past)) ∧
      (∀ range ∈ drawnRanges m (s.afterMoments g past),
        range.1.isFinite = true ∧ range.2.isFinite = true ∧ range.1 ≤ range.2) ∧
      ((∀ range ∈ drawnRanges m (s.afterMoments g past),
          (range.2 - range.1).isFinite = true) ↔
        drawnRanges m (s.afterMoments g past) = [] ∨
          |Double.exact p.down - Double.exact p.up| < Double.limit ∧
            |Double.exact p.left - Double.exact p.right| < Double.limit) := by
  obtain ⟨hfault, rfl⟩ := ofParams_eq_ok_iff.mp hs
  obtain ⟨-, -, hbounds⟩ := SpreadParams.fault?_eq_none_iff.mp hfault
  simp only [List.forall_mem_cons] at hbounds
  obtain ⟨hup, hdown, hleft, hright, -⟩ := hbounds
  refine ⟨drawsFrom_renew m _, ?_, ?_⟩
  · rw [forall_mem_drawnRanges_iff, params_afterMoments]
    refine .inr ?_
    simp only [SpreadParams.ranges, List.forall_mem_cons]
    exact ⟨Double.ends_range hdown hup, Double.ends_range hleft hright, by simp⟩
  · rw [forall_mem_drawnRanges_iff, params_afterMoments]
    simp only [SpreadParams.ranges, List.forall_mem_cons]
    rw [Double.isFinite_width_range_iff hdown hup, Double.isFinite_width_range_iff hleft hright]
    simp

/-- Bounds that are valid, and so far apart that the first table is drawn from a range without a
finite width. -/
def widest : SpreadParams Float := ⟨172800.0, 0.0, 1.7e308, -1.7e308, -0.1, 0.1⟩

theorem drawnRanges_spec_widest :
    Sampler.ofParams widest = .ok ⟨widest, none⟩ ∧
      ¬ (|Double.exact widest.down - Double.exact widest.up| < Double.limit ∧
        |Double.exact widest.left - Double.exact widest.right| < Double.limit) ∧
      ∃ range ∈ drawnRanges (Moment.uncertain ⟨0.0, 0.0, 60.0⟩ [1])
          (afterMoments ⟨widest, none⟩ (WordScript.ofList []) []),
        range.1.isFinite = true ∧ range.2.isFinite = true ∧
          (range.2 - range.1).isFinite = false := by
  have hs : Sampler.ofParams widest = .ok ⟨widest, none⟩ :=
    ofParams_eq_ok_iff.mpr ⟨by decide +kernel, rfl⟩
  obtain ⟨-, hends, hwidths⟩ := drawnRanges_spec hs (WordScript.ofList []) []
    (Moment.uncertain ⟨0.0, 0.0, 60.0⟩ [1])
  have hforce :
      isInForce ⟨widest, none⟩ (Moment.uncertain ⟨0.0, 0.0, 60.0⟩ [1]) = true := by decide +kernel
  have hmem : Scalar.range widest.down widest.up ∈
      drawnRanges (Moment.uncertain ⟨0.0, 0.0, 60.0⟩ [1])
        (afterMoments ⟨widest, none⟩ (WordScript.ofList []) []) := by
    rw [drawnRanges, afterMoments, hforce]
    exact List.mem_cons_self
  have hwidth : ((Scalar.range widest.down widest.up).2 -
      (Scalar.range widest.down widest.up).1).isFinite = false := by decide +kernel
  obtain ⟨hlow, hhigh, -⟩ := hends _ hmem
  refine ⟨hs, ?_, _, hmem, hlow, hhigh, hwidth⟩
  intro hclose
  exact Bool.false_ne_true (hwidth.symm.trans (hwidths.mpr (.inr hclose) _ hmem))

end Sampler

end CurrentDrift
