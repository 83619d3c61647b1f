import CurrentDrift.Drift.Sampler
import CurrentDrift.Proofs.Drift.TableLayout
import CurrentDrift.Proofs.Random.Draws
import CurrentDrift.Proofs.Scalar.Exact

/-! # The lifetime of a table of velocity errors

A sampler keeps a table, the time at which it was drawn, and a random source; clocks may go forward
and back, and particles may come and go. Main statement: after any moments there is a table exactly
if errors are in force, it is one for the particles of the moment and not too old, and it was drawn
anew only if it had to be. -/

namespace CurrentDrift

variable {α γ : Type}

/-! ## Valid parameters -/

section Valid

variable [Scalar α] {p : SpreadParams α}

theorem SpreadParams.fault?_eq_none_iff :
    p.fault? = none ↔
      (Scalar.isNaN p.lifetime = false ∧ ¬ p.lifetime ≤ 0.0) ∧
      (Scalar.isNaN p.delay = false ∧ ¬ p.delay < 0.0) ∧
      ∀ bound ∈ [p.up, p.down, p.left, p.right], Scalar.isFinite bound = true := by
  simp [fault?, ite_eq_iff, not_or, and_assoc]

theorem Sampler.ofParams_eq_ok_iff {s : Sampler α} :
    ofParams p = .ok s ↔ p.fault? = none ∧ s = ⟨p, none⟩ := by
  unfold ofParams
  cases p.fault? <;> simp [eq_comm]

end Valid

namespace Sampler

variable [Scalar α]

/-- The errors of a record stay within the bounds of the parameters. -/
def IsWithin (p : SpreadParams α) (r : SpreadRecord α) : Prop :=
  Scalar.Between p.down p.up r.along ∧ Scalar.Between p.left p.right r.across

/-! ## When a table is drawn -/

theorem isInForce_iff [Scalar.IsExact α] (s : Sampler α) (m : Moment α) :
    s.isInForce m = true ↔
      m.isUncertain = true ∧ m.sets ≠ [] ∧ s.params.delay ≤ m.clock.elapsed := by
  simp [isInForce, Scalar.IsExact.not_lt, and_assoc]

/-- The table has to be drawn anew: there is none, or it is one for other particles, or it is from a
later time or too old. -/
def MustDraw (p : SpreadParams α) (m : Moment α) (r : Renewed α (Sampler α) γ) : Prop :=
  r.table = none ∨ (∃ t, r.table = some t ∧ t.sets ≠ m.sets) ∨
    ∃ time, r.supply.drawnAt = some time ∧
      (m.clock.now < time ∨ p.lifetime ≤ m.clock.now - time)

/-- What a sampler keeps: a table together with the time of drawing it, its errors within bounds. -/
structure IsKept (p : SpreadParams α) (r : Renewed α (Sampler α) γ) : Prop where
  params : r.supply.params = p
  drawnAt : r.supply.drawnAt.isSome = r.table.isSome
  within : ∀ t, r.table = some t → ∀ e ∈ t.records, IsWithin p e

theorem IsKept.mustDraw_iff {p : SpreadParams α} {r : Renewed α (Sampler α) γ} (h : IsKept p r)
    (m : Moment α) :
    MustDraw p m r ↔
      (r.supply.isExpired m.clock.now || !hasTableFor r.table m.sets) = true := by
  have hdrawn := h.drawnAt
  have hparams := h.params
  cases htable : r.table with
  | none => simp [MustDraw, htable, hasTableFor]
  | some t =>
      rw [htable] at hdrawn
      obtain ⟨time, htime⟩ := Option.isSome_iff_exists.mp hdrawn
      simp [MustDraw, htable, htime, hasTableFor, isExpired, SpreadTable.fits, hparams, or_comm]

/-- There is room for the records of all particles, if errors are in force at the moment. -/
def HasRoom (p : SpreadParams α) (m : Moment α) : Prop :=
  m.isUncertain = true → p.delay ≤ m.clock.elapsed → m.sets.sum ≤ SpreadTable.capacity

/-- Where errors are in force and there is room, the number of particles does not wrap around. -/
theorem HasRoom.count_le [Scalar.IsExact α] {p : SpreadParams α} {m : Moment α}
    {r : Renewed α (Sampler α) γ} (hroom : HasRoom p m) (hr : IsKept p r)
    (hforce : r.supply.isInForce m = true) :
    SpreadTable.count m.sets = m.sets.sum ∧ m.sets.sum ≤ SpreadTable.capacity := by
  obtain ⟨huncertain, -, hdelay⟩ := (r.supply.isInForce_iff m).mp hforce
  have hle := hroom huncertain (hr.params ▸ hdelay)
  have hcapacity : SpreadTable.capacity < 2 ^ 64 := by decide
  exact ⟨SpreadTable.count_eq_sum (hle.trans_lt hcapacity), hle⟩

/-! ## What is drawn -/

variable [RandomSource α γ]

/-- A source after so many records. -/
def skipRecords (p : SpreadParams α) : Nat → γ → γ
  | 0, g => g
  | n + 1, g => skipRecords p n (drawRecord p g).2

/-- The record of particle number `k`, which is drawn after those of the particles before it. -/
def recordAt (p : SpreadParams α) (g : γ) (k : Nat) : SpreadRecord α :=
  (drawRecord p (skipRecords p k g)).1

theorem drawRecords_eq (p : SpreadParams α) (n : Nat) (g : γ) :
    (drawRecords p n g).1.val = (List.range n).map (recordAt p g) ∧
      (drawRecords p n g).2 = skipRecords p n g := by
  induction n generalizing g with
  | zero => exact ⟨rfl, rfl⟩
  | succ n ih =>
      obtain ⟨hrecords, hsource⟩ := ih (drawRecord p g).2
      constructor
      · rw [List.range_succ_eq_map, List.map_cons, List.map_map]
        exact congrArg (recordAt p g 0 :: ·) hrecords
      · exact hsource

theorem records_drawTable (p : SpreadParams α) (sets : List Nat) (g : γ) :
    (drawTable p sets g).1.records.toList =
      (List.range (SpreadTable.count sets)).map (recordAt p g) :=
  (drawRecords_eq p _ g).1

theorem drawTable_snd (p : SpreadParams α) (sets : List Nat) (g : γ) :
    (drawTable p sets g).2 = skipRecords p (SpreadTable.count sets) g :=
  (drawRecords_eq p _ g).2

/-- In a source of words a record takes two of them. -/
theorem skipRecords_eq_skip {γ : Type} [WordSource γ] (p : SpreadParams α) (n : Nat) (g : γ) :
    skipRecords p n g = WordSource.skip (2 * n) g := by
  induction n generalizing g with
  | zero => rfl
  | succ n ih => exact ih _

theorem params_renew (m : Moment α) (s : Sampler α) (g : γ) (table : Option (SpreadTable α)) :
    (renew m s g table).supply.params = s.params := by
  unfold renew
  split
  · rfl
  · dsimp only
    split <;> rfl

section Bounds

variable [Scalar.IsExact α] (hdraw : Random.StaysBetween α γ)

include hdraw

theorem between_draw (a b : α) (g : γ) :
    Scalar.Between a b (RandomSource.draw (Scalar.least a b) (Scalar.greatest a b) g).1 := by
  obtain ⟨hleast, hgreatest⟩ := hdraw _ _ g (Scalar.IsExact.least_le_greatest a b)
  exact Scalar.IsExact.between_of_least_greatest hleast hgreatest

theorem isWithin_recordAt (p : SpreadParams α) (g : γ) (k : Nat) :
    IsWithin p (recordAt p g k) :=
  ⟨between_draw hdraw p.down p.up _, between_draw hdraw p.left p.right _⟩

theorem isWithin_drawTable (p : SpreadParams α) (sets : List Nat) (g : γ) :
    ∀ r ∈ (drawTable p sets g).1.records, IsWithin p r := by
  intro r hr
  rw [← Array.mem_toList_iff, records_drawTable, List.mem_map] at hr
  obtain ⟨k, -, rfl⟩ := hr
  exact isWithin_recordAt hdraw p g k

end Bounds

/-! ## One moment -/

/-- What a sampler does at a moment, from what there is before it to what there is after it. -/
structure IsRenewal (p : SpreadParams α) (m : Moment α) (before after : Renewed α (Sampler α) γ) :
    Prop where
  outcome : after.outcome = .ok ()
  table : after.table.isSome = true ↔
    m.isUncertain = true ∧ m.sets ≠ [] ∧ p.delay ≤ m.clock.elapsed
  drawnAt : after.supply.drawnAt.isSome = after.table.isSome
  fits : ∀ t, after.table = some t → t.sets = m.sets ∧ t.records.size = m.sets.sum
  within : ∀ t, after.table = some t → ∀ r ∈ t.records,
    Scalar.Between p.down p.up r.along ∧ Scalar.Between p.left p.right r.across
  age : ∀ time, after.supply.drawnAt = some time →
    0.0 ≤ m.clock.now - time ∧ m.clock.now - time < p.lifetime
  spared : after.table = none → after.source = before.source
  kept : ∀ t, after.table = some t → ¬ MustDraw p m before →
    before.table = some t ∧ after.source = before.source ∧
      after.supply.drawnAt = before.supply.drawnAt
  drawn : ∀ t, after.table = some t → MustDraw p m before →
    t.records.toList = (List.range m.sets.sum).map (recordAt p before.source) ∧
      after.source = skipRecords p m.sets.sum before.source ∧
      after.supply.drawnAt = some m.clock.now

variable [Scalar.IsExact α] {p : SpreadParams α} {m : Moment α} {r : Renewed α (Sampler α) γ}

theorem isRenewal_of_not_isInForce (hr : IsKept p r) (hforce : r.supply.isInForce m = false) :
    IsRenewal p m r (renew m r.supply r.source r.table) := by
  have hrenew : renew m r.supply r.source r.table =
      ⟨.ok (), { r.supply with drawnAt := none }, r.source, none⟩ := by
    rw [renew, hforce]
    rfl
  have htable := r.supply.isInForce_iff m
  rw [hforce, hr.params] at htable
  rw [hrenew]
  exact ⟨rfl, htable, rfl, nofun, nofun, nofun, fun _ => rfl, nofun, nofun⟩

theorem isRenewal_of_not_mustDraw (hr : IsKept p r) (hroom : HasRoom p m)
    (hforce : r.supply.isInForce m = true) (hkeep : ¬ MustDraw p m r) :
    IsRenewal p m r (renew m r.supply r.source r.table) := by
  have hcond : (r.supply.isExpired m.clock.now || !hasTableFor r.table m.sets) = false := by
    rwa [hr.mustDraw_iff, Bool.not_eq_true] at hkeep
  have hrenew : renew m r.supply r.source r.table = ⟨.ok (), r.supply, r.source, r.table⟩ := by
    rw [renew, hforce]
    simp only [hcond]
    rfl
  have htable := r.supply.isInForce_iff m
  rw [hforce, hr.params] at htable
  rw [MustDraw, not_or, not_or] at hkeep
  obtain ⟨hsome, hsets, hage⟩ := hkeep
  have hfits : ∀ t, r.table = some t → t.sets = m.sets := by
    intro t ht
    by_contra hne
    exact hsets ⟨t, ht, hne⟩
  rw [hrenew]
  constructor
  · rfl
  · rw [← htable]
    simpa [Option.isSome_iff_ne_none] using hsome
  · exact hr.drawnAt
  · intro t ht
    rw [t.records_size, hfits t ht]
    exact ⟨rfl, (hroom.count_le hr hforce).1⟩
  · exact hr.within
  · intro time htime
    constructor
    · rw [Scalar.IsExact.sub_nonneg, ← Scalar.IsExact.not_lt]
      exact fun hlt => hage ⟨time, htime, .inl hlt⟩
    · rw [← Scalar.IsExact.not_le]
      exact fun hle => hage ⟨time, htime, .inr hle⟩
  · exact fun _ => rfl
  · exact fun t ht _ => ⟨ht, rfl, rfl⟩
  · intro t ht hmust
    rw [MustDraw] at hmust
    exact absurd hmust (by simp [hsome, hsets, hage])

theorem isRenewal_of_mustDraw (hdraw : Random.StaysBetween α γ) (hp : 0.0 < p.lifetime)
    (hr : IsKept p r) (hroom : HasRoom p m) (hforce : r.supply.isInForce m = true)
    (hmust : MustDraw p m r) : IsRenewal p m r (renew m r.supply r.source r.table) := by
  have hcond := (hr.mustDraw_iff m).mp hmust
  have hcount := (hroom.count_le hr hforce).1
  have hrenew : renew m r.supply r.source r.table =
      ⟨.ok (), { r.supply with drawnAt := some m.clock.now },
        (drawTable p m.sets r.source).2, some (drawTable p m.sets r.source).1⟩ := by
    rw [renew, hforce]
    simp only [hcond, hr.params]
    rfl
  have htable := r.supply.isInForce_iff m
  rw [hforce, hr.params] at htable
  rw [hrenew]
  constructor
  · rfl
  · exact htable
  · rfl
  · rintro t ⟨⟩
    exact ⟨rfl, (SpreadTable.records_size _).trans hcount⟩
  · rintro t ⟨⟩
    exact isWithin_drawTable hdraw p m.sets r.source
  · rintro time ⟨⟩
    rw [Scalar.IsExact.sub_nonneg, Scalar.IsExact.sub_self]
    exact ⟨Scalar.IsExact.le_refl _, hp⟩
  · nofun
  · exact fun t _ hkeep => absurd hmust hkeep
  · rintro t ⟨⟩ -
    rw [← hcount]
    exact ⟨records_drawTable p m.sets r.source, drawTable_snd p m.sets r.source, rfl⟩

theorem isRenewal_renew (hdraw : Random.StaysBetween α γ) (hp : 0.0 < p.lifetime)
    (hr : IsKept p r) (hroom : HasRoom p m) :
    IsRenewal p m r (renew m r.supply r.source r.table) := by
  cases hforce : r.supply.isInForce m with
  | false => exact isRenewal_of_not_isInForce hr hforce
  | true =>
      by_cases hmust : MustDraw p m r
      · exact isRenewal_of_mustDraw hdraw hp hr hroom hforce hmust
      · exact isRenewal_of_not_mustDraw hr hroom hforce hmust

theorem renew?_of_hasRoom (hr : IsKept p r) (hroom : HasRoom p m) :
    renew? m r.supply r.source r.table = some (renew m r.supply r.source r.table) := by
  refine if_neg fun hend => ?_
  rw [Bool.and_eq_true, mustDraw, Bool.and_eq_true, decide_eq_true_eq] at hend
  obtain ⟨⟨hforce, -⟩, hlarge⟩ := hend
  obtain ⟨hcount, hle⟩ := hroom.count_le hr hforce
  rw [hcount] at hlarge
  exact hlarge.not_ge hle

/-! ## Any moments -/

theorem lifetime_pos_of_ofParams {s : Sampler α} (hs : Sampler.ofParams p = .ok s) :
    s = ⟨p, none⟩ ∧ 0.0 < p.lifetime := by
  obtain ⟨hfault, rfl⟩ := ofParams_eq_ok_iff.mp hs
  exact ⟨rfl, Scalar.IsExact.not_le.mp (SpreadParams.fault?_eq_none_iff.mp hfault).1.2⟩

/-- What has come of a sampler and its source after moments, the latest one first; there is no table
at the beginning. -/
def afterMoments (s : Sampler α) (g : γ) : List (Moment α) → Renewed α (Sampler α) γ
  | [] => ⟨.ok (), s, g, none⟩
  | m :: past =>
    let r := s.afterMoments g past
    renew m r.supply r.source r.table

/-- The same, unless the program has ended at one of the moments. -/
def afterMoments? (s : Sampler α) (g : γ) :
    List (Moment α) → Option (Renewed α (Sampler α) γ)
  | [] => some ⟨.ok (), s, g, none⟩
  | m :: past => do
    let r ← s.afterMoments? g past
    renew? m r.supply r.source r.table

theorem isKept_afterMoments (hdraw : Random.StaysBetween α γ) {s : Sampler α}
    (hs : Sampler.ofParams p = .ok s) (g : γ) {moments : List (Moment α)}
    (hroom : ∀ m ∈ moments, HasRoom p m) : IsKept p (s.afterMoments g moments) := by
  obtain ⟨rfl, hp⟩ := lifetime_pos_of_ofParams hs
  induction moments with
  | nil => exact ⟨rfl, rfl, nofun⟩
  | cons m past ih =>
      have hkept := ih fun m' hm' => hroom m' (List.mem_cons_of_mem m hm')
      have hrenewal := isRenewal_renew hdraw hp hkept (hroom m List.mem_cons_self)
      exact ⟨(params_renew m _ _ _).trans hkept.params, hrenewal.drawnAt, hrenewal.within⟩

/-- If there is always room, the program does not end. -/
theorem afterMoments?_of_hasRoom (hdraw : Random.StaysBetween α γ) {s : Sampler α}
    (hs : Sampler.ofParams p = .ok s) (g : γ) {moments : List (Moment α)}
    (hroom : ∀ m ∈ moments, HasRoom p m) :
    s.afterMoments? g moments = some (s.afterMoments g moments) := by
  induction moments with
  | nil => rfl
  | cons m past ih =>
      have hpast : ∀ m' ∈ past, HasRoom p m' := fun m' hm' => hroom m' (List.mem_cons_of_mem m hm')
      rw [afterMoments?, ih hpast]
      exact renew?_of_hasRoom (isKept_afterMoments hdraw hs g hpast) (hroom m List.mem_cons_self)

/-- At every moment of every sequence of moments, whatever the clocks, the particles and the random
source, a sampler with valid parameters does what it ought to, if there is always room for the
records of the particles; in particular the program does not end. -/
theorem isRenewal_afterMoments (hdraw : Random.StaysBetween α γ) {s : Sampler α}
    (hs : Sampler.ofParams p = .ok s) (g : γ) (past : List (Moment α)) (m : Moment α)
    (hroom : ∀ m' ∈ m :: past, HasRoom p m') :
    ∃ before after, s.afterMoments? g past = some before ∧
      s.afterMoments? g (m :: past) = some after ∧ IsRenewal p m before after := by
  have hpast : ∀ m' ∈ past, HasRoom p m' := fun m' hm' => hroom m' (List.mem_cons_of_mem m hm')
  refine ⟨_, _, afterMoments?_of_hasRoom hdraw hs g hpast,
    afterMoments?_of_hasRoom hdraw hs g hroom, ?_⟩
  exact isRenewal_renew hdraw (lifetime_pos_of_ofParams hs).2
    (isKept_afterMoments hdraw hs g hpast) (hroom m List.mem_cons_self)

theorem ofParams_default :
    Sampler.ofParams (SpreadParams.default : SpreadParams ℝ) = .ok Sampler.default := by
  have hvalid : (SpreadParams.default : SpreadParams ℝ).fault? = none := by
    have hlifetime : ¬ (172800.0 : ℝ) ≤ 0.0 := by norm_num
    simp [SpreadParams.fault?, SpreadParams.default, Scalar.isNaN, Scalar.isFinite, hlifetime]
  rw [Sampler.ofParams, hvalid]
  rfl

/-- A table that is drawn at the beginning and is too old two days later. -/
theorem isRenewal_afterMoments_default :
    Random.StaysBetween ℝ WordScript ∧
      Sampler.ofParams (SpreadParams.default : SpreadParams ℝ) = .ok Sampler.default ∧
      ∃ before after,
        (Sampler.default : Sampler ℝ).afterMoments? (WordScript.ofList [])
          [Moment.uncertain ⟨0, 0, 60⟩ [2]] = some before ∧
        (Sampler.default : Sampler ℝ).afterMoments? (WordScript.ofList [])
          [Moment.uncertain ⟨172800, 0, 60⟩ [2], Moment.uncertain ⟨0, 0, 60⟩ [2]] = some after ∧
        IsRenewal SpreadParams.default (Moment.uncertain ⟨172800, 0, 60⟩ [2]) before after := by
  have hdraw := Random.staysBetween_real WordScript
  refine ⟨hdraw, ofParams_default, ?_⟩
  refine isRenewal_afterMoments hdraw ofParams_default _ _ _ fun m hm => ?_
  have hsets : m.sets = [2] := by
    simp only [List.mem_cons, List.not_mem_nil, or_false] at hm
    rcases hm with rfl | rfl <;> rfl
  intro _ _
  rw [hsets]
  decide

/-- For a set of `2 ^ 60` particles there is no room, so that a valid sampler ends the program, and
the number of the particles in two sets can wrap around to one. -/
theorem afterMoments?_of_large :
    Sampler.ofParams (SpreadParams.default : SpreadParams ℝ) = .ok Sampler.default ∧
      (Sampler.default : Sampler ℝ).afterMoments? (WordScript.ofList [])
        [Moment.uncertain ⟨0, 0, 60⟩ [2 ^ 60]] = none ∧
      ∃ r t, (Sampler.default : Sampler ℝ).afterMoments? (WordScript.ofList [])
          [Moment.uncertain ⟨0, 0, 60⟩ [2 ^ 64 - 1, 2]] = some r ∧
        r.table = some t ∧ t.records.size = 1 := by
  have hforce : ∀ sets ≠ [],
      (Sampler.default : Sampler ℝ).isInForce (Moment.uncertain ⟨0, 0, 60⟩ sets) = true := by
    intro sets hsets
    rw [isInForce_iff]
    refine ⟨rfl, hsets, ?_⟩
    change (0.0 : ℝ) ≤ 0 - 0
    norm_num
  have hmust : ∀ sets ≠ [],
      (Sampler.default : Sampler ℝ).mustDraw (Moment.uncertain ⟨0, 0, 60⟩ sets) none = true := by
    intro sets hsets
    rw [mustDraw, hforce sets hsets]
    rfl
  refine ⟨ofParams_default, ?_, ?_⟩
  · exact if_pos (by rw [hmust _ (List.cons_ne_nil _ _)]; decide)
  · have hroom : ¬ ((Sampler.default : Sampler ℝ).mustDraw
        (Moment.uncertain ⟨0, 0, 60⟩ [2 ^ 64 - 1, 2]) none &&
          decide (SpreadTable.capacity < SpreadTable.count [2 ^ 64 - 1, 2])) = true := by
      rw [hmust _ (List.cons_ne_nil _ _)]
      decide
    refine ⟨_, (drawTable SpreadParams.default [2 ^ 64 - 1, 2] (WordScript.ofList [])).1,
      if_neg hroom, ?_, SpreadTable.records_size _⟩
    rw [renew, hforce _ (List.cons_ne_nil _ _)]
    rfl

end Sampler

end CurrentDrift
