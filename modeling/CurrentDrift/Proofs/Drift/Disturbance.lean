import Mathlib.Logic.ExistsUnique
import CurrentDrift.Drift.Eddy
import CurrentDrift.Proofs.Random.Draws

/-! # The draws of disturbances

Varying the velocity of a particle takes draws from a random source. How many it takes depends on
the record of the particle, on the eddies, on the step and, in the first step of a run, on the draws
themselves. Main statement: disturbances that follow each other take the draws of a source one after
the other, each of them as many as its rule says, so that none is shared or left out. -/

namespace CurrentDrift

open CurrentDrift.Random (drawAt pairOf IsFirstInDisk)

variable {α γ : Type}

/-- A velocity that is to be varied for a particle, with all that the result depends on but the
random source. -/
structure Disturbance (α : Type) where
  eddy : Eddy α
  table : Option (SpreadTable α)
  particle : Particle
  velocity : Velocity α
  step : StepData α
  dt : α
  useEddy : Bool

namespace Disturbance

def record? (d : Disturbance α) : Option (SpreadRecord α) :=
  d.table.bind fun t => t.record? d.particle.set d.particle.index

variable [Scalar α]

/-- The speed of the random walk: the stored one in a prepared step. -/
def walkSpeed (d : Disturbance α) : α :=
  if d.step.isPrepared then d.step.walkSpeed else d.eddy.walkSpeed d.dt

/-- The varied velocity under a record and a random pair. -/
def outcome (d : Disturbance α) (record : SpreadRecord α) (r : α × α) : Velocity α :=
  d.eddy.vary record d.velocity d.walkSpeed d.useEddy r

/-- The draws that a disturbance takes from the beginning of a stream, and what comes of them. -/
inductive Takes (d : Disturbance α) (u : Nat → α) :
    Nat → Except (DriftError α) (Velocity α) → Prop where
  | missing (hrecord : d.record? = none) :
      Takes d u 0 (.error (.recordMissing d.particle.set d.particle.index))
  | still {record : SpreadRecord α} (hrecord : d.record? = some record)
      (heddy : d.useEddy = false) : Takes d u 0 (.ok (d.outcome record (0.0, 0.0)))
  | later {record : SpreadRecord α} (hrecord : d.record? = some record) (heddy : d.useEddy = true)
      (hstep : d.step.isFirst = false) : Takes d u 2 (.ok (d.outcome record (u 0, u 1)))
  | first {record : SpreadRecord α} {k : Nat} (hrecord : d.record? = some record)
      (heddy : d.useEddy = true) (hstep : d.step.isFirst = true) (hk : IsFirstInDisk u k) :
      Takes d u (2 * (k + 1)) (.ok (d.outcome record (pairOf u k)))

/-- A disturbance that looks for a point of the unit disk. -/
structure SearchesDisk (d : Disturbance α) : Prop where
  hasRecord : d.record? ≠ none
  useEddy : d.useEddy = true
  isFirst : d.step.isFirst = true

/-- Disturbances that follow each other, each of them at the draw at which the one before has
stopped. -/
inductive TakeInTurn : (Nat → α) → List (Disturbance α) → Nat →
    List (Except (DriftError α) (Velocity α)) → Prop where
  | nil (u : Nat → α) : TakeInTurn u [] 0 []
  | cons {u : Nat → α} {d : Disturbance α} {ds : List (Disturbance α)} {m n : Nat}
      {found : Except (DriftError α) (Velocity α)}
      {others : List (Except (DriftError α) (Velocity α))} (hd : d.Takes u m found)
      (hds : TakeInTurn (fun i => u (m + i)) ds n others) :
      TakeInTurn u (d :: ds) (m + n) (found :: others)

/-! ## The rules say everything -/

variable {d : Disturbance α} {u : Nat → α}

theorem exists_takes (h : d.SearchesDisk → ∃ k, Random.inUnitDisk (pairOf u k) = true) :
    ∃ n found, d.Takes u n found := by
  cases hrecord : d.record? with
  | none => exact ⟨_, _, .missing hrecord⟩
  | some record =>
      cases heddy : d.useEddy with
      | false => exact ⟨_, _, .still hrecord heddy⟩
      | true =>
          cases hstep : d.step.isFirst with
          | false => exact ⟨_, _, .later hrecord heddy hstep⟩
          | true =>
              have hpair := h ⟨by simp [hrecord], heddy, hstep⟩
              obtain ⟨k, hk⟩ := Random.exists_isFirstInDisk hpair
              exact ⟨_, _, .first hrecord heddy hstep hk⟩

/-- No two rules apply to the same disturbance. -/
theorem Takes.unique {m n : Nat} {found other : Except (DriftError α) (Velocity α)}
    (h : d.Takes u m found) (h' : d.Takes u n other) : n = m ∧ other = found := by
  cases h <;> cases h' <;> simp_all
  next hk _ _ _ hl =>
    obtain rfl := hl.unique hk
    exact ⟨rfl, rfl⟩

/-- Draws are taken pair by pair. -/
theorem Takes.exists_eq_two_mul {n : Nat} {found : Except (DriftError α) (Velocity α)}
    (h : d.Takes u n found) : ∃ k, n = 2 * k := by
  cases h with
  | missing => exact ⟨0, rfl⟩
  | still => exact ⟨0, rfl⟩
  | later => exact ⟨1, rfl⟩
  | first => exact ⟨_, rfl⟩

/-- In a stream in which points of the disk never end, any number of disturbances find theirs. -/
theorem exists_takeInTurn (ds : List (Disturbance α))
    (h : ∀ j, ∃ k, j ≤ k ∧ Random.inUnitDisk (pairOf u k) = true) :
    ∃ n founds, TakeInTurn u ds n founds := by
  induction ds generalizing u with
  | nil => exact ⟨0, [], .nil u⟩
  | cons d ds ih =>
      have hpair : d.SearchesDisk → ∃ k, Random.inUnitDisk (pairOf u k) = true := fun _ =>
        (h 0).imp fun _ hk => hk.2
      obtain ⟨m, found, hd⟩ := exists_takes hpair
      obtain ⟨j, rfl⟩ := hd.exists_eq_two_mul
      have hrest : ∀ i, ∃ k, i ≤ k ∧
          Random.inUnitDisk (pairOf (fun n => u (2 * j + n)) k) = true := by
        intro i
        obtain ⟨k, hik, hk⟩ := h (j + i)
        refine ⟨k - j, by omega, ?_⟩
        rw [Random.pairOf_rest, Nat.add_sub_cancel' (by omega)]
        exact hk
      obtain ⟨n, others, hds⟩ := ih hrest
      exact ⟨_, _, .cons hd hds⟩

/-! ## The rules are followed -/

variable [RandomSource α γ]

def perform (d : Disturbance α) (g : γ) : Except (DriftError α) (Velocity α) × γ :=
  d.eddy.disturb d.table d.particle d.velocity d.step d.dt d.useEddy g

/-- Performs disturbances one after the other. -/
def performEach : List (Disturbance α) → γ → List (Except (DriftError α) (Velocity α)) × γ
  | [], g => ([], g)
  | d :: ds, g =>
    let (found, g) := d.perform g
    let (others, g) := performEach ds g
    (found :: others, g)

theorem perform_of_missing (g : γ) (h : d.record? = none) :
    d.perform g = (.error (.recordMissing d.particle.set d.particle.index), g) := by
  unfold perform Eddy.disturb
  rw [record?] at h
  rw [h]

theorem perform_of_record (g : γ) {record : SpreadRecord α} (h : d.record? = some record) :
    d.perform g = (.ok (d.outcome record (Eddy.drawPair d.useEddy d.step g).1),
      (Eddy.drawPair d.useEddy d.step g).2) := by
  unfold perform Eddy.disturb
  rw [record?] at h
  rw [h]
  rfl

theorem Takes.perform {g : γ} {n : Nat} {found : Except (DriftError α) (Velocity α)}
    (h : d.Takes (drawAt g) n found) : d.perform g = (found, Random.skip α n g) := by
  cases h with
  | missing hrecord => exact perform_of_missing g hrecord
  | still hrecord heddy =>
      rw [perform_of_record g hrecord, heddy]
      rfl
  | later hrecord heddy hstep =>
      rw [perform_of_record g hrecord, Eddy.drawPair, heddy, hstep]
      rfl
  | first hrecord heddy hstep hk =>
      rw [perform_of_record g hrecord, Eddy.drawPair, heddy, hstep, if_pos rfl, if_pos rfl,
        Random.drawDisk_eq hk]

/-- Each disturbance begins where the one before it has left the source. -/
theorem TakeInTurn.performEach {ds : List (Disturbance α)} {g : γ} {n : Nat}
    {founds : List (Except (DriftError α) (Velocity α))}
    (h : TakeInTurn (drawAt g) ds n founds) :
    performEach ds g = (founds, Random.skip α n g) := by
  induction ds generalizing g n founds with
  | nil =>
      cases h
      rfl
  | cons d ds ih =>
      cases h with
      | cons hd hds =>
          rw [← Random.drawAt_skip] at hds
          rw [Disturbance.performEach, hd.perform]
          dsimp only
          rw [ih hds, Random.skip_skip]

/-- Without eddies neither the eddies nor the step make a difference. -/
theorem outcome_of_still (h : d.useEddy = false) (eddy : Eddy α) (step : StepData α) (dt : α)
    (record : SpreadRecord α) (r : α × α) :
    outcome { d with eddy, step, dt } record r = d.outcome record r := by
  simp only [outcome, Eddy.vary, h]
  rfl

theorem perform_of_still (h : d.useEddy = false) (eddy : Eddy α) (step : StepData α) (dt : α)
    (g g' : γ) : (perform { d with eddy, step, dt } g').1 = (d.perform g).1 := by
  cases hrecord : d.record? with
  | none =>
      rw [perform_of_missing g hrecord, perform_of_missing g' (by exact hrecord)]
  | some record =>
      have hd : d.Takes (drawAt g) 0 _ := .still hrecord h
      have hd' : Takes { d with eddy, step, dt } (drawAt g') 0 _ := .still hrecord h
      rw [hd.perform, hd'.perform, outcome_of_still h]

/-- The rules give one answer to how many draws a disturbance takes and what comes of it, if it
finds a point of the disk where it looks for one, and this is what it does. Without eddies the
result is the same for all sources, steps and eddies. Disturbances that follow each other take
their draws in turn. -/
theorem perform_spec :
    (∀ (d : Disturbance α) (u : Nat → α),
      (d.SearchesDisk → ∃ k, Random.inUnitDisk (pairOf u k) = true) →
        ∃! taken : Nat × Except (DriftError α) (Velocity α), d.Takes u taken.1 taken.2) ∧
    (∀ (d : Disturbance α) (g : γ) (n : Nat) (found : Except (DriftError α) (Velocity α)),
      d.Takes (drawAt g) n found → d.perform g = (found, Random.skip α n g)) ∧
    (∀ d : Disturbance α, d.useEddy = false →
      ∀ (eddy : Eddy α) (step : StepData α) (dt : α) (g g' : γ),
        (perform { d with eddy, step, dt } g').1 = (d.perform g).1) ∧
    (∀ (ds : List (Disturbance α)) (u : Nat → α),
      (∀ j, ∃ k, j ≤ k ∧ Random.inUnitDisk (pairOf u k) = true) →
        ∃ n founds, TakeInTurn u ds n founds) ∧
    ∀ (ds : List (Disturbance α)) (g : γ) (n : Nat)
      (founds : List (Except (DriftError α) (Velocity α))),
      TakeInTurn (drawAt g) ds n founds → performEach ds g = (founds, Random.skip α n g) := by
  refine ⟨fun d u h => ?_, fun d g n found h => h.perform, fun d h => perform_of_still h,
    fun ds u h => exists_takeInTurn ds h, fun ds g n founds h => h.performEach⟩
  obtain ⟨n, found, h⟩ := exists_takes h
  exact ⟨(n, found), h, fun other h' => Prod.ext (h.unique h').1 (h.unique h').2⟩

/-- The disturbance of a particle in a set of two. -/
def ofParticle (index : Nat) (isFirst : Bool) : Disturbance Float where
  eddy := ⟨100.0, 0.1⟩
  table := some (SpreadTable.uniform [2] ⟨0.1, 0.2⟩)
  particle := Particle.uncertain 0 index Point.zero
  velocity := ⟨1.0, 0.5⟩
  step := ⟨isFirst, true, 0.25⟩
  dt := 60.0
  useEddy := true

/-- The first two words stand for the corner `(1, 1)` of the square, which is thrown away, and the
next two for the middle. The second particle takes what comes then. -/
theorem perform_spec_corner :
    let g := WordScript.ofList [0xFFFFFFFFFFFFFFFF, 0xFFFFFFFFFFFFFFFF]
    let record : SpreadRecord Float := ⟨0.1, 0.2⟩
    (performEach [ofParticle 0 true, ofParticle 1 false] g).1 =
      [.ok ((ofParticle 0 true).outcome record (pairOf (drawAt g) 1)),
        .ok ((ofParticle 1 false).outcome record (drawAt g 4, drawAt g 5))] ∧
      (performEach [ofParticle 0 true, ofParticle 1 false] g).2 = WordSource.skip 6 g := by
  intro g record
  have hk : IsFirstInDisk (drawAt g : Nat → Float) 1 := by constructor <;> decide +kernel
  have hfirst : (ofParticle 0 true).Takes (drawAt g) 4
      (.ok ((ofParticle 0 true).outcome record (pairOf (drawAt g) 1))) := .first rfl rfl rfl hk
  have hlater : (ofParticle 1 false).Takes (fun i => drawAt g (4 + i)) 2
      (.ok ((ofParticle 1 false).outcome record (drawAt g 4, drawAt g 5))) := .later rfl rfl rfl
  have hturn : TakeInTurn (drawAt g) [ofParticle 0 true, ofParticle 1 false] 6 _ :=
    .cons hfirst (.cons hlater (.nil _))
  have hperform := perform_spec.2.2.2.2 _ g 6 _ hturn
  exact ⟨congrArg Prod.fst hperform, congrArg Prod.snd hperform⟩

end Disturbance

end CurrentDrift
