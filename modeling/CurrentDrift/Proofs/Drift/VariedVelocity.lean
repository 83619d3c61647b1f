import CurrentDrift.Proofs.Geo.Velocity
import CurrentDrift.Proofs.Drift.Disturbance

/-! # The geometry of varied velocities

Over real numbers nothing is rounded, and varying a velocity is a piece of plane geometry: the flow
is made longer by one share of its speed and turned by another, and the random walk adds a vector of
known length. Main statement: this holds for every velocity, record and random pair, and the random
walk is never faster than its speed in the first step of a run and `√2` times that later. -/

namespace CurrentDrift

open CurrentDrift.Random (drawAt pairOf)

/-! ## Vectors of the plane -/

namespace Velocity

variable {α : Type} [Scalar α]

/-- The area that two velocities span, positive if the second one points to the left of the
first. -/
def cross (v w : Velocity α) : α := v.u * w.v - v.v * w.u

def sub (v w : Velocity α) : Velocity α := ⟨v.u - w.u, v.v - w.v⟩

/-- A velocity made longer by one share of its length and turned to the right by another. -/
structure IsVaried (v w : Velocity ℝ) (along across : ℝ) : Prop where
  dot : v.dot w = (1 + along) * v.lengthSquared
  cross : v.cross w = -across * v.lengthSquared
  lengthSquared : w.lengthSquared = v.lengthSquared * ((1 + along) ^ 2 + across ^ 2)

/-- The product of two complex numbers is as long as the product of their lengths. -/
theorem length_turned {c : ℝ} (hc : 0 ≤ c) (v : Velocity ℝ) (x y : ℝ) :
    (⟨c * (v.u * x + v.v * y), c * (v.v * x - v.u * y)⟩ : Velocity ℝ).length =
      c * v.length * √(x ^ 2 + y ^ 2) := by
  have hsum : (v.u * x + v.v * y) ^ 2 + (v.v * x - v.u * y) ^ 2 =
      (v.u ^ 2 + v.v ^ 2) * (x ^ 2 + y ^ 2) := by ring
  rw [length_multiple hc, hsum, Real.sqrt_mul (by positivity), ← length_eq, mul_assoc]

theorem isVaried_of_shares (v : Velocity ℝ) (along across : ℝ) :
    v.IsVaried ⟨v.u * (1 + along) + v.v * across, v.v * (1 + along) - v.u * across⟩
      along across := by
  constructor
  · change v.u * (v.u * (1 + along) + v.v * across) + v.v * (v.v * (1 + along) - v.u * across) = _
    rw [lengthSquared_eq]
    ring
  · change v.u * (v.v * (1 + along) - v.u * across) - v.v * (v.u * (1 + along) + v.v * across) = _
    rw [lengthSquared_eq]
    ring
  · rw [lengthSquared_eq, lengthSquared_eq]
    ring

end Velocity

namespace Disturbance

/-! ## Fast water -/

/-- How much a unit of the random pair adds, as a share of the speed of the flow. -/
noncomputable def gain (d : Disturbance ℝ) : ℝ :=
  if d.useEddy then
    d.walkSpeed * d.eddy.halfSpeed / (d.velocity.length * (d.eddy.halfSpeed + d.velocity.length))
  else 0

variable {d : Disturbance ℝ}

theorem outcome_of_fast (h : Eddy.minSpeed < d.velocity.length) (record : SpreadRecord ℝ)
    (r : ℝ × ℝ) :
    d.outcome record r =
      ⟨d.velocity.u * (1 + (record.along + d.gain * r.1)) +
          d.velocity.v * (record.across + d.gain * r.2),
        d.velocity.v * (1 + (record.along + d.gain * r.1)) -
          d.velocity.u * (record.across + d.gain * r.2)⟩ := by
  have hone : (1.0 : ℝ) = 1 := by norm_num
  have hzero : (0.0 : ℝ) = 0 := by norm_num
  unfold outcome Eddy.vary gain
  rw [if_pos h, ← hone, ← hzero]

theorem length_pos_of_fast (h : Eddy.minSpeed < d.velocity.length) : 0 < d.velocity.length := by
  have hmin : (Eddy.minSpeed : ℝ) = 1 / 1000000 := by
    unfold Eddy.minSpeed
    norm_num
  rw [hmin] at h
  linarith

/-- What the gain is divided by. -/
theorem divisor_pos (hhalf : 0 ≤ d.eddy.halfSpeed) (h : Eddy.minSpeed < d.velocity.length) :
    0 < d.velocity.length * (d.eddy.halfSpeed + d.velocity.length) := by
  have := length_pos_of_fast h
  positivity

theorem length_sub_of_fast (hhalf : 0 ≤ d.eddy.halfSpeed) (hwalk : 0 ≤ d.walkSpeed)
    (h : Eddy.minSpeed < d.velocity.length) (heddy : d.useEddy = true) (record : SpreadRecord ℝ)
    (r : ℝ × ℝ) :
    ((d.outcome record r).sub (outcome { d with useEddy := false } record (0.0, 0.0))).length =
      d.walkSpeed * d.eddy.halfSpeed / (d.eddy.halfSpeed + d.velocity.length) *
        √(r.1 ^ 2 + r.2 ^ 2) := by
  have hpos := length_pos_of_fast h
  have hgain : d.gain = d.walkSpeed * d.eddy.halfSpeed /
      (d.velocity.length * (d.eddy.halfSpeed + d.velocity.length)) := by rw [gain, heddy, if_pos rfl]
  have hstill : gain { d with useEddy := false } = 0 := if_neg Bool.false_ne_true
  have hsub : (d.outcome record r).sub (outcome { d with useEddy := false } record (0.0, 0.0)) =
      ⟨d.gain * (d.velocity.u * r.1 + d.velocity.v * r.2),
        d.gain * (d.velocity.v * r.1 - d.velocity.u * r.2)⟩ := by
    rw [outcome_of_fast h, outcome_of_fast (d := { d with useEddy := false }) h, hstill]
    unfold Velocity.sub
    congr 1 <;> ring
  rw [hsub, Velocity.length_turned (by rw [hgain]; positivity), hgain]
  field_simp

theorem length_sub_le_of_fast (hhalf : 0 ≤ d.eddy.halfSpeed) (hwalk : 0 ≤ d.walkSpeed)
    (h : Eddy.minSpeed < d.velocity.length) (heddy : d.useEddy = true) (record : SpreadRecord ℝ)
    (r : ℝ × ℝ) :
    ((d.outcome record r).sub (outcome { d with useEddy := false } record (0.0, 0.0))).length ≤
      d.walkSpeed * √(r.1 ^ 2 + r.2 ^ 2) := by
  have hpos := length_pos_of_fast h
  rw [length_sub_of_fast hhalf hwalk h heddy, mul_div_assoc]
  gcongr
  apply mul_le_of_le_one_right hwalk
  rw [div_le_one (by positivity)]
  linarith

/-! ## Slow water -/

theorem outcome_of_slow (h : d.velocity.length ≤ Eddy.minSpeed) (heddy : d.useEddy = true)
    (record : SpreadRecord ℝ) (r : ℝ × ℝ) :
    d.outcome record r = ⟨d.walkSpeed * r.1, d.walkSpeed * r.2⟩ := by
  unfold outcome Eddy.vary
  rw [if_neg (not_lt.mpr h), heddy, if_pos rfl]

/-! ## The random walk -/

/-- What becomes of the flow without the random walk. In slow water nothing is left of it, as the
walk takes its place. -/
noncomputable def flowPart (d : Disturbance ℝ) (record : SpreadRecord ℝ) : Velocity ℝ :=
  if d.useEddy = true ∧ d.velocity.length ≤ Eddy.minSpeed then ⟨0, 0⟩
  else outcome { d with useEddy := false } record (0.0, 0.0)

/-- The random walk is at most so fast in all waters. Where it is not used there is no pair. -/
theorem length_walk_le (hhalf : 0 ≤ d.eddy.halfSpeed) (hwalk : 0 ≤ d.walkSpeed)
    (record : SpreadRecord ℝ) {r : ℝ × ℝ} (hr : d.useEddy = false → r = (0.0, 0.0)) :
    ((d.outcome record r).sub (d.flowPart record)).length ≤
      d.walkSpeed * √(r.1 ^ 2 + r.2 ^ 2) := by
  unfold flowPart
  cases heddy : d.useEddy with
  | false =>
      have hd : { d with useEddy := false } = d := by rw [← heddy]
      rw [if_neg (by simp), hd, hr heddy, Velocity.sub, sub_self, sub_self]
      rw [Velocity.length_eq_of_sq le_rfl (by norm_num)]
      positivity
  | true =>
      by_cases hslow : d.velocity.length ≤ Eddy.minSpeed
      · rw [if_pos ⟨rfl, hslow⟩, outcome_of_slow hslow heddy, Velocity.sub, sub_zero, sub_zero,
          Velocity.length_multiple hwalk]
      · rw [if_neg (by simp [hslow])]
        exact length_sub_le_of_fast hhalf hwalk (not_le.mp hslow) heddy record r

/-! ## Random pairs -/

/-- How far from the middle a random pair can be. -/
noncomputable def reach (d : Disturbance ℝ) : ℝ := if d.step.isFirst then 1 else √(2 : ℕ)

section Draws

variable {γ : Type} [RandomSource ℝ γ] (hdraw : Random.StaysBetween ℝ γ)

include hdraw in
theorem sq_drawAt_le_one (g : γ) (n : Nat) : (drawAt g n : ℝ) ^ 2 ≤ 1 := by
  obtain ⟨hlow, hhigh⟩ := hdraw (-1.0) 1.0 (Random.skip ℝ n g) (by norm_num)
  have hlow' : -1 ≤ (drawAt g n : ℝ) := by
    rw [← show (-1.0 : ℝ) = -1 by norm_num]
    exact hlow
  have hhigh' : (drawAt g n : ℝ) ≤ 1 := by
    rw [← show (1.0 : ℝ) = 1 by norm_num]
    exact hhigh
  rw [sq_le_one_iff_abs_le_one]
  exact abs_le.mpr ⟨hlow', hhigh'⟩

theorem sqrt_le_one_of_inUnitDisk {r : ℝ × ℝ} (h : Random.inUnitDisk r = true) :
    √(r.1 ^ 2 + r.2 ^ 2) ≤ 1 := by
  have hle : r.1 * r.1 + r.2 * r.2 ≤ 1.0 := of_decide_eq_true h
  rw [Real.sqrt_le_one, sq, sq]
  refine hle.trans_eq ?_
  norm_num

include hdraw in
/-- What is drawn for a disturbance lies within the reach. -/
theorem exists_pair_of_perform {record : SpreadRecord ℝ} (g : γ) (hrecord : d.record? = some record)
    (h : d.SearchesDisk → ∃ k, Random.inUnitDisk (pairOf (drawAt g : Nat → ℝ) k) = true) :
    ∃ r, (d.perform g).1 = .ok (d.outcome record r) ∧ (d.useEddy = false → r = (0.0, 0.0)) ∧
      √(r.1 ^ 2 + r.2 ^ 2) ≤ d.reach := by
  obtain ⟨n, found, htakes⟩ := exists_takes h
  rw [htakes.perform]
  cases htakes with
  | missing hmissing => simp [hmissing] at hrecord
  | still hsome heddy =>
      obtain rfl := Option.some.inj (hsome.symm.trans hrecord)
      refine ⟨_, rfl, fun _ => rfl, ?_⟩
      have hzero : (0.0 : ℝ) ^ 2 + 0.0 ^ 2 = 0 := by norm_num
      rw [hzero, Real.sqrt_zero, reach]
      split <;> positivity
  | later hsome heddy hstep =>
      obtain rfl := Option.some.inj (hsome.symm.trans hrecord)
      refine ⟨_, rfl, by simp [heddy], ?_⟩
      rw [reach, hstep, if_neg Bool.false_ne_true]
      apply Real.sqrt_le_sqrt
      have hfst : (drawAt g 0 : ℝ) ^ 2 ≤ 1 := sq_drawAt_le_one hdraw g 0
      have hsnd : (drawAt g 1 : ℝ) ^ 2 ≤ 1 := sq_drawAt_le_one hdraw g 1
      have htwo : ((2 : ℕ) : ℝ) = 1 + 1 := by norm_num
      rw [htwo]
      exact add_le_add hfst hsnd
  | first hsome heddy hstep hk =>
      obtain rfl := Option.some.inj (hsome.symm.trans hrecord)
      refine ⟨_, rfl, by simp [heddy], ?_⟩
      rw [reach, hstep, if_pos rfl]
      exact sqrt_le_one_of_inUnitDisk hk.inDisk

end Draws

/-- In fast water varying a velocity divides by a positive number, makes the velocity longer and
turns it by the shares of the record and of the random walk, and the walk by itself is as long as
its speed, weakened by the flow, times the length of the random pair. In slow water the walk is all
there is. In both of them what is drawn from a source makes the walk at most as fast as its speed in
the first step of a run, and at most `√2` times as fast later. -/
theorem outcome_geometry (hhalf : 0 ≤ d.eddy.halfSpeed) (hwalk : 0 ≤ d.walkSpeed)
    (record : SpreadRecord ℝ) :
    (Eddy.minSpeed < d.velocity.length →
      0 < d.velocity.length * (d.eddy.halfSpeed + d.velocity.length) ∧
      ∀ r : ℝ × ℝ,
        d.velocity.IsVaried (d.outcome record r) (record.along + d.gain * r.1)
          (record.across + d.gain * r.2) ∧
        (d.useEddy = true →
          let walk :=
            (d.outcome record r).sub (outcome { d with useEddy := false } record (0.0, 0.0))
          walk.length = d.walkSpeed * d.eddy.halfSpeed / (d.eddy.halfSpeed + d.velocity.length) *
              √(r.1 ^ 2 + r.2 ^ 2) ∧
            walk.length ≤ d.walkSpeed * √(r.1 ^ 2 + r.2 ^ 2))) ∧
    (d.velocity.length ≤ Eddy.minSpeed → d.useEddy = true → ∀ r : ℝ × ℝ,
      (∀ other, d.outcome other r = d.outcome record r) ∧
        (d.outcome record r).length = d.walkSpeed * √(r.1 ^ 2 + r.2 ^ 2)) ∧
    ∀ (γ : Type) [RandomSource ℝ γ], Random.StaysBetween ℝ γ → ∀ g : γ, d.record? = some record →
      (d.SearchesDisk → ∃ k, Random.inUnitDisk (pairOf (drawAt g : Nat → ℝ) k) = true) →
        ∃ r, (d.perform g).1 = .ok (d.outcome record r) ∧ √(r.1 ^ 2 + r.2 ^ 2) ≤ d.reach ∧
          ((d.outcome record r).sub (d.flowPart record)).length ≤ d.reach * d.walkSpeed := by
  refine ⟨fun h => ⟨divisor_pos hhalf h, fun r => ⟨?_, fun heddy => ⟨?_, ?_⟩⟩⟩, ?_, ?_⟩
  · rw [outcome_of_fast h]
    exact Velocity.isVaried_of_shares ..
  · exact length_sub_of_fast hhalf hwalk h heddy record r
  · exact length_sub_le_of_fast hhalf hwalk h heddy record r
  · intro h heddy r
    refine ⟨fun other => ?_, ?_⟩
    · rw [outcome_of_slow h heddy, outcome_of_slow h heddy]
    · rw [outcome_of_slow h heddy, Velocity.length_multiple hwalk]
  · intro γ _ hdraw g hrecord hdisk
    obtain ⟨r, hperform, hstill, hreach⟩ := exists_pair_of_perform hdraw g hrecord hdisk
    refine ⟨r, hperform, hreach, (length_walk_le hhalf hwalk record hstill).trans ?_⟩
    rw [mul_comm]
    gcongr

/-- A particle in a flow of five metres per second in the first step of a run. -/
noncomputable def swift : Disturbance ℝ where
  eddy := ⟨100, 1⟩
  table := some (SpreadTable.uniform [1] ⟨1 / 10, 1 / 5⟩)
  particle := Particle.uncertain 0 0 Point.zero
  velocity := ⟨3, 4⟩
  step := ⟨true, true, 1 / 4⟩
  dt := 60
  useEddy := true

theorem length_swift : swift.velocity.length = 5 :=
  Velocity.length_eq_of_sq (by norm_num) (by norm_num [swift])

/-- Every word of an empty script is the middle one, so that the first pair is near the middle of
the disk. -/
theorem inUnitDisk_empty :
    Random.inUnitDisk (pairOf (drawAt (WordScript.ofList []) : Nat → ℝ) 0) = true := by
  have hdraw : ∀ n ≤ 1, (drawAt (WordScript.ofList []) n : ℝ) = 1 / (2 ^ 52 - 1) := by
    intro n hn
    have hword : (WordSource.next (WordSource.skip n (WordScript.ofList []))).1 =
        0x8000000000000000 := by
      rcases Nat.le_one_iff_eq_zero_or_eq_one.mp hn with rfl | rfl <;> rfl
    have h : (drawAt (WordScript.ofList []) n : ℝ) = Random.between (-1.0) 1.0
        (WordSource.next (WordSource.skip n (WordScript.ofList []))).1 := by
      rw [← WordSource.skip_eq (α := ℝ)]
      rfl
    have hbits : ((0x8000000000000000 : UInt64) >>> 12).toNat = 2 ^ 51 := rfl
    rw [h, hword, Random.between_eq, Random.unitInterval_eq, Random.greatestUnit_eq, hbits]
    norm_num
  apply decide_eq_true
  rw [pairOf, hdraw 0 (by norm_num), hdraw 1 le_rfl]
  norm_num

theorem outcome_geometry_swift :
    swift.velocity.IsVaried (swift.outcome ⟨1 / 10, 1 / 5⟩ (1, 0))
        (1 / 10 + swift.gain * 1) (1 / 5 + swift.gain * 0) ∧
      ∃ w, (swift.perform (WordScript.ofList [])).1 = .ok w ∧
        (w.sub (swift.flowPart ⟨1 / 10, 1 / 5⟩)).length ≤ 1 * (1 / 4) := by
  have hhalf : 0 ≤ swift.eddy.halfSpeed := by norm_num [swift]
  have hstored : swift.walkSpeed = 1 / 4 := if_pos rfl
  have hwalk : 0 ≤ swift.walkSpeed := by norm_num [hstored]
  have hfast : Eddy.minSpeed < swift.velocity.length := by
    rw [length_swift, Eddy.minSpeed]
    norm_num
  obtain ⟨hvaried, -, hdrawn⟩ := outcome_geometry hhalf hwalk ⟨1 / 10, 1 / 5⟩
  obtain ⟨r, hperform, -, hlength⟩ :=
    hdrawn WordScript (Random.staysBetween_real WordScript) (WordScript.ofList []) rfl fun _ =>
      ⟨0, inUnitDisk_empty⟩
  have hreach : swift.reach = 1 := if_pos rfl
  rw [hreach, hstored] at hlength
  exact ⟨((hvaried hfast).2 (1, 0)).1, _, hperform, hlength⟩

end Disturbance

end CurrentDrift
