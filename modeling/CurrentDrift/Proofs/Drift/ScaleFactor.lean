import CurrentDrift.Proofs.Geo.Velocity
import CurrentDrift.Drift.Scaling

/-! # What a scale factor does

A factor gives a velocity a wanted speed, or the speed of another velocity. One of them is guarded
by lengths and the other one by squares of lengths. Main statement: over real numbers both have the
same guards, and a factor that passes them does what is wanted of it. -/

namespace CurrentDrift.Scaling

/-! ## Guards -/

/-- What comes of the wish to give a velocity a speed: a factor, if the velocity is fast enough and
the speed not too far above it, and else the fault. Going too fast is seen before being too slow. -/
structure ScaleSpec (wanted : ℝ) (mine : Velocity ℝ) (outcome : Except (ScaleFault ℝ) ℝ) : Prop where
  isOk : (∃ s, outcome = .ok s) ↔
    1 / 100000 ≤ mine.length ∧ |wanted| ≤ 1000000 * mine.length
  factor : ∀ s, outcome = .ok s → |s| * mine.length = |wanted| ∧ |s| ≤ 1000000 ∧ 0 < mine.length
  tooFast : outcome = .error (.targetTooFast wanted mine.length) ↔
    1000000 * mine.length < |wanted|
  tooSlow : outcome = .error (.referenceTooSlow mine.length) ↔
    mine.length < 1 / 100000 ∧ |wanted| ≤ 1000000 * mine.length

variable {wanted target s : ℝ} {mine theirs : Velocity ℝ}

theorem maxScale_eq : (maxScale : ℝ) = 1000000 := by
  unfold maxScale
  norm_num

theorem minLength_eq : (minLength : ℝ) = 1 / 100000 := by
  unfold minLength
  norm_num

theorem pos_of_not_slow (h : ¬ mine.length < minLength) : 0 < mine.length :=
  lt_of_lt_of_le (by rw [minLength_eq]; norm_num) (not_lt.mp h)

theorem scaleSpec_of_guards {outcome : Except (ScaleFault ℝ) ℝ}
    (h : outcome =
      if 1000000 * mine.length < |wanted| then .error (.targetTooFast wanted mine.length)
      else if mine.length < 1 / 100000 then .error (.referenceTooSlow mine.length)
      else .ok s)
    (hs : 0 < mine.length → |s| * mine.length = |wanted|) : ScaleSpec wanted mine outcome := by
  subst h
  by_cases hfast : 1000000 * mine.length < |wanted|
  · rw [if_pos hfast]
    constructor <;> simp [hfast]
  · have hle : |wanted| ≤ 1000000 * mine.length := not_lt.mp hfast
    rw [if_neg hfast]
    by_cases hslow : mine.length < 1 / 100000
    · rw [if_pos hslow]
      refine ⟨⟨nofun, fun h => absurd h.1 (not_le.mpr hslow)⟩, nofun, by simp [hle], ?_⟩
      exact ⟨fun _ => ⟨hslow, hle⟩, fun _ => rfl⟩
    · have hlong : 1 / 100000 ≤ mine.length := not_lt.mp hslow
      have hpos : 0 < mine.length := pos_of_not_slow (minLength_eq ▸ hslow)
      rw [if_neg hslow]
      refine ⟨⟨fun _ => ⟨hlong, hle⟩, fun _ => ⟨s, rfl⟩⟩, ?_, by simp [hle],
        ⟨nofun, fun h => absurd h.1 hslow⟩⟩
      rintro _ ⟨rfl⟩
      exact ⟨hs hpos, le_of_mul_le_mul_right ((hs hpos).trans_le hle) hpos, hpos⟩

theorem scaleToSpeed_eq (target : ℝ) (mine : Velocity ℝ) :
    scaleToSpeed target mine =
      if 1000000 * mine.length < |target| then .error (.targetTooFast target mine.length)
      else if mine.length < 1 / 100000 then .error (.referenceTooSlow mine.length)
      else .ok (target / mine.length) := by
  rw [← maxScale_eq, ← minLength_eq, mul_comm maxScale]
  rfl

/-- Lengths can be compared by their squares. -/
theorem lengthSquared_mul_lt_iff :
    mine.lengthSquared * maxScale * maxScale < theirs.lengthSquared ↔
      mine.length * maxScale < theirs.length := by
  have hmax : (0 : ℝ) ≤ maxScale := by rw [maxScale_eq]; norm_num
  rw [← sq_lt_sq₀ (mul_nonneg mine.length_nonneg hmax) theirs.length_nonneg, mul_pow,
    Velocity.sq_length, Velocity.sq_length, sq maxScale, mul_assoc]

theorem lengthSquared_lt_iff :
    mine.lengthSquared < minLength * minLength ↔ mine.length < minLength := by
  have hmin : (0 : ℝ) ≤ minLength := by rw [minLength_eq]; norm_num
  rw [← sq_lt_sq₀ mine.length_nonneg hmin, Velocity.sq_length, sq minLength]

theorem scaleToVelocity_eq (mine theirs : Velocity ℝ) :
    scaleToVelocity mine theirs =
      if 1000000 * mine.length < |theirs.length| then
        .error (.targetTooFast theirs.length mine.length)
      else if mine.length < 1 / 100000 then .error (.referenceTooSlow mine.length)
      else .ok (if mine.dot theirs < 0 then -(theirs.length / mine.length)
        else theirs.length / mine.length) := by
  have hratio : √(theirs.lengthSquared / mine.lengthSquared) = theirs.length / mine.length := by
    rw [← Velocity.sq_length, ← Velocity.sq_length, ← div_pow,
      Real.sqrt_sq (div_nonneg theirs.length_nonneg mine.length_nonneg)]
  have hzero : (0.0 : ℝ) = 0 := by norm_num
  rw [abs_of_nonneg theirs.length_nonneg, ← hratio, ← hzero, ← maxScale_eq, ← minLength_eq,
    mul_comm maxScale]
  simp only [← lengthSquared_mul_lt_iff, ← lengthSquared_lt_iff]
  rfl

/-- What passes the guards is the factor. -/
theorem eq_of_guards {a b : Prop} [Decidable a] [Decidable b] {e f : ScaleFault ℝ} {r : ℝ}
    (h : (if a then .error e else if b then .error f else .ok s) = Except.ok r) : s = r := by
  split at h
  · contradiction
  · split at h
    · contradiction
    · exact Except.ok.inj h

theorem scaleSpec_scaleToSpeed (target : ℝ) (mine : Velocity ℝ) :
    ScaleSpec target mine (scaleToSpeed target mine) :=
  scaleSpec_of_guards (scaleToSpeed_eq target mine) fun hpos => by
    rw [abs_div, abs_of_pos hpos, div_mul_cancel₀ _ hpos.ne']

theorem scaleSpec_scaleToVelocity (mine theirs : Velocity ℝ) :
    ScaleSpec theirs.length mine (scaleToVelocity mine theirs) :=
  scaleSpec_of_guards (scaleToVelocity_eq mine theirs) fun hpos => by
    have habs : |if mine.dot theirs < 0 then -(theirs.length / mine.length)
        else theirs.length / mine.length| = |theirs.length / mine.length| := by
      split
      · rw [abs_neg]
      · rfl
    rw [habs, abs_div, abs_of_pos hpos, div_mul_cancel₀ _ hpos.ne']

/-! ## The factors -/

theorem mul_length_of_scaleToSpeed (h : scaleToSpeed target mine = .ok s) :
    s * mine.length = target := by
  have hpos := ((scaleSpec_scaleToSpeed target mine).factor s h).2.2
  rw [← eq_of_guards ((scaleToSpeed_eq target mine).symm.trans h)]
  exact div_mul_cancel₀ _ hpos.ne'

theorem length_of_scaleToVelocity (h : scaleToVelocity mine theirs = .ok s) :
    (mine.scale s).length = theirs.length := by
  rw [Velocity.length_scale, ((scaleSpec_scaleToVelocity mine theirs).factor s h).1,
    abs_of_nonneg theirs.length_nonneg]

/-- The factor turns the velocity round if the two point against each other. -/
theorem sign_of_scaleToVelocity (h : scaleToVelocity mine theirs = .ok s) :
    (0 ≤ mine.dot theirs → 0 ≤ s) ∧ (mine.dot theirs < 0 → s ≤ 0) := by
  have hratio : 0 ≤ theirs.length / mine.length := div_nonneg theirs.length_nonneg mine.length_nonneg
  rw [← eq_of_guards ((scaleToVelocity_eq mine theirs).symm.trans h)]
  refine ⟨fun hdot => ?_, fun hdot => ?_⟩
  · rwa [if_neg (not_lt.mpr hdot)]
  · rw [if_pos hdot]
    exact neg_nonpos.mpr hratio

theorem dot_nonneg_of_scaleToVelocity (h : scaleToVelocity mine theirs = .ok s) :
    0 ≤ (mine.scale s).dot theirs := by
  obtain ⟨hwith, hagainst⟩ := sign_of_scaleToVelocity h
  rw [Velocity.dot_scale]
  rcases le_or_gt 0 (mine.dot theirs) with hdot | hdot
  · exact mul_nonneg (hwith hdot) hdot
  · exact mul_nonneg_of_nonpos_of_nonpos (hagainst hdot) hdot.le

/-! ## Divisions -/

theorem scaleToSpeed_dividingByZero (quotient remainder : ℝ → ℝ) (target : ℝ)
    (mine : Velocity ℝ) :
    @scaleToSpeed ℝ (.dividingByZero quotient remainder) target mine =
      scaleToSpeed target mine := by
  unfold scaleToSpeed
  refine ite_congr rfl (fun _ => rfl) fun _ => ite_congr rfl (fun _ => rfl) fun hslow => ?_
  have hpos : 0 < mine.length := pos_of_not_slow hslow
  exact congrArg Except.ok (if_neg hpos.ne')

theorem scaleToVelocity_dividingByZero (quotient remainder : ℝ → ℝ) (mine theirs : Velocity ℝ) :
    @scaleToVelocity ℝ (.dividingByZero quotient remainder) mine theirs =
      scaleToVelocity mine theirs := by
  unfold scaleToVelocity
  refine ite_congr rfl (fun _ => rfl) fun _ => ite_congr rfl (fun _ => rfl) fun hslow => ?_
  have hpos : 0 < mine.length := pos_of_not_slow (mt lengthSquared_lt_iff.mpr hslow)
  have hratio : (Scalar.dividingByZero quotient remainder).div theirs.lengthSquared
      mine.lengthSquared = theirs.lengthSquared / mine.lengthSquared :=
    if_neg (Velocity.sq_length mine ▸ pow_ne_zero 2 hpos.ne')
  exact congrArg
    (fun x : ℝ => Except.ok (if mine.dot theirs < 0.0 then -Scalar.sqrt x else Scalar.sqrt x)) hratio

/-! ## Both factors -/

/-- A factor for a speed, and one for the speed of another velocity, is found exactly if it does not
exceed the largest one and the velocity is not too slow, and its fault says what is in the way. It
gives the velocity the speed that is wanted, and never turns it against the other one. Neither is
found by a division by zero. A velocity that is matched to a matched one has the speed of the
last. -/
theorem factors_spec (target : ℝ) (mine theirs : Velocity ℝ) :
    ScaleSpec target mine (scaleToSpeed target mine) ∧
      (∀ s, scaleToSpeed target mine = .ok s → s * mine.length = target) ∧
      ScaleSpec theirs.length mine (scaleToVelocity mine theirs) ∧
      (∀ s, scaleToVelocity mine theirs = .ok s →
        (0 ≤ mine.dot theirs → 0 ≤ s) ∧ (mine.dot theirs < 0 → s ≤ 0) ∧
          (mine.scale s).length = theirs.length ∧ 0 ≤ (mine.scale s).dot theirs) ∧
      (∀ quotient remainder : ℝ → ℝ,
        @scaleToSpeed ℝ (.dividingByZero quotient remainder) target mine =
            scaleToSpeed target mine ∧
          @scaleToVelocity ℝ (.dividingByZero quotient remainder) mine theirs =
            scaleToVelocity mine theirs) ∧
      ∀ (last : Velocity ℝ) (r s : ℝ), scaleToVelocity theirs last = .ok r →
        scaleToVelocity mine (theirs.scale r) = .ok s → (mine.scale s).length = last.length := by
  refine ⟨scaleSpec_scaleToSpeed target mine, fun s => mul_length_of_scaleToSpeed,
    scaleSpec_scaleToVelocity mine theirs, fun s h => ?_, fun quotient remainder => ?_,
    fun last r s hr hs => ?_⟩
  · obtain ⟨hwith, hagainst⟩ := sign_of_scaleToVelocity h
    exact ⟨hwith, hagainst, length_of_scaleToVelocity h, dot_nonneg_of_scaleToVelocity h⟩
  · exact ⟨scaleToSpeed_dividingByZero .., scaleToVelocity_dividingByZero ..⟩
  · rw [length_of_scaleToVelocity hs, length_of_scaleToVelocity hr]

/-- A velocity that is matched to one twice as fast that points against it is turned round. -/
theorem factors_spec_opposite :
    ∃ s, scaleToVelocity (⟨3, 4⟩ : Velocity ℝ) ⟨-6, -8⟩ = .ok s ∧ s ≤ 0 ∧
      ((⟨3, 4⟩ : Velocity ℝ).scale s).length = 10 := by
  have hmine : (⟨3, 4⟩ : Velocity ℝ).length = 5 :=
    Velocity.length_eq_of_sq (by norm_num) (by norm_num)
  have htheirs : (⟨-6, -8⟩ : Velocity ℝ).length = 10 :=
    Velocity.length_eq_of_sq (by norm_num) (by norm_num)
  have hdot : (⟨3, 4⟩ : Velocity ℝ).dot ⟨-6, -8⟩ < 0 := by norm_num [Velocity.dot]
  obtain ⟨-, -, hspec, hsign, -⟩ := factors_spec 0 ⟨3, 4⟩ ⟨-6, -8⟩
  obtain ⟨s, hs⟩ := hspec.isOk.mpr (by rw [hmine, htheirs]; norm_num)
  obtain ⟨-, hagainst, hlength, -⟩ := hsign s hs
  exact ⟨s, hs, hagainst hdot, hlength.trans htheirs⟩

end CurrentDrift.Scaling
