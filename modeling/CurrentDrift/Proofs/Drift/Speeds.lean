import Mathlib.Analysis.Real.Sqrt
import CurrentDrift.Proofs.Drift.InactiveFactor
import CurrentDrift.Proofs.Drift.ScaleFactor
import CurrentDrift.Proofs.Outcome

/-! # The speeds that a pattern shows

For a point a pattern shows the speed of its field and that speed multiplied by its scale. Main
statement: the first one is the length of the velocity that is moved by, and the second one is so up
to its sign, which is that of the scale. There are three ways to a negative scale, and then the
second speed is not a length. -/

namespace CurrentDrift

variable {β γ : Type}

/-! ## Speeds under a scale -/

namespace Velocity

/-- What the two speeds are worth where a field flows with a velocity that is scaled. -/
structure HasSpeeds (raw : Velocity ℝ) (scale : ℝ) (speeds : ℝ × ℝ) : Prop where
  unscaled : speeds.1 = raw.length
  unscaled_nonneg : 0 ≤ speeds.1
  abs_scaled : |speeds.2| = (raw.scale scale).length
  scaled_iff : speeds.2 = (raw.scale scale).length ↔ 0 ≤ scale ∨ raw.length = 0
  neg_iff : speeds.2 < 0 ↔ scale < 0 ∧ 0 < raw.length

theorem hasSpeeds (raw : Velocity ℝ) (scale : ℝ) :
    raw.HasSpeeds scale (raw.length, scale * raw.length) where
  unscaled := rfl
  unscaled_nonneg := raw.length_nonneg
  abs_scaled := by rw [length_scale, abs_mul, abs_of_nonneg raw.length_nonneg]
  scaled_iff := by rw [length_scale, mul_eq_mul_right_iff, eq_comm, abs_eq_self]
  neg_iff := by
    have hlength := raw.length_nonneg
    rw [mul_neg_iff]
    constructor
    · rintro (⟨-, hneg⟩ | hneg)
      · exact absurd hlength (not_le.mpr hneg)
      · exact hneg
    · exact .inr

/-- A velocity without length is across every other one. -/
theorem dot_eq_zero_of_length_eq_zero {v w : Velocity ℝ} (h : w.length = 0) : v.dot w = 0 := by
  have hsq : w.u ^ 2 + w.v ^ 2 = 0 := by
    rw [← lengthSquared_eq, ← sq_length, h, sq, mul_zero]
  have hu : w.u = 0 := by nlinarith [sq_nonneg w.u, sq_nonneg w.v]
  have hv : w.v = 0 := by nlinarith [sq_nonneg w.u, sq_nonneg w.v]
  rw [dot, hu, hv, mul_zero, mul_zero, add_zero]

end Velocity

/-! ## Where a scale comes from -/

namespace Scaling

variable {α : Type} [Scalar α] {field : FlowField α} {reference : Point} {scale : α}
  {other : Option (Except (DriftError α) (Velocity α))}

theorem exists_of_factor_toSpeed {target : α}
    (h : factor field (.toSpeed target) reference other = .ok scale) :
    ∃ mine, sampleAt field reference = .ok mine ∧ scaleToSpeed target mine = .ok scale := by
  obtain ⟨mine, hmine, hscale⟩ := bind_eq_ok_iff.mp h
  exact ⟨mine, hmine, mapError_eq_ok_iff.mp hscale⟩

theorem exists_of_factor_toPattern {name : String}
    (h : factor field (.toPattern name) reference other = .ok scale) :
    ∃ mine theirs, sampleAt field reference = .ok mine ∧ other = some (.ok theirs) ∧
      scaleToVelocity mine theirs = .ok scale := by
  cases other with
  | none => contradiction
  | some found =>
      obtain ⟨theirs, htheirs, h⟩ := bind_eq_ok_iff.mp h
      obtain ⟨mine, hmine, hscale⟩ := bind_eq_ok_iff.mp h
      rw [mapError_eq_ok_iff.mp htheirs]
      exact ⟨mine, theirs, hmine, rfl, mapError_eq_ok_iff.mp hscale⟩

end Scaling

/-! ## Negative scales -/

namespace Fleet

/-- A pattern is turned round by its hydrology factor, by the speed that is wanted of it, or by a
pattern that it matches and that flows against it. -/
inductive IsReversed (f : Fleet ℝ β γ) (i : f.Index) (scale : ℝ) : Prop where
  | byHydrology (hh : (f.pattern i).hydrology? = some scale) (hneg : scale < 0)
  | bySpeed {target : ℝ} {mine : Velocity ℝ} (hh : (f.pattern i).hydrology? = none)
      (hrule : (f.pattern i).rule = .toSpeed target)
      (hmine : Scaling.sampleAt (f.pattern i).field (f.pattern i).reference = .ok mine)
      (hscale : Scaling.scaleToSpeed target mine = .ok scale) (hneg : target < 0)
  | byPattern {j : f.Index} {mine theirs : Velocity ℝ} (hmatched : f.matched? i = some j)
      (hmine : Scaling.sampleAt (f.pattern i).field (f.pattern i).reference = .ok mine)
      (hscale : Scaling.scaleToVelocity mine theirs = .ok scale) (hneg : mine.dot theirs < 0)

variable {f : Fleet ℝ β γ} {i : f.Index} {scale : ℝ}

theorem IsReversed.neg (h : f.IsReversed i scale) : scale < 0 := by
  cases h with
  | byHydrology _ hneg => exact hneg
  | @bySpeed target mine _ _ _ hscale hneg =>
      rw [← Scaling.mul_length_of_scaleToSpeed hscale] at hneg
      exact neg_of_mul_neg_left hneg mine.length_nonneg
  | @byPattern j mine theirs _ _ hscale hneg =>
      apply lt_of_le_of_ne ((Scaling.sign_of_scaleToVelocity hscale).2 hneg)
      rintro rfl
      have hlength := Scaling.length_of_scaleToVelocity hscale
      rw [Velocity.length_scale, abs_zero, zero_mul] at hlength
      exact hneg.ne (Velocity.dot_eq_zero_of_length_eq_zero hlength.symm)

theorem isReversed_of_ruling {other : Option (Except (DriftError ℝ) (Velocity ℝ))}
    (hother : f.matched? i = none → other = none) (h : f.ruling i other = .ok scale)
    (hneg : scale < 0) : f.IsReversed i scale := by
  cases hh : (f.pattern i).hydrology? with
  | some c =>
      rw [ruling_of_hydrology f other hh] at h
      obtain rfl := Except.ok.inj h
      exact .byHydrology hh hneg
  | none =>
      simp only [ruling, hh] at h
      cases hrule : (f.pattern i).rule with
      | unscaled =>
          rw [hrule] at h
          obtain rfl := Except.ok.inj h
          norm_num at hneg
      | toSpeed target =>
          rw [hrule] at h
          obtain ⟨mine, hmine, hscale⟩ := Scaling.exists_of_factor_toSpeed h
          have hpos := ((Scaling.scaleSpec_scaleToSpeed target mine).factor _ hscale).2.2
          refine .bySpeed hh hrule hmine hscale ?_
          rw [← Scaling.mul_length_of_scaleToSpeed hscale]
          exact mul_neg_of_neg_of_pos hneg hpos
      | toPattern name =>
          rw [hrule] at h
          obtain ⟨mine, theirs, hmine, htheirs, hscale⟩ := Scaling.exists_of_factor_toPattern h
          obtain ⟨j, hj⟩ : ∃ j, f.matched? i = some j := by
            rw [← Option.ne_none_iff_exists']
            intro hnone
            rw [hother hnone] at htheirs
            contradiction
          refine .byPattern hj hmine hscale ?_
          by_contra hdot
          exact not_le.mpr hneg ((Scaling.sign_of_scaleToVelocity hscale).1 (not_lt.mp hdot))

theorem speedsAt_of_rawFlow (s : f.States) {i : f.Index} {point : Point} {raw : Velocity ℝ}
    (hraw : (f.pattern i).rawFlow point = .ok raw) :
    f.speedsAt s i point = .ok (raw.length, (s.get i).scale * raw.length) := by
  rw [speedsAt, Pattern.speedsUnder, hraw]
  rfl

section History

variable [TableSupply ℝ β γ] [RandomSource ℝ γ]

/-- Between two calls a scale is negative exactly if the pattern is turned round in one of the three
ways, whatever has been called. -/
theorem scale_after_neg_iff (past : List (Call f)) (i : f.Index) :
    ((f.after past).get i).scale < 0 ↔ f.IsReversed i ((f.after past).get i).scale := by
  refine ⟨fun hneg => ?_, IsReversed.neg⟩
  rcases f.finds_after past i with h | ⟨other, hother, h⟩
  · have hone : ((f.after past).get i).scale = 1.0 := congrArg Prod.fst h
    rw [hone] at hneg
    norm_num at hneg
  · have hscale : ((f.after past).get i).scale = (f.ruling i other).toOption.getD 0.0 :=
      (congrArg Prod.fst h).trans (Scaling.fst_found _)
    cases hruling : f.ruling i other with
    | error e =>
        rw [hruling] at hscale
        rw [hscale] at hneg
        norm_num [Except.toOption] at hneg
    | ok c =>
        rw [hruling] at hscale
        rw [hscale] at hneg ⊢
        exact isReversed_of_ruling hother hruling hneg

/-! ## What a pattern shows -/

/-- A query of a pattern, whatever has been called before it, gives the velocity of the field under
the scale that there is after it. -/
theorem scaledFlow_eq_after (past : List (Call f)) (time : ℝ) (i : f.Index) {point : Point}
    {raw : Velocity ℝ} (hraw : (f.pattern i).rawFlow point = .ok raw) :
    (f.scaledFlow time (f.after past) i point).1.map Prod.fst =
      .ok ((raw.scale ((f.after (.query time i point :: past)).get i).scale).scale
        ((f.pattern i).timeFactor time)) := by
  rw [scaledFlow_fst, Pattern.flowUnder, hraw]
  rfl

/-- After every history, a pattern shows two speeds for a point of its mesh. -/
theorem speedsAt_spec (f : Fleet ℝ β γ) (past : List (Call f)) (i : f.Index) (point : Point)
    (raw : Velocity ℝ) (hraw : (f.pattern i).rawFlow point = .ok raw) :
    (∃ speeds, f.speedsAt (f.after past) i point = .ok speeds ∧
        raw.HasSpeeds ((f.after past).get i).scale speeds) ∧
      (((f.after past).get i).scale < 0 ↔ f.IsReversed i ((f.after past).get i).scale) ∧
      ∀ time, (f.scaledFlow time (f.after past) i point).1.map Prod.fst =
        .ok ((raw.scale ((f.after (.query time i point :: past)).get i).scale).scale
          ((f.pattern i).timeFactor time)) :=
  ⟨⟨_, speedsAt_of_rawFlow _ hraw, raw.hasSpeeds _⟩, scale_after_neg_iff past i,
    fun time => scaledFlow_eq_after past time i hraw⟩

end History

/-- A pattern that is to be moved against its own flow. -/
noncomputable def countercurrent : Fleet ℝ (Sampler ℝ) WordScript :=
  ⟨[⟨"map", [.current { Pattern.plain "a" (FlowField.oneTriangle ⟨3.0, 4.0⟩) Sampler.default
    (WordScript.ofList []) with rule := .toSpeed (-10.0), reference := ⟨100000, 100000⟩ }]⟩]⟩

namespace countercurrent

def a : countercurrent.Index := ⟨0, Nat.one_pos⟩

theorem length_flow : (⟨3, 4⟩ : Velocity ℝ).length = 5 :=
  Velocity.length_eq_of_sq (by norm_num) (by norm_num)

theorem field_eq : (countercurrent.pattern a).field = FlowField.oneTriangle ⟨3, 4⟩ := by
  change FlowField.oneTriangle ⟨(3.0 : ℝ), 4.0⟩ = _
  norm_num

theorem rule_eq : (countercurrent.pattern a).rule = .toSpeed (-10) := by
  change ScaleRule.toSpeed (-10.0 : ℝ) = _
  norm_num

theorem rawFlow : (countercurrent.pattern a).rawFlow ⟨100000, 100000⟩ = .ok ⟨3, 4⟩ := by
  rw [Pattern.rawFlow, field_eq, FlowField.sample_oneTriangle_inside]
  rfl

theorem scaleToSpeed_flow : Scaling.scaleToSpeed (-10) (⟨3, 4⟩ : Velocity ℝ) = .ok (-2) := by
  rw [Scaling.scaleToSpeed_eq, length_flow, if_neg (by norm_num), if_neg (by norm_num)]
  norm_num

theorem scale_after_query (time : ℝ) (point : Point) :
    ((countercurrent.after [.query time a point]).get a).scale = -2 := by
  rw [scale_first_query_of_idle countercurrent time point rfl,
    outcome_of_alone countercurrent _ _ _ rfl]
  have hreference : (countercurrent.pattern a).reference = ⟨100000, 100000⟩ := rfl
  rw [field_eq, rule_eq, hreference, Scaling.factor, Scaling.sampleAt,
    FlowField.sample_oneTriangle_inside]
  change ((Scaling.scaleToSpeed (-10) ⟨3, 4⟩).mapError _).toOption.getD 0.0 = _
  rw [scaleToSpeed_flow]
  rfl

end countercurrent

/-- The flow is moved twice as fast as it is, and the second speed is shown as `-10`. -/
theorem speedsAt_spec_countercurrent :
    (countercurrent.pattern countercurrent.a).rawFlow ⟨100000, 100000⟩ = .ok ⟨3, 4⟩ ∧
      ∃ speeds, countercurrent.speedsAt
          (countercurrent.after [.query 0 countercurrent.a ⟨100000, 100000⟩]) countercurrent.a
          ⟨100000, 100000⟩ = .ok speeds ∧
        (⟨3, 4⟩ : Velocity ℝ).HasSpeeds (-2) speeds ∧ speeds.2 < 0 := by
  obtain ⟨⟨speeds, hspeeds, hworth⟩, -⟩ := speedsAt_spec countercurrent
    [.query 0 countercurrent.a ⟨100000, 100000⟩] countercurrent.a ⟨100000, 100000⟩ ⟨3, 4⟩
    countercurrent.rawFlow
  rw [countercurrent.scale_after_query] at hworth
  refine ⟨countercurrent.rawFlow, speeds, hspeeds, hworth, hworth.neg_iff.mpr ⟨by norm_num, ?_⟩⟩
  rw [countercurrent.length_flow]
  norm_num

end Fleet

end CurrentDrift
