import CurrentDrift.Proofs.Scalar.Exact
import CurrentDrift.Geo.Velocity

/-! # Lengths of velocities

Over real numbers the length of a velocity is that of a vector of the plane. -/

namespace CurrentDrift.Velocity

theorem lengthSquared_eq (v : Velocity ℝ) : v.lengthSquared = v.u ^ 2 + v.v ^ 2 := by
  rw [sq, sq]
  rfl

theorem length_eq (v : Velocity ℝ) : v.length = √(v.u ^ 2 + v.v ^ 2) := by
  rw [← lengthSquared_eq]
  rfl

/-- The length of a velocity is the one whose square is right. -/
theorem length_eq_of_sq {v : Velocity ℝ} {x : ℝ} (hx : 0 ≤ x) (h : v.u ^ 2 + v.v ^ 2 = x ^ 2) :
    v.length = x := by
  rw [length_eq, h, Real.sqrt_sq hx]

theorem length_multiple {c : ℝ} (hc : 0 ≤ c) (x y : ℝ) :
    (⟨c * x, c * y⟩ : Velocity ℝ).length = c * √(x ^ 2 + y ^ 2) := by
  apply length_eq_of_sq (by positivity)
  rw [mul_pow _ (√_), Real.sq_sqrt (by positivity)]
  ring

theorem length_nonneg (v : Velocity ℝ) : 0 ≤ v.length := by
  rw [length_eq]
  exact Real.sqrt_nonneg _

theorem sq_length (v : Velocity ℝ) : v.length ^ 2 = v.lengthSquared := by
  rw [length_eq, Real.sq_sqrt (by positivity), lengthSquared_eq]

theorem length_scale (v : Velocity ℝ) (c : ℝ) : (v.scale c).length = |c| * v.length := by
  apply length_eq_of_sq (mul_nonneg (abs_nonneg c) v.length_nonneg)
  rw [mul_pow, sq_abs, sq_length, lengthSquared_eq, scale]
  ring

theorem dot_scale (v w : Velocity ℝ) (c : ℝ) : (v.scale c).dot w = c * v.dot w := by
  change v.u * c * w.u + v.v * c * w.v = c * (v.u * w.u + v.v * w.v)
  ring

end CurrentDrift.Velocity
