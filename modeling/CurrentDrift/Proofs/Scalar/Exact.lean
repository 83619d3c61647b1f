import Mathlib.Analysis.Real.Sqrt
import Mathlib.Analysis.SpecialFunctions.Trigonometric.Basic
import CurrentDrift.Random.Source

/-! # Exact scalars

Where nothing is rounded, numbers are ordered and subtracted as one expects. Real numbers are such
scalars, and over them every random draw lies between its two ends. -/

namespace CurrentDrift

/-! ## Laws -/

/-- Scalars whose order is total and whose differences are exact. -/
class Scalar.IsExact (α : Type) [Scalar α] : Prop where
  le_trans : ∀ {a b c : α}, a ≤ b → b ≤ c → a ≤ c
  le_total : ∀ a b : α, a ≤ b ∨ b ≤ a
  not_le : ∀ {a b : α}, ¬ a ≤ b ↔ b < a
  sub_self : ∀ a : α, a - a = 0.0
  sub_nonneg : ∀ {a b : α}, 0.0 ≤ a - b ↔ b ≤ a

namespace Scalar

variable {α : Type} [Scalar α]

/-- A number lies between two others, whichever of these is the larger one. -/
def Between (a b x : α) : Prop := a ≤ x ∧ x ≤ b ∨ b ≤ x ∧ x ≤ a

namespace IsExact

variable [IsExact α]

theorem not_lt {a b : α} : ¬ a < b ↔ b ≤ a := by
  rw [← IsExact.not_le, Classical.not_not]

theorem le_refl (a : α) : a ≤ a :=
  (IsExact.le_total a a).elim id id

theorem le_of_lt {a b : α} (h : a < b) : a ≤ b :=
  (IsExact.le_total a b).elim id fun hba => absurd hba (IsExact.not_le.mpr h)

theorem least_le_greatest (a b : α) : least a b ≤ greatest a b := by
  unfold least greatest
  split
  · next hba =>
    rw [if_neg (not_lt.mpr (le_of_lt hba))]
    exact le_of_lt hba
  · split
    · next hab => exact le_of_lt hab
    · exact le_refl a

theorem between_of_least_greatest {a b x : α} (hleast : least a b ≤ x)
    (hgreatest : x ≤ greatest a b) : Between a b x := by
  by_cases hba : b < a
  · rw [least, if_pos hba] at hleast
    rw [greatest, if_neg (not_lt.mpr (le_of_lt hba))] at hgreatest
    exact .inr ⟨hleast, hgreatest⟩
  · rw [least, if_neg hba] at hleast
    have hab : greatest a b ≤ b := by
      unfold greatest
      split
      · exact le_refl b
      · exact not_lt.mp hba
    exact .inl ⟨hleast, IsExact.le_trans hgreatest hab⟩

end IsExact

end Scalar

/-! ## Real numbers -/

/-- A real number without its fraction. -/
noncomputable def truncReal (x : ℝ) : ℤ := if 0 ≤ x then ⌊x⌋ else ⌈x⌉

/-- The nearest whole number, a half away from zero. -/
noncomputable def roundReal (x : ℝ) : ℤ := if 0 ≤ x then ⌊x + 1 / 2⌋ else ⌈x - 1 / 2⌉

/-- No real number is the next smaller one, and none is needed where nothing is rounded. -/
noncomputable instance : Scalar ℝ where
  decLt _ _ := Classical.propDecidable _
  decLe _ _ := Classical.propDecidable _
  ofInt n := n
  abs x := |x|
  sqrt := Real.sqrt
  cos := Real.cos
  pi := Real.pi
  fmod a b := a - b * truncReal (a / b)
  isNaN _ := false
  isFinite _ := true
  nearestInt32 x := Scalar.clampInt32 (roundReal x)
  truncInt32 x := Scalar.clampInt32 (truncReal x)
  shrink _ x := x

instance : Scalar.IsExact ℝ where
  le_trans := le_trans
  le_total := le_total
  not_le := not_le
  sub_self a := by norm_num
  sub_nonneg {a b} := by norm_num

/-- Real numbers whose quotients and remainders by zero are these. What comes out the same whatever
they are rests on no division by zero. -/
@[reducible] noncomputable def Scalar.dividingByZero (quotient remainder : ℝ → ℝ) : Scalar ℝ where
  div a b := if b = 0 then quotient a else a / b
  fmod a b := if b = 0 then remainder a else Scalar.fmod a b
  decLt := Scalar.decLt
  decLe := Scalar.decLe
  ofInt := Scalar.ofInt
  abs := Scalar.abs
  sqrt := Scalar.sqrt
  cos := Scalar.cos
  pi := Scalar.pi
  isNaN := Scalar.isNaN
  isFinite := Scalar.isFinite
  nearestInt32 := Scalar.nearestInt32
  truncInt32 := Scalar.truncInt32
  shrink := Scalar.shrink

/-! ## Random draws -/

namespace Random

/-- Every draw lies between its two ends. -/
def StaysBetween (α γ : Type) [Scalar α] [RandomSource α γ] : Prop :=
  ∀ (low high : α) (g : γ), low ≤ high →
    low ≤ (RandomSource.draw low high g).1 ∧ (RandomSource.draw low high g).1 ≤ high

theorem unitInterval_eq (w : UInt64) : unitInterval w = ((w >>> 12).toNat : ℝ) / 2 ^ 52 := by
  have h : unitInterval w = (((w >>> 12).toNat : ℤ) : ℝ) / 4503599627370496.0 := rfl
  rw [h, Int.cast_natCast]
  norm_num

theorem greatestUnit_eq : (greatestUnit : ℝ) = (2 ^ 52 - 1) / 2 ^ 52 := by
  unfold greatestUnit
  norm_num

theorem unitInterval_nonneg (w : UInt64) : (0 : ℝ) ≤ unitInterval w := by
  rw [unitInterval_eq]
  positivity

theorem unitInterval_le_greatestUnit (w : UInt64) : (unitInterval w : ℝ) ≤ greatestUnit := by
  have hlt : (w >>> 12).toNat < 2 ^ 52 := by
    have hw : w.toNat < 2 ^ 64 := w.toNat_lt
    have hshift : (w >>> 12).toNat = w.toNat / 2 ^ 12 := by
      rw [UInt64.toNat_shiftRight, Nat.shiftRight_eq_div_pow]
      rfl
    omega
  have hle : ((w >>> 12).toNat : ℝ) + 1 ≤ 2 ^ 52 := by exact_mod_cast hlt
  rw [unitInterval_eq, greatestUnit_eq]
  gcongr
  linarith

theorem between_eq (low high : ℝ) (w : UInt64) :
    between low high w = unitInterval w / greatestUnit * (high - low) + low := by
  have h : between low high w = unitInterval w * ((high - low) / greatestUnit) + low := rfl
  rw [h]
  ring

/-- A word stands for a share of the range, which is at most the whole of it. -/
theorem staysBetween_real (γ : Type) [WordSource γ] : StaysBetween ℝ γ := by
  intro low high g h
  let share : ℝ := unitInterval (WordSource.next g).1 / greatestUnit
  have hpos : (0 : ℝ) < greatestUnit := by rw [greatestUnit_eq]; norm_num
  have hnonneg : 0 ≤ share := div_nonneg (unitInterval_nonneg _) hpos.le
  have hle : share ≤ 1 := (div_le_one hpos).mpr (unitInterval_le_greatestUnit _)
  have hwidth : 0 ≤ high - low := sub_nonneg.mpr h
  have hdraw : (RandomSource.draw low high g).1 = share * (high - low) + low :=
    between_eq low high _
  rw [hdraw]
  constructor
  · have := mul_nonneg hnonneg hwidth
    linarith
  · have := mul_le_of_le_one_left hwidth hle
    linarith

end Random

end CurrentDrift
