import Mathlib.Algebra.Order.ToIntervalMod
import CurrentDrift.Proofs.Drift.Interpolation

/-! # The period of a cyclic series

A cyclic series repeats the values of its range, and the first time of each repetition is the last
one of the repetition before it. Main statement: over real numbers the series has its first value at
all these times but the end of its own range, where it has its last value. It is periodic exactly if
the two are equal. -/

namespace CurrentDrift

/-! ## Remainders -/

theorem abs_sub_truncReal_lt_one (x : ℝ) : |x - truncReal x| < 1 := by
  rw [abs_lt]
  unfold truncReal
  split
  · constructor <;> linarith [Int.floor_le x, Int.lt_floor_add_one x]
  · constructor <;> linarith [Int.le_ceil x, Int.ceil_lt_add_one x]

/-- The part of a quotient below a whole number, from the part that is cut off. -/
theorem fract_eq_ite (x : ℝ) :
    Int.fract x = if x - truncReal x < 0 then x - truncReal x + 1 else x - truncReal x := by
  obtain ⟨hlow, hhigh⟩ := abs_lt.mp (abs_sub_truncReal_lt_one x)
  rw [Int.fract_eq_iff]
  split
  · next hneg => exact ⟨by linarith, by linarith, truncReal x - 1, by push_cast; ring⟩
  · next hneg => exact ⟨not_lt.mp hneg, hhigh, truncReal x, by ring⟩

theorem Scalar.modulo_eq_mul_fract {b : ℝ} (hb : 0 < b) (a : ℝ) :
    Scalar.modulo a b = b * Int.fract (a / b) := by
  have hfmod : Scalar.fmod a b = b * (a / b - truncReal (a / b)) := by
    rw [mul_sub, mul_div_cancel₀ _ hb.ne']
    rfl
  have habs : Scalar.abs b = b := abs_of_pos hb
  have hzero : (0.0 : ℝ) = b * 0 := by norm_num
  have hneg : b * (a / b - truncReal (a / b)) < 0.0 ↔ a / b - truncReal (a / b) < 0 := by
    rw [hzero, mul_lt_mul_iff_right₀ hb]
  rw [Scalar.modulo, hfmod, habs, fract_eq_ite]
  simp only [hneg]
  split
  · ring
  · rfl

namespace TimeSeries

variable {s : TimeSeries ℝ} {t v : ℝ}

noncomputable def period (s : TimeSeries ℝ) : ℝ := s.last.1 - s.first.1

/-- The time in the range that a time stands for if the range repeats itself. -/
noncomputable def wrapped (s : TimeSeries ℝ) (t : ℝ) : ℝ :=
  s.first.1 + s.period * Int.fract ((t - s.first.1) / s.period)

/-- A point on the line through two neighbouring points of a series. -/
def Passes (s : TimeSeries ℝ) (t v : ℝ) : Prop :=
  ∃ (i : Nat) (p q : ℝ × ℝ), s.points[i]? = some p ∧ s.points[i + 1]? = some q ∧
    p.1 ≤ t ∧ t ≤ q.1 ∧ v = p.2 + (t - p.1) / (q.1 - p.1) * (q.2 - p.2)

/-! ## Times in the range -/

section Wrapped

variable (hperiod : 0 < s.period)

include hperiod

theorem wrapped_eq_toIcoMod (t : ℝ) : s.wrapped t = toIcoMod hperiod s.first.1 t := by
  rw [toIcoMod_eq_add_fract_mul, mul_comm, wrapped]

theorem wrapped_mem_range (t : ℝ) : s.wrapped t ∈ Set.Ico s.first.1 s.last.1 := by
  have hmem := toIcoMod_mem_Ico hperiod s.first.1 t
  rwa [← wrapped_eq_toIcoMod, period, add_sub_cancel] at hmem

theorem wrapped_of_mem_range (ht : t ∈ Set.Ico s.first.1 s.last.1) : s.wrapped t = t := by
  rw [wrapped_eq_toIcoMod hperiod, toIcoMod_eq_self, period, add_sub_cancel]
  exact ht

theorem wrapped_add_mul_period (t : ℝ) (k : ℤ) : s.wrapped (t + k * s.period) = s.wrapped t := by
  rw [wrapped_eq_toIcoMod hperiod, ← zsmul_eq_mul, toIcoMod_add_zsmul, wrapped_eq_toIcoMod]

theorem wrapped_last : s.wrapped s.last.1 = s.first.1 := by
  have hlast : s.last.1 = s.first.1 + s.period := (add_sub_cancel ..).symm
  rw [wrapped_eq_toIcoMod hperiod, hlast, toIcoMod_apply_right]

end Wrapped

/-! ## The broken line at such times -/

theorem one_lt_size (hperiod : 0 < s.period) : 1 < s.points.size := by
  by_contra hle
  have hone : s.points.size = 1 := le_antisymm (not_lt.mp hle) s.points_pos
  have hlast : s.last = s.first := by simp [last, first, hone]
  rw [period, hlast, sub_self] at hperiod
  exact lt_irrefl _ hperiod

namespace IsIncreasing

variable (h : s.IsIncreasing)

include h

theorem exists_passes (hsize : 1 < s.points.size) (hfirst : s.first.1 ≤ t) (hlast : t ≤ s.last.1) :
    ∃ v, s.Passes t v := by
  obtain ⟨k, hk⟩ := h.exists_haveCome t
  have hpos : 0 < k := (hk 0).mp (hasCome_iff.mpr ⟨_, s.getElem?_first, hfirst⟩)
  rcases Nat.eq_or_lt_of_le hk.le_size with rfl | hlt
  · obtain ⟨i, hi⟩ := Nat.exists_eq_add_of_le' (Nat.succ_le_of_lt hsize)
    have hend : s.points[i + 1]? = some s.last := s.getElem?_succ_last hi.symm
    obtain ⟨q, hq, hcome⟩ := hasCome_iff.mp ((hk (i + 1)).mpr (by omega))
    obtain rfl := Option.some.inj (hend.symm.trans hq)
    obtain ⟨p, hp⟩ := s.exists_point (i := i) (by omega)
    exact ⟨_, i, p, s.last, hp, hend, (h i.lt_succ_self hp hend).le.trans hcome, hlast, rfl⟩
  · obtain ⟨i, rfl⟩ := Nat.exists_eq_add_of_le' hpos
    obtain ⟨p, hp, hcome⟩ := hasCome_iff.mp ((hk i).mpr i.lt_succ_self)
    obtain ⟨q, hq⟩ := s.exists_point hlt
    have hnext : ¬ q.1 ≤ t := fun hle =>
      Nat.lt_irrefl _ ((hk (i + 1)).mp (hasCome_iff.mpr ⟨q, hq, hle⟩))
    exact ⟨_, i, p, q, hp, hq, hcome, (not_le.mp hnext).le, rfl⟩

theorem interpolate_of_passes (hv : s.Passes t v) : s.interpolate t = v := by
  obtain ⟨i, p, q, hp, hq, hpt, htq, rfl⟩ := hv
  exact h.interpolate_segment hp hq hpt htq

end IsIncreasing

/-! ## The cyclic series -/

section Cyclic

variable (h : s.IsIncreasing) (he : s.extrapolation = .cyclic) (hperiod : 1 / 10 ^ 12 ≤ s.period)

include hperiod

theorem period_pos : 0 < s.period :=
  lt_of_lt_of_le (by norm_num) hperiod

include he

theorem value?_cyclic (ht : t ≠ s.last.1) : s.value? t = some (s.interpolate (s.wrapped t)) := by
  have hpos : 0 < s.period := period_pos hperiod
  by_cases hout : t < s.first.1 ∨ s.last.1 < t
  · have hleast : (1.0e-12 : ℝ) = 1 / 10 ^ 12 := by norm_num
    have hlong : ¬ s.last.1 - s.first.1 < 1.0e-12 := not_lt.mpr (hleast.trans_le hperiod)
    have hmodulo : Scalar.modulo (t - s.first.1) (s.last.1 - s.first.1) =
        s.period * Int.fract ((t - s.first.1) / s.period) := Scalar.modulo_eq_mul_fract hpos _
    rw [value?_of_outside hout]
    simp only [extrapolate?, he, if_neg hlong, hmodulo]
    rfl
  · rw [not_or, not_lt, not_lt] at hout
    rw [value?_of_mem_range hout.1 hout.2,
      wrapped_of_mem_range hpos ⟨hout.1, lt_of_le_of_ne hout.2 ht⟩]

theorem value?_add_mul_period (ht : t ≠ s.last.1) {k : ℤ} (hk : t + k * s.period ≠ s.last.1) :
    s.value? (t + k * s.period) = s.value? t := by
  rw [value?_cyclic he hperiod ht, value?_cyclic he hperiod hk,
    wrapped_add_mul_period (period_pos hperiod)]

namespace IsIncreasing

include h

/-- Other repetitions of the range end with the first value of the next one. -/
theorem value?_last_add_mul_period {k : ℤ} (hk : k ≠ 0) :
    s.value? (s.last.1 + k * s.period) = some s.first.2 := by
  have hpos : 0 < s.period := period_pos hperiod
  have hne : s.last.1 + k * s.period ≠ s.last.1 := by
    rw [Ne, add_eq_left]
    exact mul_ne_zero (Int.cast_ne_zero.mpr hk) hpos.ne'
  rw [value?_cyclic he hperiod hne, wrapped_add_mul_period hpos, wrapped_last hpos,
    h.interpolate_point s.getElem?_first]

theorem value?_eq_some_iff (hv : s.Passes (s.wrapped t) v) :
    s.value? t = some v ↔ t ≠ s.last.1 ∨ s.first.2 = s.last.2 := by
  have hpos : 0 < s.period := period_pos hperiod
  have hinterpolate : s.interpolate (s.wrapped t) = v := h.interpolate_of_passes hv
  by_cases ht : t = s.last.1
  · subst ht
    rw [wrapped_last hpos, h.interpolate_point s.getElem?_first] at hinterpolate
    rw [h.value?_point s.getElem?_last, ← hinterpolate, Option.some_inj]
    simp [eq_comm]
  · rw [value?_cyclic he hperiod ht, hinterpolate]
    simp [ht]

theorem periodic_iff :
    (∀ (t : ℝ) (k : ℤ), s.value? (t + k * s.period) = s.value? t) ↔ s.first.2 = s.last.2 := by
  have hlast : s.value? s.last.1 = some s.last.2 := h.value?_point s.getElem?_last
  constructor
  · intro hperiodic
    have hnext := hperiodic s.last.1 1
    rw [h.value?_last_add_mul_period he hperiod one_ne_zero, hlast] at hnext
    exact Option.some.inj hnext
  · -- With equal ends a value at the last time is the one a repetition begins with.
    intro heq
    have hpos : 0 < s.period := period_pos hperiod
    have hall : ∀ t, s.value? t = some (s.interpolate (s.wrapped t)) := by
      intro t
      by_cases ht : t = s.last.1
      · rw [ht, hlast, wrapped_last hpos, h.interpolate_point s.getElem?_first, heq]
      · exact value?_cyclic he hperiod ht
    intro t k
    rw [hall, hall, wrapped_add_mul_period hpos]

end IsIncreasing

end Cyclic

/-- A cyclic series repeats the broken line of its points at all times but the end of its range,
where it has its last value and not the first one, with which all other repetitions end. So it is
periodic exactly if these two are equal. -/
theorem IsMade.value?_cyclic_iff {times values : List ℝ} (h : IsMade times values s)
    (hperiod : 1 / 10 ^ 12 ≤ s.period) :
    (∀ t, ∃ v, s.Passes (s.wrapped t) v) ∧
      (∀ t v, s.Passes (s.wrapped t) v →
        ((s.extrapolatedBy .cyclic).value? t = some v ↔
          t ≠ s.last.1 ∨ s.first.2 = s.last.2)) ∧
      (s.extrapolatedBy .cyclic).value? s.last.1 = some s.last.2 ∧
      (∀ k : ℤ, k ≠ 0 →
        (s.extrapolatedBy .cyclic).value? (s.last.1 + k * s.period) = some s.first.2) ∧
      (∀ (t : ℝ) (k : ℤ), t ≠ s.last.1 → t + k * s.period ≠ s.last.1 →
        (s.extrapolatedBy .cyclic).value? (t + k * s.period) =
          (s.extrapolatedBy .cyclic).value? t) ∧
      ((∀ (t : ℝ) (k : ℤ), (s.extrapolatedBy .cyclic).value? (t + k * s.period) =
        (s.extrapolatedBy .cyclic).value? t) ↔ s.first.2 = s.last.2) := by
  have hpos : 0 < s.period := period_pos hperiod
  have hinc : (s.extrapolatedBy .cyclic).IsIncreasing := h.isIncreasing
  refine ⟨fun t => ?_, fun t v hv => hinc.value?_eq_some_iff rfl hperiod hv,
    hinc.value?_point (s.extrapolatedBy .cyclic).getElem?_last,
    fun k hk => hinc.value?_last_add_mul_period rfl hperiod hk,
    fun t k ht hk => value?_add_mul_period (s := s.extrapolatedBy .cyclic) rfl hperiod ht hk,
    hinc.periodic_iff rfl hperiod⟩
  obtain ⟨hfirst, hlast⟩ := wrapped_mem_range hpos t
  exact h.isIncreasing.exists_passes (one_lt_size hpos) hfirst hlast.le

section Tide

theorem period_tide : tide.period = 2 := by
  norm_num [period]

theorem value?_cyclic_iff_tide :
    (tide.extrapolatedBy .cyclic).value? 1 = some (-1) ∧
      (tide.extrapolatedBy .cyclic).value? 3 = some 0 ∧
      (tide.extrapolatedBy .cyclic).value? (3 / 2) = some (1 / 2) := by
  have hwrapped : tide.wrapped (3 / 2) = -1 / 2 := by
    have hshift := wrapped_add_mul_period (s := tide) (by norm_num [period_tide]) (-1 / 2) 1
    have hself := wrapped_of_mem_range (s := tide) (t := -1 / 2) (by norm_num [period_tide])
      (by norm_num)
    norm_num [period_tide] at hshift hself ⊢
    rw [hshift, hself]
  obtain ⟨-, hiff, hend, hnext, -, -⟩ := isMade_tide.value?_cyclic_iff (by norm_num [period_tide])
  refine ⟨?_, ?_, (hiff (3 / 2) (1 / 2) ?_).mpr (.inl (by norm_num))⟩
  · rwa [last_tide] at hend
  · have hthree := hnext 1 one_ne_zero
    norm_num [period_tide] at hthree
    exact hthree
  · rw [hwrapped]
    exact ⟨0, (-1, 0), (0, 1), rfl, rfl, by norm_num, by norm_num, by norm_num⟩

/-- At the end of its range the tide is not yet back at its first value. -/
theorem not_periodic_tide :
    IsMade [-1, 0, 1] [0, 1, -1] tide ∧ 1 / 10 ^ 12 ≤ tide.period ∧
      (¬ ∀ (t : ℝ) (k : ℤ), (tide.extrapolatedBy .cyclic).value? (t + k * tide.period) =
        (tide.extrapolatedBy .cyclic).value? t) ∧
      ¬ ∀ t v, tide.Passes (tide.wrapped t) v → (tide.extrapolatedBy .cyclic).value? t = some v := by
  have hperiod : 1 / 10 ^ 12 ≤ tide.period := by norm_num [period_tide]
  have hinc : (tide.extrapolatedBy .cyclic).IsIncreasing := isMade_tide.isIncreasing
  have hends : tide.first.2 ≠ tide.last.2 := by norm_num
  refine ⟨isMade_tide, hperiod, fun hperiodic => ?_, fun hpasses => ?_⟩
  · exact hends ((hinc.periodic_iff rfl hperiod).mp hperiodic)
  · have hvalue : tide.Passes (tide.wrapped tide.last.1) 0 := by
      rw [wrapped_last (period_pos hperiod)]
      exact ⟨0, (-1, 0), (0, 1), rfl, rfl, by norm_num, by norm_num, by norm_num⟩
    rcases (hinc.value?_eq_some_iff rfl hperiod hvalue).mp (hpasses _ _ hvalue) with hlast | heq
    · exact hlast rfl
    · exact hends heq

end Tide

end TimeSeries

end CurrentDrift
