import Mathlib.Topology.Order.LeftRightNhds
import Mathlib.Topology.Algebra.Order.Field
import CurrentDrift.Proofs.Drift.SeriesOrder

/-! # Interpolation between the points of a series

Over real numbers a series is a broken line. Main statement: in its range it is the line through two
neighbouring points, at the points too and however it is extrapolated; out of its range it goes on
as its extrapolation says, and without a jump where it is clamped or prolonged. -/

namespace CurrentDrift.TimeSeries

/-! ## Between two points -/

section Search

variable {α : Type} [Scalar α] {s : TimeSeries α} {t : α}

theorem interpolate_of_haveCome {i : Nat} (h : s.HaveCome t (i + 1)) {p q : α × α}
    (hp : s.points[i]? = some p) (hq : s.points[i + 1]? = some q) :
    s.interpolate t = p.2 + (t - p.1) / (q.1 - p.1) * (q.2 - p.2) := by
  rw [interpolate, countCome_of_haveCome h]
  simp only [hp, hq]

theorem interpolate_of_haveCome_size {i : Nat} (h : s.HaveCome t (i + 1))
    (hsize : s.points.size = i + 1) : s.interpolate t = s.last.2 := by
  rw [interpolate, countCome_of_haveCome h]
  simp [← hsize]

end Search

section Ends

variable {α : Type} (s : TimeSeries α)

theorem getElem?_first : s.points[0]? = some s.first :=
  Array.getElem?_eq_getElem s.points_pos

theorem getElem?_last : s.points[s.points.size - 1]? = some s.last :=
  Array.getElem?_eq_getElem (Nat.sub_lt s.points_pos Nat.one_pos)

theorem getElem?_succ_last {i : Nat} (h : i + 2 = s.points.size) :
    s.points[i + 1]? = some s.last := by
  have hlast := s.getElem?_last
  rwa [← h] at hlast

theorem lt_size {i : Nat} {p : α × α} (h : s.points[i]? = some p) : i < s.points.size :=
  (Array.getElem?_eq_some_iff.mp h).1

theorem exists_point {i : Nat} (h : i < s.points.size) : ∃ p, s.points[i]? = some p :=
  ⟨_, Array.getElem?_eq_getElem h⟩

end Ends

/-! ## Increasing times -/

/-- Every time is before the ones that follow it. -/
def IsIncreasing (s : TimeSeries ℝ) : Prop :=
  ∀ ⦃i j : Nat⦄ ⦃p q : ℝ × ℝ⦄, i < j → s.points[i]? = some p → s.points[j]? = some q → p.1 < q.1

variable {times values : List ℝ} {s : TimeSeries ℝ}

theorem IsMade.isIncreasing (h : IsMade times values s) : s.IsIncreasing := by
  intro i j p q hij hp hq
  have hlt := pairwise_lt_of_isNaN_eq_false (isMade_iff.mp h).2.2.1 fun _ _ => rfl
  rw [List.pairwise_iff_getElem] at hlt
  have hi : times[i]? = some p.1 := by rw [← h.getElem?_fst, hp, Option.map_some]
  have hj : times[j]? = some q.1 := by rw [← h.getElem?_fst, hq, Option.map_some]
  obtain ⟨hi', hp'⟩ := List.getElem?_eq_some_iff.mp hi
  obtain ⟨hj', hq'⟩ := List.getElem?_eq_some_iff.mp hj
  rw [← hp', ← hq']
  exact hlt i j hi' hj' hij

namespace IsIncreasing

variable {i : Nat} {p q : ℝ × ℝ} {t : ℝ}

theorem first_le (h : s.IsIncreasing) (hp : s.points[i]? = some p) : s.first.1 ≤ p.1 := by
  rcases Nat.eq_zero_or_pos i with rfl | hpos
  · obtain rfl := Option.some.inj (s.getElem?_first.symm.trans hp)
    exact le_rfl
  · exact (h hpos s.getElem?_first hp).le

theorem le_last (h : s.IsIncreasing) (hp : s.points[i]? = some p) : p.1 ≤ s.last.1 := by
  rcases Nat.eq_or_lt_of_le (Nat.le_sub_one_of_lt (s.lt_size hp)) with rfl | hlt
  · obtain rfl := Option.some.inj (s.getElem?_last.symm.trans hp)
    exact le_rfl
  · exact (h hlt hp s.getElem?_last).le

/-- Points have come up to the one before the first whose time is still to come. -/
theorem haveCome (h : s.IsIncreasing) (hp : s.points[i]? = some p) (hcome : p.1 ≤ t)
    (hnext : ∀ q, s.points[i + 1]? = some q → t < q.1) : s.HaveCome t (i + 1) := by
  intro j
  rw [hasCome_iff]
  constructor
  · rintro ⟨r, hr, hle⟩
    by_contra hlt
    rcases Nat.eq_or_lt_of_le (Nat.not_lt.mp hlt) with rfl | hlater
    · exact absurd (hnext r hr) (not_lt.mpr hle)
    · obtain ⟨q, hq⟩ := s.exists_point (hlater.trans (s.lt_size hr))
      exact absurd ((hnext q hq).trans (h hlater hq hr)) (not_lt.mpr hle)
  · intro hlt
    rcases Nat.eq_or_lt_of_le (Nat.le_of_lt_succ hlt) with rfl | hearlier
    · exact ⟨p, hp, hcome⟩
    · obtain ⟨r, hr⟩ := s.exists_point (hearlier.trans (s.lt_size hp))
      exact ⟨_, hr, (h hearlier hr hp).le.trans hcome⟩

theorem exists_haveCome (h : s.IsIncreasing) (t : ℝ) : ∃ k, s.HaveCome t k := by
  refine TimeSeries.exists_haveCome fun i j hij hj => ?_
  obtain ⟨q, hq, hle⟩ := hasCome_iff.mp hj
  obtain ⟨p, hp⟩ := s.exists_point (hij.trans (s.lt_size hq))
  exact hasCome_iff.mpr ⟨_, hp, (h hij hp hq).le.trans hle⟩

end IsIncreasing

/-! ## The broken line -/

/-- The line through two points. -/
noncomputable def lineThrough (p q : ℝ × ℝ) (t : ℝ) : ℝ :=
  p.2 + (t - p.1) / (q.1 - p.1) * (q.2 - p.2)

section Line

variable {p q : ℝ × ℝ} {t : ℝ}

theorem lineThrough_left (p q : ℝ × ℝ) : lineThrough p q p.1 = p.2 := by
  simp [lineThrough]

theorem lineThrough_right (h : p.1 < q.1) : lineThrough p q q.1 = q.2 := by
  rw [lineThrough, div_self (sub_ne_zero.mpr h.ne')]
  ring

theorem between_lineThrough (hp : p.1 ≤ t) (hq : t ≤ q.1) :
    Scalar.Between p.2 q.2 (lineThrough p q t) := by
  have hnonneg : 0 ≤ (t - p.1) / (q.1 - p.1) :=
    div_nonneg (sub_nonneg.mpr hp) (sub_nonneg.mpr (hp.trans hq))
  have hle : (t - p.1) / (q.1 - p.1) ≤ 1 :=
    div_le_one_of_le₀ (sub_le_sub_right hq _) (sub_nonneg.mpr (hp.trans hq))
  unfold lineThrough
  rcases le_total p.2 q.2 with h | h
  · exact .inl ⟨by nlinarith, by nlinarith⟩
  · exact .inr ⟨by nlinarith, by nlinarith⟩

theorem continuous_lineThrough (p q : ℝ × ℝ) : Continuous (lineThrough p q) := by
  unfold lineThrough
  fun_prop

end Line

theorem value?_of_mem_range {t : ℝ} (hfirst : s.first.1 ≤ t) (hlast : t ≤ s.last.1) :
    s.value? t = some (s.interpolate t) :=
  if_neg (not_or.mpr ⟨not_lt.mpr hfirst, not_lt.mpr hlast⟩)

namespace IsIncreasing

variable {i : Nat} {p q : ℝ × ℝ} {t : ℝ}

theorem interpolate_point (h : s.IsIncreasing) (hp : s.points[i]? = some p) :
    s.interpolate p.1 = p.2 := by
  have hcome : s.HaveCome p.1 (i + 1) := h.haveCome hp le_rfl fun q hq => h i.lt_succ_self hp hq
  cases hq : s.points[i + 1]? with
  | some q =>
      rw [interpolate_of_haveCome hcome hp hq]
      exact lineThrough_left p q
  | none =>
      have hsize : s.points.size = i + 1 :=
        le_antisymm (Array.getElem?_eq_none_iff.mp hq) (s.lt_size hp)
      rw [interpolate_of_haveCome_size hcome hsize]
      have hlast := s.getElem?_last
      rw [hsize, Nat.add_sub_cancel, hp] at hlast
      rw [Option.some.inj hlast]

theorem interpolate_segment (h : s.IsIncreasing) (hp : s.points[i]? = some p)
    (hq : s.points[i + 1]? = some q) (hpt : p.1 ≤ t) (htq : t ≤ q.1) :
    s.interpolate t = lineThrough p q t := by
  rcases eq_or_lt_of_le htq with rfl | hlt
  · rw [h.interpolate_point hq, lineThrough_right (h i.lt_succ_self hp hq)]
  · refine interpolate_of_haveCome (h.haveCome hp hpt fun r hr => ?_) hp hq
    rwa [← Option.some.inj (hq.symm.trans hr)]

theorem value?_point (h : s.IsIncreasing) (hp : s.points[i]? = some p) :
    s.value? p.1 = some p.2 := by
  rw [value?_of_mem_range (h.first_le hp) (h.le_last hp), h.interpolate_point hp]

theorem value?_segment (h : s.IsIncreasing) (hp : s.points[i]? = some p)
    (hq : s.points[i + 1]? = some q) (hpt : p.1 ≤ t) (htq : t ≤ q.1) :
    s.value? t = some (lineThrough p q t) := by
  rw [value?_of_mem_range ((h.first_le hp).trans hpt) (htq.trans (h.le_last hq)),
    h.interpolate_segment hp hq hpt htq]

end IsIncreasing

/-! ## Out of the range -/

section Outside

variable {i : Nat} {p q : ℝ × ℝ} {t : ℝ}

theorem value?_of_outside (h : t < s.first.1 ∨ s.last.1 < t) : s.value? t = s.extrapolate? t :=
  if_pos h

theorem IsIncreasing.first_le_last (h : s.IsIncreasing) : s.first.1 ≤ s.last.1 :=
  h.first_le s.getElem?_last

theorem value?_clamp_before (he : s.extrapolation = .clamp) (ht : t < s.first.1) :
    s.value? t = some s.first.2 := by
  simp [value?_of_outside (.inl ht), extrapolate?, he, ht]

theorem IsIncreasing.value?_clamp_after (h : s.IsIncreasing) (he : s.extrapolation = .clamp)
    (ht : s.last.1 < t) : s.value? t = some s.last.2 := by
  have hfirst : ¬ t < s.first.1 := not_lt.mpr (h.first_le_last.trans ht.le)
  simp [value?_of_outside (.inr ht), extrapolate?, he, hfirst]

theorem value?_reject (he : s.extrapolation = .reject) (ht : t < s.first.1 ∨ s.last.1 < t) :
    s.value? t = none := by
  simp [value?_of_outside ht, extrapolate?, he]

/-- With two points there is one after the first and one before the last. -/
theorem extrapolate?_linear (he : s.extrapolation = .linear) {i : Nat} {second beforeLast : ℝ × ℝ}
    (hsecond : s.points[1]? = some second) (hlast : s.points[i]? = some beforeLast)
    (hsize : i + 2 = s.points.size) :
    s.extrapolate? t = some (if t < s.first.1 then lineThrough s.first second t
      else onLine s.last beforeLast s.last t) := by
  have hbefore : s.points[s.points.size - 2]? = some beforeLast := by rw [← hsize]; exact hlast
  have hline : onLine s.first s.first second t = lineThrough s.first second t := by
    unfold onLine lineThrough
    ring
  simp [extrapolate?, he, hsecond, hbefore, hline]

theorem value?_linear_before (he : s.extrapolation = .linear) (hp : s.points[0]? = some p)
    (hq : s.points[1]? = some q) (ht : t < p.1) : s.value? t = some (lineThrough p q t) := by
  obtain rfl := Option.some.inj (s.getElem?_first.symm.trans hp)
  obtain ⟨i, hi⟩ := Nat.exists_eq_add_of_le' (Nat.succ_le_of_lt (s.lt_size hq))
  obtain ⟨beforeLast, hlast⟩ := s.exists_point (i := i) (by omega)
  rw [value?_of_outside (.inl ht), extrapolate?_linear he hq hlast hi.symm, if_pos ht]

theorem IsIncreasing.value?_linear_after (h : s.IsIncreasing) (he : s.extrapolation = .linear)
    (hp : s.points[i]? = some p) (hq : s.points[i + 1]? = some q) (hsize : i + 2 = s.points.size)
    (ht : q.1 < t) : s.value? t = some (lineThrough p q t) := by
  obtain rfl := Option.some.inj ((s.getElem?_succ_last hsize).symm.trans hq)
  obtain ⟨second, hsecond⟩ := s.exists_point (i := 1) (by omega)
  have hfirst : ¬ t < s.first.1 := not_lt.mpr (h.first_le_last.trans ht.le)
  have hne : s.last.1 - p.1 ≠ 0 := sub_ne_zero.mpr (h i.lt_succ_self hp hq).ne'
  rw [value?_of_outside (.inr ht), extrapolate?_linear he hsecond hp hsize, if_neg hfirst]
  unfold onLine lineThrough
  congr 1
  field_simp
  ring

/-- With one point a series that is clamped or prolonged has one value. -/
theorem IsIncreasing.value?_of_size_eq_one (h : s.IsIncreasing)
    (he : s.extrapolation = .clamp ∨ s.extrapolation = .linear) (hsize : s.points.size = 1) (t : ℝ) :
    s.value? t = some s.first.2 := by
  have hlast : s.last = s.first := by simp [last, first, hsize]
  have hsecond : s.points[1]? = none := Array.getElem?_eq_none hsize.le
  by_cases ht : t < s.first.1 ∨ s.last.1 < t
  · rw [value?_of_outside ht]
    rcases he with he | he
    · simp [extrapolate?, he, hlast]
    · simp [extrapolate?, he, hsecond]
  · rw [not_or, hlast, not_lt, not_lt] at ht
    rw [← le_antisymm ht.1 ht.2, h.value?_point s.getElem?_first]

end Outside

/-! ## Divisions -/

section Divisions

variable (quotient remainder : ℝ → ℝ)

theorem onLine_dividingByZero {anchor earlier later : ℝ × ℝ} (h : earlier.1 < later.1) (t : ℝ) :
    @onLine ℝ (.dividingByZero quotient remainder) anchor earlier later t =
      onLine anchor earlier later t :=
  congrArg (fun x : ℝ => anchor.2 + x * (t - anchor.1)) (if_neg (sub_ne_zero.mpr h.ne'))

theorem modulo_dividingByZero {b : ℝ} (hb : b ≠ 0) (a : ℝ) :
    @Scalar.modulo ℝ (.dividingByZero quotient remainder) a b = Scalar.modulo a b :=
  congrArg (fun r : ℝ => if r < 0.0 then r + Scalar.abs b else r) (if_neg hb)

theorem IsIncreasing.interpolate_dividingByZero (h : s.IsIncreasing) (t : ℝ) :
    @interpolate ℝ (.dividingByZero quotient remainder) s t = s.interpolate t := by
  obtain ⟨k, hk⟩ := h.exists_haveCome t
  unfold interpolate
  rw [countCome_of_haveCome hk, @countCome_of_haveCome ℝ (.dividingByZero quotient remainder) s t k hk]
  cases k with
  | zero => rfl
  | succ i =>
      dsimp only
      cases hp : s.points[i]? with
      | none => rfl
      | some p =>
          cases hq : s.points[i + 1]? with
          | none => rfl
          | some q =>
              have hne : q.1 - p.1 ≠ 0 := sub_ne_zero.mpr (h i.lt_succ_self hp hq).ne'
              exact congrArg (fun x : ℝ => p.2 + x * (q.2 - p.2)) (if_neg hne)

theorem IsIncreasing.value?_dividingByZero (h : s.IsIncreasing) (t : ℝ) :
    @value? ℝ (.dividingByZero quotient remainder) s t = s.value? t := by
  unfold value?
  refine ite_congr rfl (fun hout => ?_) fun _ => ?_
  · unfold extrapolate?
    cases he : s.extrapolation with
    | clamp => rfl
    | reject => rfl
    | linear =>
        dsimp only
        split
        · next second beforeLast hsecond hlast =>
          have hsize : 1 < s.points.size := s.lt_size hsecond
          rw [onLine_dividingByZero _ _ (h Nat.one_pos s.getElem?_first hsecond),
            onLine_dividingByZero _ _ (h (by omega) hlast s.getElem?_last)]
        · rfl
    | cyclic =>
        refine ite_congr rfl (fun _ => rfl) fun hshort => ?_
        have hpos : 0 < s.last.1 - s.first.1 := lt_of_lt_of_le (by norm_num) (not_lt.mp hshort)
        rw [modulo_dividingByZero _ _ hpos.ne', h.interpolate_dividingByZero]
  · exact congrArg some (h.interpolate_dividingByZero ..)

end Divisions

/-! ## Continuity at the ends -/

section Continuity

open Topology

/-- Two functions without jumps that meet at a time make one without a jump there. -/
theorem continuousAt_of_pieces {f u v : ℝ → ℝ} {t : ℝ} (hu : Continuous u) (hv : Continuous v)
    (hleft : ∀ᶠ x in 𝓝[≤] t, f x = u x) (hright : ∀ᶠ x in 𝓝[≥] t, f x = v x) :
    ContinuousAt f t := by
  rw [continuousAt_iff_continuous_left_right]
  exact ⟨hu.continuousWithinAt.congr_of_eventuallyEq hleft (hleft.self_of_nhdsWithin Set.self_mem_Iic),
    hv.continuousWithinAt.congr_of_eventuallyEq hright (hright.self_of_nhdsWithin Set.self_mem_Ici)⟩

variable {p q : ℝ × ℝ} {f u : ℝ → ℝ} {i : Nat}

theorem IsIncreasing.continuousAt_first (h : s.IsIncreasing) (hf : ∀ t, s.value? t = some (f t))
    (hq : s.points[1]? = some q) (hu : Continuous u) (hend : u s.first.1 = s.first.2)
    (hbefore : ∀ t < s.first.1, f t = u t) : ContinuousAt f s.first.1 := by
  have hlt : s.first.1 < q.1 := h Nat.one_pos s.getElem?_first hq
  have hline : ∀ t ∈ Set.Icc s.first.1 q.1, f t = lineThrough s.first q t := fun t ht =>
    Option.some.inj ((hf t).symm.trans (h.value?_segment s.getElem?_first hq ht.1 ht.2))
  refine continuousAt_of_pieces hu (continuous_lineThrough s.first q) ?_
    (Filter.eventually_of_mem (Icc_mem_nhdsGE hlt) hline)
  filter_upwards [self_mem_nhdsWithin] with t ht
  rcases eq_or_lt_of_le (Set.mem_Iic.mp ht) with rfl | ht
  · rw [hend, hline _ ⟨le_rfl, hlt.le⟩, lineThrough_left]
  · exact hbefore t ht

theorem IsIncreasing.continuousAt_last (h : s.IsIncreasing) (hf : ∀ t, s.value? t = some (f t))
    (hp : s.points[i]? = some p) (hsize : i + 2 = s.points.size) (hu : Continuous u)
    (hend : u s.last.1 = s.last.2) (hafter : ∀ t, s.last.1 < t → f t = u t) :
    ContinuousAt f s.last.1 := by
  have hq : s.points[i + 1]? = some s.last := s.getElem?_succ_last hsize
  have hlt : p.1 < s.last.1 := h i.lt_succ_self hp hq
  have hline : ∀ t ∈ Set.Icc p.1 s.last.1, f t = lineThrough p s.last t := fun t ht =>
    Option.some.inj ((hf t).symm.trans (h.value?_segment hp hq ht.1 ht.2))
  refine continuousAt_of_pieces (continuous_lineThrough p s.last) hu
    (Filter.eventually_of_mem (Icc_mem_nhdsLE hlt) hline) ?_
  filter_upwards [self_mem_nhdsWithin] with t ht
  rcases eq_or_lt_of_le (Set.mem_Ici.mp ht) with rfl | ht
  · rw [hend, hline _ ⟨hlt.le, le_rfl⟩, lineThrough_right hlt]
  · exact hafter t ht

/-- A function of time that has a value at every time and does not jump at the ends of a series. -/
def MeetsEnds (s : TimeSeries ℝ) (f : ℝ → Option ℝ) : Prop :=
  ∃ g : ℝ → ℝ, (∀ t, f t = some (g t)) ∧ ContinuousAt g s.first.1 ∧ ContinuousAt g s.last.1

theorem exists_value (he : s.extrapolation = .clamp ∨ s.extrapolation = .linear) (t : ℝ) :
    ∃ v, s.value? t = some v := by
  unfold value? extrapolate?
  rcases he with he | he <;> rw [he] <;> dsimp only <;> split
  · exact ⟨_, rfl⟩
  · exact ⟨_, rfl⟩
  · split <;> exact ⟨_, rfl⟩
  · exact ⟨_, rfl⟩

theorem IsIncreasing.meetsEnds (h : s.IsIncreasing)
    (he : s.extrapolation = .clamp ∨ s.extrapolation = .linear) : s.MeetsEnds s.value? := by
  choose f hf using exists_value he
  refine ⟨f, hf, ?_⟩
  have heq : ∀ {t v : ℝ}, s.value? t = some v → f t = v := fun hv =>
    Option.some.inj ((hf _).symm.trans hv)
  rcases Nat.eq_or_lt_of_le s.points_pos with hone | htwo
  · obtain rfl : f = fun _ => s.first.2 :=
      funext fun t => heq (h.value?_of_size_eq_one he hone.symm t)
    exact ⟨continuousAt_const, continuousAt_const⟩
  · obtain ⟨q, hq⟩ := s.exists_point htwo
    obtain ⟨i, hi⟩ := Nat.exists_eq_add_of_le' (Nat.succ_le_of_lt htwo)
    obtain ⟨p, hp⟩ := s.exists_point (i := i) (by omega)
    have hlast : s.points[i + 1]? = some s.last := s.getElem?_succ_last hi.symm
    have hlt : p.1 < s.last.1 := h i.lt_succ_self hp hlast
    rcases he with he | he
    · exact ⟨h.continuousAt_first hf hq continuous_const rfl fun t ht =>
          heq (value?_clamp_before he ht),
        h.continuousAt_last hf hp hi.symm continuous_const rfl fun t ht =>
          heq (h.value?_clamp_after he ht)⟩
    · exact ⟨h.continuousAt_first hf hq (continuous_lineThrough s.first q) (lineThrough_left ..)
          fun t ht => heq (value?_linear_before he s.getElem?_first hq ht),
        h.continuousAt_last hf hp hi.symm (continuous_lineThrough p s.last)
          (lineThrough_right hlt) fun t ht => heq (h.value?_linear_after he hp hlast hi.symm ht)⟩

end Continuity

/-! ## The whole function -/

/-- A function of time joins points by straight lines, and its values between two of them lie
between theirs. -/
structure Joins (points : Array (ℝ × ℝ)) (f : ℝ → Option ℝ) : Prop where
  segment : ∀ (i : Nat) (p q : ℝ × ℝ) (t : ℝ), points[i]? = some p → points[i + 1]? = some q →
    p.1 ≤ t → t ≤ q.1 →
      f t = some (p.2 + (t - p.1) / (q.1 - p.1) * (q.2 - p.2)) ∧
        ∀ v, f t = some v → Scalar.Between p.2 q.2 v
  point : ∀ (i : Nat) (p : ℝ × ℝ), points[i]? = some p → f p.1 = some p.2

/-- The first and the last value of a series are held out of its range. -/
def HoldsEnds (s : TimeSeries ℝ) (f : ℝ → Option ℝ) : Prop :=
  (∀ t < s.first.1, f t = some s.first.2) ∧ ∀ t, s.last.1 < t → f t = some s.last.2

/-- The first and the last line of a series go on out of its range. With one point there is no line,
and its value is held. -/
structure ProlongsEnds (s : TimeSeries ℝ) (f : ℝ → Option ℝ) : Prop where
  before : ∀ p q : ℝ × ℝ, s.points[0]? = some p → s.points[1]? = some q →
    ∀ t < p.1, f t = some (p.2 + (t - p.1) / (q.1 - p.1) * (q.2 - p.2))
  after : ∀ (i : Nat) (p q : ℝ × ℝ), s.points[i]? = some p → s.points[i + 1]? = some q →
    i + 2 = s.points.size →
      ∀ t, q.1 < t → f t = some (p.2 + (t - p.1) / (q.1 - p.1) * (q.2 - p.2))
  single : s.points.size = 1 → ∀ t, f t = some s.first.2

theorem IsIncreasing.joins (h : s.IsIncreasing) : Joins s.points s.value? where
  segment i p q t hp hq hpt htq := by
    have hline := h.value?_segment hp hq hpt htq
    refine ⟨hline, fun v hv => ?_⟩
    obtain rfl := Option.some.inj (hline.symm.trans hv)
    exact between_lineThrough hpt htq
  point _ _ := h.value?_point

/-- In its range a series joins its points, whatever its extrapolation, and no value of it comes
from a division by zero. Out of its range it holds its ends if it is clamped, and prolongs its lines
if it is to be linear, both without a jump. Where it is rejected it has no value there, and a factor
made of it fails. -/
theorem IsMade.value?_spec (h : IsMade times values s) :
    s.points.toList = times.zip values ∧
      (∀ e, Joins s.points (s.extrapolatedBy e).value?) ∧
      (∀ (e : Extrapolation) (t : ℝ) (quotient remainder : ℝ → ℝ),
        @value? ℝ (.dividingByZero quotient remainder) (s.extrapolatedBy e) t =
          (s.extrapolatedBy e).value? t) ∧
      s.HoldsEnds (s.extrapolatedBy .clamp).value? ∧
      s.ProlongsEnds (s.extrapolatedBy .linear).value? ∧
      (∀ (t : ℝ) (hydrology : Option ℝ), t < s.first.1 ∨ s.last.1 < t →
        (s.extrapolatedBy .reject).value? t = none ∧
          TimeFactor.at ⟨s.extrapolatedBy .reject, hydrology⟩ t =
            .error (.lookup t (.outsideRange s.first.1 s.last.1))) ∧
      s.MeetsEnds (s.extrapolatedBy .clamp).value? ∧
      s.MeetsEnds (s.extrapolatedBy .linear).value? := by
  have hinc : ∀ e, (s.extrapolatedBy e).IsIncreasing := fun _ => h.isIncreasing
  refine ⟨h.points_eq, fun e => (hinc e).joins,
    fun e t quotient remainder => (hinc e).value?_dividingByZero quotient remainder t, ?_, ?_, ?_,
    (hinc .clamp).meetsEnds (.inl rfl), (hinc .linear).meetsEnds (.inr rfl)⟩
  · exact ⟨fun t ht => value?_clamp_before (s := s.extrapolatedBy .clamp) rfl ht,
      fun t ht => (hinc .clamp).value?_clamp_after rfl ht⟩
  · exact ⟨fun p q hp hq t ht => value?_linear_before (s := s.extrapolatedBy .linear) rfl hp hq ht,
      fun i p q hp hq hi t ht => (hinc .linear).value?_linear_after rfl hp hq hi ht,
      fun hone t => (hinc .linear).value?_of_size_eq_one (.inr rfl) hone t⟩
  · intro t hydrology ht
    have hnone : (s.extrapolatedBy .reject).value? t = none := value?_reject rfl ht
    refine ⟨hnone, ?_⟩
    rw [TimeFactor.at, hnone]
    rfl

/-- A series that rises for an hour and falls for another one. -/
noncomputable def tide : TimeSeries ℝ := ⟨#[(-1, 0), (0, 1), (1, -1)], .clamp, by simp⟩

@[simp] theorem first_tide : tide.first = (-1, 0) := rfl

@[simp] theorem last_tide : tide.last = (1, -1) := by
  simp [tide, last]

theorem isMade_tide : IsMade [-1, 0, 1] [0, 1, -1] tide := by
  refine isMade_iff.mpr ⟨rfl, by simp, ?_, rfl, rfl⟩
  norm_num

theorem value?_spec_tide :
    (∀ e, (tide.extrapolatedBy e).value? (1 / 2) = some 0) ∧
      (tide.extrapolatedBy .clamp).value? 3 = some (-1) ∧
      (tide.extrapolatedBy .linear).value? 2 = some (-3) ∧
      (tide.extrapolatedBy .reject).value? (-2) = none := by
  obtain ⟨-, hjoins, -, hheld, hprolonged, hrejected, -⟩ := isMade_tide.value?_spec
  refine ⟨fun e => ?_, hheld.2 3 (by norm_num), ?_,
    (hrejected (-2) none (.inl (by norm_num))).1⟩
  · rw [((hjoins e).segment 1 (0, 1) (1, -1) (1 / 2) rfl rfl (by norm_num) (by norm_num)).1]
    norm_num
  · rw [hprolonged.after 1 (0, 1) (1, -1) rfl rfl rfl 2 (by norm_num)]
    norm_num

end CurrentDrift.TimeSeries
