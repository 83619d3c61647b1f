import Mathlib.Data.List.Chain
import Mathlib.Data.Nat.Find
import CurrentDrift.Proofs.Scalar.Order
import CurrentDrift.Drift.TimeSeries

/-! # The order of the times of a series

A series is refused if one of its times is not after the one before it. What is not a number is
neither after nor before anything, so that it is never refused, nor what comes after it. Main
statement: the times of a series increase exactly if they are numbers or there is but one of them,
and those that have come are the first ones, as the search for them takes for granted, exactly if no
number follows after something that is none. -/

namespace CurrentDrift.TimeSeries

open Scalar (isNaN)

variable {α : Type} [Scalar α]

/-- A series that is made of these times and values. -/
inductive IsMade : List α → List α → TimeSeries α → Prop
  | ofColumns {times values : List α} {s : TimeSeries α} :
      TimeSeries.ofColumns times values = .ok s → IsMade times values s
  | ofPoints {points : List (α × α)} {s : TimeSeries α} :
      TimeSeries.ofPoints points = .ok s → IsMade (points.map Prod.fst) (points.map Prod.snd) s

/-! ## What is accepted -/

theorem firstDisorder?_eq_none_iff {i : Nat} {times : List α} :
    firstDisorder? i times = none ↔ times.IsChain fun s t => ¬ t ≤ s := by
  fun_induction firstDisorder? i times with
  | case1 i s t r h => simp [h]
  | case2 i s t r h ih => simp [h, ih]
  | case3 times i h =>
      match times with
      | [] | [_] => simp
      | s :: t :: r => exact (h s t r rfl).elim

variable {times values : List α} {s : TimeSeries α}

theorem isMade_iff :
    IsMade times values s ↔
      times.length = values.length ∧ 0 < times.length ∧ (times.IsChain fun s t => ¬ t ≤ s) ∧
        s.points.toList = times.zip values ∧ s.extrapolation = .clamp := by
  have hmade : IsMade times values s ↔ TimeSeries.ofColumns times values = .ok s := by
    constructor
    · rintro (h | h) <;> exact h
    · exact .ofColumns
  rw [hmade, ← @firstDisorder?_eq_none_iff _ _ 0]
  unfold TimeSeries.ofColumns
  by_cases hlength : times.length = values.length
  · have hsize : (times.zip values).toArray.size = times.length := by simp [hlength]
    rw [if_neg (not_not.mpr hlength)]
    dsimp only
    split
    · next hempty => simp [← hsize, hempty]
    · next hempty =>
      have hpos : 0 < times.length := hsize ▸ Nat.pos_of_ne_zero hempty
      cases hdisorder : firstDisorder? 0 times with
      | some disorder => simp
      | none =>
          obtain ⟨points, extrapolation, -⟩ := s
          have hpos' : 0 < values.length := hlength ▸ hpos
          simp only [hlength, hpos', Except.ok.injEq, TimeSeries.mk.injEq, true_and]
          rw [← Array.toList_inj, eq_comm, @eq_comm _ Extrapolation.clamp]
  · simp [hlength]

theorem IsMade.points_eq (h : IsMade times values s) : s.points.toList = times.zip values :=
  (isMade_iff.mp h).2.2.2.1

theorem IsMade.getElem?_fst (h : IsMade times values s) (i : Nat) :
    s.points[i]?.map Prod.fst = times[i]? := by
  rw [← Array.getElem?_toList, h.points_eq, ← List.getElem?_map,
    List.map_fst_zip (isMade_iff.mp h).1.le]

/-! ## The times that have come -/

/-- The points whose times have come are the first `k` ones. -/
def HaveCome (s : TimeSeries α) (t : α) (k : Nat) : Prop := ∀ i, s.hasCome t i = true ↔ i < k

variable {t : α} {k : Nat}

theorem hasCome_iff {i : Nat} :
    s.hasCome t i = true ↔ ∃ p, s.points[i]? = some p ∧ p.1 ≤ t := by
  cases hpoint : s.points[i]? <;> simp [hasCome, hpoint]

theorem lt_size_of_hasCome {i : Nat} (h : s.hasCome t i = true) : i < s.points.size := by
  obtain ⟨p, hp, -⟩ := hasCome_iff.mp h
  exact (Array.getElem?_eq_some_iff.mp hp).1

theorem HaveCome.le_size (h : s.HaveCome t k) : k ≤ s.points.size := by
  by_contra hlt
  exact Nat.lt_irrefl _ (lt_size_of_hasCome ((h s.points.size).mpr (Nat.not_le.mp hlt)))

/-- The end of the points whose times have come lies in the window as long as it is halved, and next
to the point that is left. -/
theorem narrow_of_haveCome (h : s.HaveCome t k) {base size : Nat} (hpos : 0 < size)
    (hlow : base ≤ k) (hhigh : k ≤ base + size) :
    (if s.hasCome t (s.narrow t base size) then s.narrow t base size + 1
      else s.narrow t base size) = k := by
  fun_induction narrow s t base size with
  | case1 base size hsize =>
      split
      · next hcome =>
        have := (h base).mp hcome
        omega
      · next hcome =>
        have := mt (h base).mpr hcome
        omega
  | case2 base size hsize half ih =>
      rw [dite_eq_ite] at ih
      have hhalf : half = size / 2 := rfl
      apply ih (by omega)
      · split
        · next hcome => exact ((h _).mp hcome).le
        · exact hlow
      · split
        · omega
        · next hcome =>
          have := mt (h _).mpr hcome
          omega

theorem countCome_of_haveCome (h : s.HaveCome t k) : s.countCome t = k :=
  narrow_of_haveCome h s.points_pos (Nat.zero_le k) (by simpa using h.le_size)

/-- Points whose times have come are the first ones if before each of them there are only such. -/
theorem exists_haveCome (h : ∀ i j, i < j → s.hasCome t j = true → s.hasCome t i = true) :
    ∃ k, s.HaveCome t k := by
  have hend : ∃ i, ¬ s.hasCome t i = true :=
    ⟨s.points.size, fun hcome => Nat.lt_irrefl _ (lt_size_of_hasCome hcome)⟩
  refine ⟨Nat.find hend, fun i => ⟨fun hcome => ?_, fun hi => not_not.mp (Nat.find_min hend hi)⟩⟩
  by_contra hle
  rcases Nat.eq_or_lt_of_le (Nat.not_lt.mp hle) with heq | hlt
  · exact Nat.find_spec hend (heq ▸ hcome)
  · exact Nat.find_spec hend (h _ _ hlt hcome)

theorem IsMade.hasCome_iff (h : IsMade times values s) {i : Nat} :
    s.hasCome t i = true ↔ ∃ x, times[i]? = some x ∧ x ≤ t := by
  rw [TimeSeries.hasCome_iff, ← h.getElem?_fst]
  cases s.points[i]? <;> simp

/-! ## Increasing times -/

section Order

variable [Scalar.IsOrdered α]

/-- Neighbours decide about all times if no number follows after something that is none. -/
theorem pairwise_of_isChain (h : times.IsChain fun s t => ¬ t ≤ s)
    (hlast : times.Pairwise fun s t => isNaN s = true → isNaN t = true) :
    times.Pairwise fun s t => isNaN t = false → s < t := by
  induction times with
  | nil => exact .nil
  | cons s times ih =>
      obtain ⟨hs, htimes⟩ := List.pairwise_cons.mp hlast
      cases times with
      | nil => simp
      | cons u times =>
          obtain ⟨hsu, hchain⟩ := List.isChain_cons_cons.mp h
          have htail := ih hchain htimes
          have hnext : isNaN u = false → s < u := fun hu =>
            Scalar.IsOrdered.lt_of_not_le
              (by simpa [hu] using hs u (List.mem_cons_self ..)) hu hsu
          refine List.pairwise_cons.mpr ⟨fun t ht hnumber => ?_, htail⟩
          rcases List.mem_cons.mp ht with rfl | ht
          · exact hnext hnumber
          · have hut : u < t := (List.pairwise_cons.mp htail).1 t ht hnumber
            exact Scalar.IsOrdered.lt_trans (hnext (Scalar.IsOrdered.lt_iff.mp hut).1) hut

theorem pairwise_lt_of_isNaN_eq_false (h : times.IsChain fun s t => ¬ t ≤ s)
    (hnumbers : ∀ t ∈ times, isNaN t = false) : times.Pairwise (· < ·) := by
  have hlast : times.Pairwise fun s t => isNaN s = true → isNaN t = true :=
    List.pairwise_of_forall_mem_list fun s hs t _ hnan => by simp [hnumbers s hs] at hnan
  exact (pairwise_of_isChain h hlast).imp_of_mem fun _ ht hlt => hlt (hnumbers _ ht)

theorem pairwise_lt_iff (h : times.IsChain fun s t => ¬ t ≤ s) (hpos : 0 < times.length) :
    times.Pairwise (· < ·) ↔ times.length = 1 ∨ ∀ t ∈ times, isNaN t = false := by
  constructor
  · intro hlt
    match times with
    | [s] => exact .inl rfl
    | s :: u :: times =>
        have hs := (List.pairwise_cons.mp hlt).1
        refine .inr (List.forall_mem_cons.mpr ⟨?_, fun t ht => ?_⟩)
        · exact (Scalar.IsOrdered.lt_iff.mp (hs u (List.mem_cons_self ..))).1
        · exact (Scalar.IsOrdered.lt_iff.mp (hs t ht)).2.1
  · rintro (hone | hnumbers)
    · obtain ⟨s, rfl⟩ := List.length_eq_one_iff.mp hone
      simp
    · exact pairwise_lt_of_isNaN_eq_false h hnumbers

/-- The times that have come are the first ones at any time exactly if no number follows after
something that is none. -/
theorem IsMade.forall_exists_haveCome_iff (h : IsMade times values s) :
    (∀ t, ∃ k, s.HaveCome t k) ↔
      times.Pairwise fun s t => isNaN s = true → isNaN t = true := by
  constructor
  · intro hcome
    rw [List.pairwise_iff_getElem]
    intro i j hi hj hij hnan
    by_contra hnumber
    obtain ⟨k, hk⟩ := hcome times[j]
    have hj' : s.hasCome times[j] j = true := h.hasCome_iff.mpr
      ⟨_, List.getElem?_eq_getElem hj, Scalar.IsOrdered.le_refl (Bool.eq_false_iff.mpr hnumber)⟩
    have hi' : s.hasCome times[j] i = true := (hk i).mpr (hij.trans ((hk j).mp hj'))
    obtain ⟨x, hx, hle⟩ := h.hasCome_iff.mp hi'
    obtain rfl := Option.some.inj ((List.getElem?_eq_getElem hi).symm.trans hx)
    simp [(Scalar.IsOrdered.isNaN_of_le hle).1] at hnan
  · intro hlast t
    have hlt := pairwise_of_isChain (isMade_iff.mp h).2.2.1 hlast
    rw [List.pairwise_iff_getElem] at hlt
    refine exists_haveCome fun i j hij hj => ?_
    obtain ⟨x, hx, hle⟩ := h.hasCome_iff.mp hj
    obtain ⟨hjlt, rfl⟩ := List.getElem?_eq_some_iff.mp hx
    have hilt : i < times.length := hij.trans hjlt
    have hbefore : times[i] < times[j] :=
      hlt i j hilt hjlt hij (Scalar.IsOrdered.isNaN_of_le hle).1
    exact h.hasCome_iff.mpr ⟨_, List.getElem?_eq_getElem hilt,
      Scalar.IsOrdered.le_of_lt (Scalar.IsOrdered.lt_of_lt_of_le hbefore hle)⟩

end Order

/-- A series has as many times as values, at least one. Its times increase exactly if they are
numbers or there is but one of them. Those that have come are at any time the first ones, and then
the search finds how many they are, exactly if no number follows after something that is none. -/
theorem IsMade.order_iff {times values : List Float} {s : TimeSeries Float}
    (h : IsMade times values s) :
    times.length = values.length ∧ 0 < times.length ∧
      (times.Pairwise (· < ·) ↔ times.length = 1 ∨ ∀ t ∈ times, t.isNaN = false) ∧
      ((∀ t, ∃ k, s.HaveCome t k) ↔
        times.Pairwise fun s t => s.isNaN = true → t.isNaN = true) ∧
      ∀ t k, s.HaveCome t k → s.countCome t = k := by
  obtain ⟨hlength, hpos, hchain, -, -⟩ := isMade_iff.mp h
  exact ⟨hlength, hpos, pairwise_lt_iff hchain hpos, h.forall_exists_haveCome_iff,
    fun _ _ => countCome_of_haveCome⟩

/-- A series whose times fall, with something between them that is no number. -/
def disordered : TimeSeries Float :=
  ⟨#[(1.0, 1.0), (0.0 / 0.0, 2.0), (0.0, 3.0)], .clamp, by decide⟩

theorem order_iff_disordered :
    IsMade [1.0, 0.0 / 0.0, 0.0] [1.0, 2.0, 3.0] disordered ∧
      ¬ [1.0, 0.0 / 0.0, (0.0 : Float)].Pairwise (· < ·) ∧
      ¬ ∀ t, ∃ k, disordered.HaveCome t k := by
  have hmade : IsMade [1.0, 0.0 / 0.0, 0.0] [1.0, 2.0, 3.0] disordered :=
    isMade_iff.mpr ⟨rfl, by decide, by decide +kernel, rfl, rfl⟩
  obtain ⟨-, -, hincreasing, hcome, -⟩ := hmade.order_iff
  refine ⟨hmade, ?_, ?_⟩
  · rw [hincreasing]
    decide +kernel
  · rw [hcome]
    decide +kernel

end CurrentDrift.TimeSeries
