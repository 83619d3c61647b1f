import CurrentDrift.Plan.Reader
import Mathlib.Data.List.Enum
import Mathlib.Data.Option.Basic

/-! # Valid plans

What is known about a plan in which the check finds no fault: each of its patterns has none, and so
a sampler and a series can be made for it. -/

namespace CurrentDrift

theorem faultIf_eq_none {bad : Bool} {place : String} {fault : ValueFault} :
    faultIf bad place fault = none ↔ bad = false := by
  cases bad <;> simp [faultIf]

/-- Nothing is wrong with the pattern at some place of a plan. -/
def PatternPlan.IsValid (p : PatternPlan) : Prop := ∃ place, p.fault? place = none

namespace PatternPlan

variable {p : PatternPlan}

theorem fault?_eq_none {place : String} (h : p.fault? place = none) :
    p.scaleFault? place = none ∧ p.spread.fault? = none ∧ p.seriesFault? place = none ∧
      p.rangeFault? place = none := by
  simp only [fault?, Option.orElse_eq_none, Option.map_eq_none_iff] at h
  obtain ⟨-, -, hscale, -, -, hspread, hseries, hrange⟩ := h
  exact ⟨hscale, hspread, hseries, hrange⟩

theorem IsValid.exists_sampler (h : p.IsValid) :
    ∃ sampler, Sampler.ofParams p.spread = .ok sampler := by
  obtain ⟨place, h⟩ := h
  refine ⟨⟨p.spread, none⟩, ?_⟩
  rw [Sampler.ofParams, (fault?_eq_none h).2.1]

theorem IsValid.exists_series (h : p.IsValid) :
    ∀ t ∈ p.timeSeries, ∃ factor, t.factor = .ok factor := by
  obtain ⟨place, h⟩ := h
  have hseries := (fault?_eq_none h).2.2.1
  intro t ht
  rw [seriesFault?, Option.mem_def.mp ht, Option.bind_some] at hseries
  cases hfactor : t.factor with
  | ok factor => exact ⟨factor, rfl⟩
  | error fault => simp [hfactor] at hseries

end PatternPlan

namespace RunPlan

variable {c : RunPlan}

theorem isValid_of_mapsFault? {earlier : List String} {i : Nat} {ms : List MapPlan}
    (h : mapsFault? earlier i ms = none) : ∀ p ∈ ms.flatMap MapPlan.patterns, p.IsValid := by
  induction ms generalizing earlier i with
  | nil => simp
  | cons m ms ih =>
      rw [mapsFault?, Option.orElse_eq_none, MapPlan.fault?, Option.orElse_eq_none,
        List.findSome?_eq_none_iff, List.forall_mem_zipIdx'] at h
      obtain ⟨⟨-, hm⟩, hms⟩ := h
      rw [List.flatMap_cons, List.forall_mem_append]
      refine ⟨fun p hp => ?_, ih hms⟩
      obtain ⟨j, hj, rfl⟩ := List.getElem_of_mem hp
      exact ⟨_, hm j hj⟩

theorem fault?_eq_none (h : c.fault? = none) :
    c.start.isFinite = true ∧ (∀ d ∈ c.particles, d.isOnGlobe = true) ∧
      ∀ p ∈ c.patterns, p.IsValid := by
  simp only [fault?, Option.orElse_eq_none, faultIf_eq_none, Bool.not_eq_false',
    List.findSome?_eq_none_iff, List.forall_mem_zipIdx'] at h
  obtain ⟨-, -, hstart, hparticles, -, hmaps⟩ := h
  refine ⟨hstart, fun d hd => ?_, isValid_of_mapsFault? hmaps⟩
  obtain ⟨i, hi, rfl⟩ := List.getElem_of_mem hd
  exact hparticles i hi

theorem validate_eq_ok_iff : c.validate = .ok () ↔ c.fault? = none := by
  unfold validate
  split
  · next h => simp [h]
  · next h => simp [h]

theorem isValid_of_validate (h : c.validate = .ok ()) : ∀ p ∈ c.patterns, p.IsValid :=
  (fault?_eq_none (validate_eq_ok_iff.mp h)).2.2

/-- The seed is not looked at. -/
theorem validate_withSeed (c : RunPlan) (seed : Option UInt64) :
    { c with seed }.validate = c.validate :=
  rfl

theorem validate_of_ofText {cs : List Char} (h : ofText cs = .ok c) : c.validate = .ok () := by
  unfold ofText at h
  split at h
  · contradiction
  · next c' _ =>
    cases hvalid : c'.validate with
    | error e => simp [hvalid, Except.map] at h
    | ok u =>
        rw [hvalid] at h
        obtain rfl := Except.ok.inj h
        exact hvalid

theorem validate_of_ofBytes {bytes : List UInt8} (h : ofBytes bytes = .ok c) :
    c.validate = .ok () := by
  unfold ofBytes at h
  split at h
  · exact validate_of_ofText h
  · contradiction

end RunPlan

end CurrentDrift
