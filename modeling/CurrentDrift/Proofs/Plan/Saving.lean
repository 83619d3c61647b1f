import CurrentDrift.Command.FileTree
import CurrentDrift.Command.Setup
import CurrentDrift.Proofs.Drift.TableLifetime
import CurrentDrift.Proofs.Plan.RoundTrip
import CurrentDrift.Proofs.Plan.Valid
import CurrentDrift.Proofs.Text.Utf8

/-! # Saving plans

A valid plan may hold infinite numbers, and a series any numbers at all, but a file cannot. Main
statement: a valid plan that is saved is loaded again as it was exactly if all of its numbers are
finite. Otherwise the file cannot be read, or the numbers that may be missing are missing. -/

namespace CurrentDrift

open Json

/-! ## Numbers that the check guards -/

/-- A number between two finite ones is finite. -/
theorem isFinite_of_between {lo hi x : Float} (hlo : lo.isFinite = true) (hhi : hi.isFinite = true)
    (h : lo ≤ x) (h' : x ≤ hi) : x.isFinite = true := by
  have hbelow : lo.toModel.unpack.le x.toModel.unpack = true := of_decide_eq_true h
  have habove : x.toModel.unpack.le hi.toModel.unpack = true := of_decide_eq_true h'
  change lo.toModel.unpack.isFinite = true at hlo
  change hi.toModel.unpack.isFinite = true at hhi
  change x.toModel.unpack.isFinite = true
  generalize lo.toModel.unpack = lo, hi.toModel.unpack = hi, x.toModel.unpack = x at *
  cases x with
  | zero => rfl
  | finite => rfl
  | notANumber => cases lo <;> exact absurd hbelow Bool.false_ne_true
  | infinity sign =>
      cases sign with
      | positive =>
          cases hi with
          | zero | finite => exact absurd habove Bool.false_ne_true
          | notANumber | infinity => exact absurd hhi Bool.false_ne_true
      | negative =>
          cases lo with
          | zero | finite => exact absurd hbelow Bool.false_ne_true
          | notANumber | infinity => exact absurd hlo Bool.false_ne_true

theorem Degrees.isFinite_of_isOnGlobe {d : Degrees} (h : d.isOnGlobe = true) :
    ∀ x ∈ d.numbers, x.isFinite = true := by
  simp only [isOnGlobe, Bool.and_eq_true, decide_eq_true_eq] at h
  obtain ⟨⟨⟨hwest, heast⟩, hsouth⟩, hnorth⟩ := h
  simp only [numbers, List.forall_mem_cons, List.not_mem_nil, false_implies, implies_true, and_true]
  exact ⟨isFinite_of_between (by decide +kernel) (by decide +kernel) hwest heast,
    isFinite_of_between (by decide +kernel) (by decide +kernel) hsouth hnorth⟩

theorem PatternPlan.isFinite_of_scaleFault? {p : PatternPlan} {place : String}
    (h : p.scaleFault? place = none) : ∀ x ∈ p.scale.numbers, x.isFinite = true := by
  rw [scaleFault?, Option.orElse_eq_none] at h
  cases hscale : p.scale with
  | unscaled => simp [ScalePlan.numbers]
  | atSpeed value reference =>
      simp only [hscale, ScalePlan.reference?, Option.bind_some, faultIf_eq_none,
        Bool.not_eq_false'] at h
      exact List.forall_mem_cons.mpr ⟨h.2, Degrees.isFinite_of_isOnGlobe h.1⟩
  | likePattern name reference =>
      simp only [hscale, ScalePlan.reference?, Option.bind_some, faultIf_eq_none,
        Bool.not_eq_false'] at h
      exact Degrees.isFinite_of_isOnGlobe h.1

/-- The numbers that must be given and that nothing keeps from being infinite in a valid pattern. -/
def PatternPlan.unguardedNumbers (p : PatternPlan) : List Float :=
  [p.eddy.diffusion, p.eddy.halfSpeed, p.spread.lifetime, p.spread.delay] ++
    p.timeSeries.toList.flatMap SeriesPlan.numbers

def RunPlan.unguardedNumbers (c : RunPlan) : List Float :=
  [c.duration, c.step] ++ c.patterns.flatMap PatternPlan.unguardedNumbers

theorem PatternPlan.IsValid.isFinite_iff {p : PatternPlan} (h : p.IsValid) :
    (∀ x ∈ p.numbers, x.isFinite = true) ↔ ∀ x ∈ p.unguardedNumbers, x.isFinite = true := by
  obtain ⟨place, hfault⟩ := h
  have hscale := isFinite_of_scaleFault? (fault?_eq_none hfault).1
  have hspread : ∀ x ∈ [p.spread.up, p.spread.down, p.spread.left, p.spread.right],
      x.isFinite = true := (SpreadParams.fault?_eq_none_iff.mp (fault?_eq_none hfault).2.1).2.2
  simp only [List.forall_mem_cons] at hspread
  obtain ⟨hup, hdown, hleft, hright, -⟩ := hspread
  simp only [numbers, unguardedNumbers, SpreadParams.numbers, List.forall_mem_append,
    List.forall_mem_cons, hup, hdown, hleft, hright, true_and]
  constructor
  · rintro ⟨⟨⟨-, hdiffusion, hspeed, -⟩, hlifetime, hdelay, -⟩, hseries⟩
    exact ⟨⟨hdiffusion, hspeed, hlifetime, hdelay, by simp⟩, hseries⟩
  · rintro ⟨⟨hdiffusion, hspeed, hlifetime, hdelay, -⟩, hseries⟩
    exact ⟨⟨⟨hscale, hdiffusion, hspeed, by simp⟩, hlifetime, hdelay, by simp⟩, hseries⟩

theorem RunPlan.isFinite_iff {c : RunPlan} (h : c.validate = .ok ()) :
    (∀ x ∈ c.numbers, x.isFinite = true) ↔ ∀ x ∈ c.unguardedNumbers, x.isFinite = true := by
  obtain ⟨hstart, honGlobe, hvalid⟩ := fault?_eq_none (validate_eq_ok_iff.mp h)
  have hparticles : ∀ x ∈ c.particles.flatMap Degrees.numbers, x.isFinite = true :=
    List.forall_mem_flatMap.mpr fun d hd => Degrees.isFinite_of_isOnGlobe (honGlobe d hd)
  have hpatterns : (∀ x ∈ c.maps.flatMap MapPlan.numbers, x.isFinite = true) ↔
      ∀ x ∈ c.patterns.flatMap PatternPlan.unguardedNumbers, x.isFinite = true := by
    have hflat : c.maps.flatMap MapPlan.numbers = c.patterns.flatMap PatternPlan.numbers :=
      (List.flatMap_assoc ..).symm
    rw [hflat, List.forall_mem_flatMap, List.forall_mem_flatMap]
    exact forall₂_congr fun p hp => (hvalid p hp).isFinite_iff
  simp only [numbers, unguardedNumbers, List.forall_mem_append, List.forall_mem_cons, hpatterns]
  constructor
  · rintro ⟨⟨⟨-, hduration, hstep, -⟩, -⟩, hunguarded⟩
    exact ⟨⟨hduration, hstep, by simp⟩, hunguarded⟩
  · rintro ⟨⟨hduration, hstep, -⟩, hunguarded⟩
    exact ⟨⟨⟨hstart, hduration, hstep, by simp⟩, hparticles⟩, hunguarded⟩

/-! ## Numbers that may be missing -/

theorem filter_isFinite_eq_self_iff {o : Option Float} :
    o.filter Float.isFinite = o ↔ ∀ x ∈ o.toList, x.isFinite = true := by
  cases o with
  | none => simp
  | some x => simp [Option.filter_some]

theorem map_eq_self_iff {α : Type} {f : α → α} {l : List α} :
    l.map f = l ↔ ∀ x ∈ l, f x = x := by
  have hid : l.map f = l.map id ↔ ∀ x ∈ l, f x = id x := List.map_inj_left
  rwa [List.map_id] at hid

theorem SeriesPlan.withoutNonFinite_eq_self_iff {t : SeriesPlan} :
    t.withoutNonFinite = t ↔ ∀ x ∈ t.hydrology.toList, x.isFinite = true := by
  rw [← filter_isFinite_eq_self_iff]
  cases t
  simp [withoutNonFinite]

theorem PatternPlan.withoutNonFinite_eq_self_iff {p : PatternPlan} :
    p.withoutNonFinite = p ↔ ∀ x ∈ p.optionalNumbers, x.isFinite = true := by
  have hseries : p.timeSeries.map SeriesPlan.withoutNonFinite = p.timeSeries ↔
      ∀ x ∈ p.timeSeries.toList.flatMap fun t => t.hydrology.toList, x.isFinite = true := by
    cases p.timeSeries with
    | none => simp
    | some t => simp [SeriesPlan.withoutNonFinite_eq_self_iff]
  rw [optionalNumbers, List.forall_mem_append, List.forall_mem_append, ← hseries,
    ← filter_isFinite_eq_self_iff, ← filter_isFinite_eq_self_iff]
  cases p
  simp [withoutNonFinite, and_assoc]

theorem MapPlan.withoutNonFinite_eq_self_iff {m : MapPlan} :
    m.withoutNonFinite = m ↔ ∀ x ∈ m.optionalNumbers, x.isFinite = true := by
  rw [optionalNumbers, List.forall_mem_flatMap]
  simp only [← PatternPlan.withoutNonFinite_eq_self_iff, ← map_eq_self_iff]
  cases m
  simp [withoutNonFinite]

theorem RunPlan.withoutNonFinite_eq_self_iff {c : RunPlan} :
    c.withoutNonFinite = c ↔ ∀ x ∈ c.optionalNumbers, x.isFinite = true := by
  rw [optionalNumbers, List.forall_mem_flatMap]
  simp only [← MapPlan.withoutNonFinite_eq_self_iff, ← map_eq_self_iff]
  cases c
  simp [withoutNonFinite]

theorem PatternPlan.seriesFault?_withoutNonFinite (p : PatternPlan) (place : String) :
    p.withoutNonFinite.seriesFault? place = p.seriesFault? place := by
  rw [seriesFault?, seriesFault?, withoutNonFinite]
  cases p.timeSeries with
  | none => rfl
  | some t =>
      simp only [Option.map_some, Option.bind_some, SeriesPlan.factor, SeriesPlan.withoutNonFinite]
      cases TimeSeries.ofPoints t.points <;> rfl

theorem PatternPlan.rangeFault?_withoutNonFinite {p : PatternPlan} {place : String}
    (h : p.rangeFault? place = none) : p.withoutNonFinite.rangeFault? place = none := by
  unfold rangeFault?
  split
  · next first last hfirst hlast =>
    obtain ⟨hfrom, -⟩ := Option.filter_eq_some_iff.mp hfirst
    obtain ⟨huntil, -⟩ := Option.filter_eq_some_iff.mp hlast
    rwa [rangeFault?, hfrom, huntil] at h
  · rfl

/-- Without some of its numbers a pattern is still valid. -/
theorem PatternPlan.fault?_withoutNonFinite {p : PatternPlan} {place : String}
    (h : p.fault? place = none) : p.withoutNonFinite.fault? place = none := by
  simp only [fault?, Option.orElse_eq_none] at h ⊢
  obtain ⟨hname, hfile, hscale, hdiffusion, hspeed, hspread, hseries, hrange⟩ := h
  exact ⟨hname, hfile, hscale, hdiffusion, hspeed, hspread,
    (p.seriesFault?_withoutNonFinite place).trans hseries, rangeFault?_withoutNonFinite hrange⟩

theorem MapPlan.fault?_withoutNonFinite {m : MapPlan} {earlier : List String} {place : String}
    (h : m.fault? earlier place = none) : m.withoutNonFinite.fault? earlier place = none := by
  simp only [fault?, Option.orElse_eq_none, List.findSome?_eq_none_iff] at h ⊢
  refine ⟨h.1, ?_⟩
  rw [withoutNonFinite, List.zipIdx_map, List.forall_mem_map]
  exact fun x hx => PatternPlan.fault?_withoutNonFinite (h.2 x hx)

theorem RunPlan.mapsFault?_withoutNonFinite {earlier : List String} {i : Nat} {ms : List MapPlan}
    (h : mapsFault? earlier i ms = none) :
    mapsFault? earlier i (ms.map MapPlan.withoutNonFinite) = none := by
  induction ms generalizing earlier i with
  | nil => rfl
  | cons m ms ih =>
      simp only [mapsFault?, List.map_cons, Option.orElse_eq_none] at h ⊢
      exact ⟨MapPlan.fault?_withoutNonFinite h.1, ih h.2⟩

theorem RunPlan.validate_withoutNonFinite {c : RunPlan} (h : c.validate = .ok ()) :
    c.withoutNonFinite.validate = .ok () := by
  rw [validate_eq_ok_iff] at h ⊢
  simp only [fault?, Option.orElse_eq_none] at h ⊢
  obtain ⟨hstep, hduration, hstart, hparticles, hmissing, hmaps⟩ := h
  refine ⟨hstep, hduration, hstart, hparticles, ?_, mapsFault?_withoutNonFinite hmaps⟩
  simpa [withoutNonFinite] using hmissing

/-! ## Files -/

namespace RunPlan

/-- The content of the file that a plan is saved in. -/
def toBytes (c : RunPlan) : List UInt8 := c.toText.flatMap String.utf8EncodeChar

theorem ofBytes_toBytes (c : RunPlan) : ofBytes c.toBytes = ofText c.toText := by
  rw [ofBytes, (Text.Utf8.decode_eq_ok_iff c.toBytes c.toText).mpr rfl]

variable {c : RunPlan}

theorem ofText_toText (hvalid : c.validate = .ok ())
    (hread : ∀ x ∈ c.numbers ++ c.optionalNumbers, IsReadBack x) :
    ofText c.toText =
      if c.numbers.all Float.isFinite then .ok c.withoutNonFinite else .error .unreadable := by
  rw [List.forall_mem_append] at hread
  rw [ofText, parse?_toText hread.1 hread.2]
  cases c.numbers.all Float.isFinite with
  | false => rfl
  | true =>
      simp only [if_true, validate_withoutNonFinite hvalid]
      rfl

/-- A valid plan is loaded from the file that it was saved in exactly if all its numbers are finite,
provided that finite ones are read as they are written. If only numbers that may be missing are not
finite, these are missing afterwards; else the file cannot be read. -/
theorem loadPlan_saved (hvalid : c.validate = .ok ())
    (hread : ∀ x ∈ c.numbers ++ c.optionalNumbers, IsReadBack x) {read : ReadFile Id}
    {path : List Char} (hfile : read path = Except.ok c.toBytes) :
    (Setup.loadPlan read path = Except.ok c ↔
      ∀ x ∈ c.unguardedNumbers ++ c.optionalNumbers, x.isFinite = true) ∧
    ((∀ x ∈ c.unguardedNumbers, x.isFinite = true) →
      Setup.loadPlan read path = Except.ok c.withoutNonFinite) ∧
    ((∃ x ∈ c.unguardedNumbers, x.isFinite = false) →
      Setup.loadPlan read path = Except.error .unreadable) := by
  have hload : Setup.loadPlan read path =
      if c.numbers.all Float.isFinite then Except.ok c.withoutNonFinite
      else Except.error .unreadable := by
    simp only [Setup.loadPlan, hfile, bind, pure, ofBytes_toBytes, ofText_toText hvalid hread]
  have hnumbers : c.numbers.all Float.isFinite = true ↔
      ∀ x ∈ c.unguardedNumbers, x.isFinite = true :=
    List.all_eq_true.trans (isFinite_iff hvalid)
  rw [List.forall_mem_append, ← hnumbers, ← withoutNonFinite_eq_self_iff, hload]
  refine ⟨?_, fun hall => if_pos hall, ?_⟩
  · constructor
    · intro h
      split at h
      · next hall => exact ⟨hall, Except.ok.inj h⟩
      · contradiction
    · rintro ⟨hall, hself⟩
      rw [if_pos hall, hself]
  · rintro ⟨x, hx, hinfinite⟩
    refine if_neg fun hall => ?_
    rw [hnumbers.mp hall x hx] at hinfinite
    contradiction

/-- A plan of two particles in a tide that is scaled at a reference point. -/
def tide : RunPlan where
  start := 0.0
  duration := 86400.0
  step := 900.0
  isUncertain := true
  seed := some 7
  particles := [⟨-122.5, 37.8⟩, ⟨-122.4, 37.7⟩]
  maps := [⟨"sf_bay", [{ PatternPlan.ofFile "tide.cur" "tide.dag" with
    scale := .atSpeed 0.8 ⟨-122.5, 37.8⟩
    eddy := ⟨100000.0, 0.1⟩ }]⟩]

def endlessTide : RunPlan := { tide with duration := 1.0 / 0.0 }

def tideForEver : RunPlan :=
  { tide with maps := [⟨"sf_bay", [{ PatternPlan.ofFile "tide.cur" "tide.dag" with
    activeFrom := some 0.0
    activeUntil := some (1.0 / 0.0) }]⟩] }

/-- A directory with nothing but a saved plan in it. -/
def saved (c : RunPlan) : ReadFile Id :=
  (FileTree.ofFiles [("run.json".toList, c.toBytes)]).read

theorem saved_eq (c : RunPlan) : saved c "run.json".toList = Except.ok c.toBytes := rfl

/-- The first plan is loaded as it was. The endless one is valid and its file cannot be read; the
pattern that is active for ever has no end afterwards. -/
theorem loadPlan_saved_tide :
    Setup.loadPlan (saved tide) "run.json".toList = Except.ok tide ∧
    endlessTide.validate = .ok () ∧
    Setup.loadPlan (saved endlessTide) "run.json".toList = Except.error .unreadable ∧
    tideForEver.validate = .ok () ∧
    Setup.loadPlan (saved tideForEver) "run.json".toList =
      Except.ok tideForEver.withoutNonFinite ∧
    tideForEver.withoutNonFinite ≠ tideForEver := by
  have htide : tide.validate = .ok () :=
    validate_eq_ok_iff.mpr (Option.isNone_iff_eq_none.mp (by decide +kernel))
  have hendless : endlessTide.validate = .ok () :=
    validate_eq_ok_iff.mpr (Option.isNone_iff_eq_none.mp (by decide +kernel))
  have hforEver : tideForEver.validate = .ok () :=
    validate_eq_ok_iff.mpr (Option.isNone_iff_eq_none.mp (by decide +kernel))
  refine ⟨?_, hendless, ?_, hforEver, ?_, ?_⟩
  · exact (loadPlan_saved htide (by decide +kernel) (saved_eq tide)).1.mpr (by decide +kernel)
  · exact (loadPlan_saved hendless (by decide +kernel) (saved_eq endlessTide)).2.2
      (by decide +kernel)
  · exact (loadPlan_saved hforEver (by decide +kernel) (saved_eq tideForEver)).2.1
      (by decide +kernel)
  · rw [Ne, withoutNonFinite_eq_self_iff]
    decide +kernel

end RunPlan

end CurrentDrift
