import CurrentDrift.Proofs.Drift.History

/-! # Fleets with the same flow

Two fleets may have the same patterns up to what the velocities of uncertain particles are drawn
from: the supplies of velocity errors, the random sources and the random walks. Main statement:
the scales of both then develop in the same way. -/

namespace CurrentDrift

variable {α β γ β' γ' : Type} [Scalar α]

/-! ## Patterns -/

/-- Two patterns with the same flow: same field, same scale rule, same factor at each time, and
active at the same times. -/
structure Pattern.FlowsLike (p : Pattern α β γ) (q : Pattern α β' γ') : Prop where
  name : q.name = p.name
  field : q.field = p.field
  rule : q.rule = p.rule
  reference : q.reference = p.reference
  hydrology? : q.hydrology? = p.hydrology?
  timeFactor : ∀ time, q.timeFactor time = p.timeFactor time
  isActive : ∀ time, q.isActive time = p.isActive time

/-- The velocity is the same, while the flow may be fast enough for the eddies of one only. -/
theorem Pattern.FlowsLike.map_fst_flowUnder {p : Pattern α β γ} {q : Pattern α β' γ'}
    (h : p.FlowsLike q) (scale time : α) (point : Point) :
    (q.flowUnder scale time point).map Prod.fst = (p.flowUnder scale time point).map Prod.fst := by
  simp only [Pattern.flowUnder, Pattern.rawFlow, h.field, h.timeFactor]
  cases p.field.sample point <;> rfl

/-! ## States -/

/-- What scales depend on and moves of forecast particles can tell of a state. -/
def PatternStatus.shown (x : PatternStatus α β γ) : α × Bool × Bool × Bool × Bool :=
  (x.scale, x.isScaled, x.lacksScale, x.step.isPrepared, x.isResolving)

namespace PatternStatus

omit [Scalar α] in
theorem shown_eq_of_scaling_eq {x y : PatternStatus α β γ} (h : x.scaling = y.scaling) :
    x.shown = y.shown :=
  congrArg (fun a => (a.1, a.2.1, a.2.2.1, a.2.2.2.1.isPrepared, a.2.2.2.2)) h

omit [Scalar α] in
/-- What is shown and what a search leaves alone make up the state. -/
theorem eq_of_shown_eq_of_base_eq {x y : PatternStatus α β γ} (hshown : y.shown = x.shown)
    (hbase : y.base = x.base) : y = x := by
  cases x
  cases y
  simp_all [shown, base]

variable {x : PatternStatus α β γ} {y : PatternStatus α β' γ'}

omit [Scalar α] in
theorem shown_eq_iff : y.shown = x.shown ↔ y.scale = x.scale ∧ y.isScaled = x.isScaled ∧
    y.lacksScale = x.lacksScale ∧ y.step.isPrepared = x.step.isPrepared ∧
    y.isResolving = x.isResolving := by
  simp [shown]

theorem shown_withOutcome (h : y.shown = x.shown) (outcome : Except (DriftError α) α) :
    (y.withOutcome outcome).shown = (x.withOutcome outcome).shown := by
  obtain ⟨-, -, -, hprepared, hresolving⟩ := shown_eq_iff.mp h
  cases outcome <;> simp [withOutcome, withScale, shown, hprepared, hresolving]

omit [Scalar α] in
theorem shown_withResolving (h : y.shown = x.shown) (flag : Bool) :
    PatternStatus.shown { y with isResolving := flag } =
      PatternStatus.shown { x with isResolving := flag } := by
  simp_all [shown]

omit [Scalar α] in
theorem shown_withStep (h : y.shown = x.shown) {step step' : StepData α}
    (hstep : step'.isPrepared = step.isPrepared) :
    PatternStatus.shown { y with step := step' } = PatternStatus.shown { x with step } := by
  simp_all [shown]

omit [Scalar α] in
theorem needsScale_eq (h : y.shown = x.shown) (rule : ScaleRule α) :
    y.needsScale rule = x.needsScale rule := by
  obtain ⟨-, hscaled, -, hprepared, -⟩ := shown_eq_iff.mp h
  rw [needsScale, needsScale, hprepared, hscaled]

end PatternStatus

/-! ## Fleets -/

namespace Fleet

/-- Fleets with as many patterns that have the same flow one by one. -/
structure FlowsLike (f : Fleet α β γ) (g : Fleet α β' γ') : Prop where
  size : f.patterns.length = g.patterns.length
  pattern : ∀ i : f.Index, (f.pattern i).FlowsLike (g.pattern (i.cast size))

theorem finRange_eq_map_cast {n m : Nat} (h : n = m) :
    List.finRange m = (List.finRange n).map (Fin.cast h) := by
  subst h
  simp

namespace FlowsLike

variable {f : Fleet α β γ} {g : Fleet α β' γ'}

/-- The number of a pattern in the other fleet. -/
def index (h : f.FlowsLike g) (i : f.Index) : g.Index := i.cast h.size

theorem index_inj (h : f.FlowsLike g) {i j : f.Index} : h.index i = h.index j ↔ i = j := by
  simp [index, Fin.ext_iff]

theorem pattern_index (h : f.FlowsLike g) (i : f.Index) :
    (f.pattern i).FlowsLike (g.pattern (h.index i)) :=
  h.pattern i

theorem find? (h : f.FlowsLike g) (name : String) (i : f.Index) :
    g.find? name (some (h.index i)) = (f.find? name (some i)).map h.index := by
  unfold Fleet.find?
  rw [finRange_eq_map_cast h.size, List.find?_map]
  congr 2
  funext j
  have hj : (g.pattern (j.cast h.size)).name = (f.pattern j).name := (h.pattern j).name
  have hij : h.index i = j.cast h.size ↔ i = j := h.index_inj
  simp [hj, hij]

theorem matched? (h : f.FlowsLike g) (i : f.Index) :
    g.matched? (h.index i) = (f.matched? i).map h.index := by
  unfold Fleet.matched?
  rw [(h.pattern_index i).hydrology?, (h.pattern_index i).rule]
  cases (f.pattern i).hydrology? with
  | some scale => rfl
  | none =>
      cases (f.pattern i).rule with
      | unscaled => rfl
      | toSpeed target => rfl
      | toPattern name => exact h.find? name i

/-- States of both fleets that show the same. -/
def Alike (h : f.FlowsLike g) (s : f.States) (t : g.States) : Prop :=
  ∀ i, (t.get (h.index i)).shown = (s.get i).shown

variable {s : f.States} {t : g.States}

theorem alike_start (h : f.FlowsLike g) : h.Alike f.start g.start := by
  intro i
  rw [get_start, get_start]
  rfl

theorem Alike.put {h : f.FlowsLike g} (hst : h.Alike s t) (i : f.Index)
    {x : PatternStatus α β γ} {y : PatternStatus α β' γ'} (hxy : y.shown = x.shown) :
    h.Alike (s.put i x) (t.put (h.index i) y) := by
  intro k
  simp only [States.get_put, h.index_inj]
  split
  · exact hxy
  · exact hst k

theorem Alike.mark {h : f.FlowsLike g} (hst : h.Alike s t) (i : f.Index) :
    h.Alike (f.mark s i) (g.mark t (h.index i)) :=
  hst.put i (PatternStatus.shown_withResolving (hst i) true)

/-! ## Scales -/

/-- What a query does, given that working out a scale keeps states alike. -/
theorem Alike.scaledFlow_of_resolveScale {h : f.FlowsLike g} (hst : h.Alike s t) (time : α)
    (i : f.Index) (point : Point)
    (hr : h.Alike (f.resolveScale time s i).2 (g.resolveScale time t (h.index i)).2) :
    (g.scaledFlow time t (h.index i) point).1.map Prod.fst =
        (f.scaledFlow time s i point).1.map Prod.fst ∧
      h.Alike (f.scaledFlow time s i point).2 (g.scaledFlow time t (h.index i) point).2 := by
  have hsnd : h.Alike (f.scaledFlow time s i point).2
      (g.scaledFlow time t (h.index i) point).2 := by
    rw [scaledFlow_snd, scaledFlow_snd, PatternStatus.needsScale_eq (hst i),
      (h.pattern_index i).rule]
    split
    · exact hr
    · exact hst
  refine ⟨?_, hsnd⟩
  rw [scaledFlow_fst, scaledFlow_fst, (PatternStatus.shown_eq_iff.mp (hsnd i)).1]
  exact (h.pattern_index i).map_fst_flowUnder _ _ _

theorem Alike.resolveScale {h : f.FlowsLike g} (hst : h.Alike s t) (time : α) (i : f.Index) :
    (g.resolveScale time t (h.index i)).1 = (f.resolveScale time s i).1 ∧
      h.Alike (f.resolveScale time s i).2 (g.resolveScale time t (h.index i)).2 := by
  induction s, i using f.resolve_induction generalizing t with
  | step s i ih =>
      have hp := h.pattern_index i
      have hshown := PatternStatus.shown_eq_iff.mp (hst i)
      cases hh : (f.pattern i).hydrology? with
      | some scale =>
          rw [resolveScale_of_hydrology g time _ (hp.hydrology?.trans hh),
            resolveScale_of_hydrology f time s hh]
          exact ⟨rfl, hst.put i (PatternStatus.shown_withOutcome (hst i) (.ok scale))⟩
      | none =>
          have hh' := hp.hydrology?.trans hh
          have hresolving := hshown.2.2.2.2
          cases hi : (s.get i).isResolving with
          | true =>
              rw [resolveScale_of_isResolving g time _ hh' (hresolving.trans hi),
                resolveScale_of_isResolving f time s hh hi]
              exact ⟨congrArg Except.ok hshown.1, hst⟩
          | false =>
              -- The matched pattern is asked in the states with one mark more, which are alike too.
              have hask : (g.askMatched time (g.mark t (h.index i)) (h.index i)).1 =
                    (f.askMatched time (f.mark s i) i).1 ∧
                  h.Alike (f.askMatched time (f.mark s i) i).2
                    (g.askMatched time (g.mark t (h.index i)) (h.index i)).2 := by
                cases hj : f.matched? i with
                | none =>
                    rw [askMatched_of_none f time _ hj,
                      askMatched_of_none g time _ (by rw [h.matched?, hj]; rfl)]
                    exact ⟨rfl, hst.mark i⟩
                | some j =>
                    have hflow := (hst.mark i).scaledFlow_of_resolveScale time j
                      (f.pattern i).reference (ih hi j (hst.mark i)).2
                    rw [askMatched_of_some f time _ hj,
                      askMatched_of_some g time _ (by rw [h.matched?, hj]; rfl), hp.reference]
                    exact ⟨congrArg some hflow.1, hflow.2⟩
              have hout : g.outcome time t (h.index i) = f.outcome time s i := by
                rw [outcome, outcome, hp.field, hp.rule, hp.reference, hask.1]
              rw [resolveScale_of_idle g time _ hh' (hresolving.trans hi),
                resolveScale_of_idle f time s hh hi, hout]
              refine ⟨rfl, hask.2.put i (PatternStatus.shown_withResolving ?_ false)⟩
              exact PatternStatus.shown_withOutcome (hask.2 i) _

theorem Alike.scaledFlow {h : f.FlowsLike g} (hst : h.Alike s t) (time : α) (i : f.Index)
    (point : Point) :
    (g.scaledFlow time t (h.index i) point).1.map Prod.fst =
        (f.scaledFlow time s i point).1.map Prod.fst ∧
      h.Alike (f.scaledFlow time s i point).2 (g.scaledFlow time t (h.index i) point).2 :=
  hst.scaledFlow_of_resolveScale time i point (hst.resolveScale time i).2

end FlowsLike

end Fleet

end CurrentDrift
