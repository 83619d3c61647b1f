import CurrentDrift.Binary64
import CurrentDrift.Proofs.Drift.Agreement
import CurrentDrift.Proofs.Drift.Members
import CurrentDrift.Proofs.Mesh.Descent

/-! # Time series that are not active

The time series of a pattern can be switched off. Its values are then never looked at; its hydrology
factor, however, goes on taking the place of the scale. Main statement: a series that is switched
off makes no difference in any fleet exactly if it has no hydrology factor. -/

namespace CurrentDrift

variable {α β γ : Type}

/-! ## Replacing patterns -/

/-- The mover with its pattern replaced; a mover of another kind stays. -/
def Mover.mapPattern (g : Pattern α β γ → Pattern α β γ) : Mover α β γ → Mover α β γ
  | .current p => .current (g p)
  | .simple m => .simple m

theorem Mover.pattern?_mapPattern (g : Pattern α β γ → Pattern α β γ) (mover : Mover α β γ) :
    (mover.mapPattern g).pattern? = mover.pattern?.map g := by
  cases mover <;> rfl

theorem zipIdx_mapIdx {δ ε : Type} (xs : List δ) (g : Nat → δ → ε) :
    (xs.mapIdx g).zipIdx = xs.zipIdx.map fun (x, i) => (g i x, i) := by
  apply List.ext_getElem <;> simp

namespace Fleet

/-- The fleet with each of its patterns replaced. -/
def mapPatterns (f : Fleet α β γ) (g : Place → Pattern α β γ → Pattern α β γ) : Fleet α β γ :=
  ⟨f.maps.mapIdx fun i m =>
    { m with movers := m.movers.mapIdx fun k mover => mover.mapPattern (g ⟨i, k⟩) }⟩

theorem movers_mapPatterns (f : Fleet α β γ) (g : Place → Pattern α β γ → Pattern α β γ) :
    (f.mapPatterns g).movers = f.movers.map fun (place, mover) =>
      (place, mover.mapPattern (g place)) := by
  simp only [movers, mapPatterns, zipIdx_mapIdx, List.map_flatMap, List.flatMap_map, List.map_map,
    Function.comp_def]

theorem patterns_mapPatterns (f : Fleet α β γ) (g : Place → Pattern α β γ → Pattern α β γ) :
    (f.mapPatterns g).patterns = f.patterns.map fun (place, p) => (place, g place p) := by
  rw [patterns, patterns, movers_mapPatterns, List.filterMap_map, List.map_filterMap]
  congr 1
  funext x
  obtain ⟨place, mover⟩ := x
  simp only [Function.comp, Mover.pattern?_mapPattern]
  cases mover.pattern? <;> rfl

theorem size_mapPatterns (f : Fleet α β γ) (g : Place → Pattern α β γ → Pattern α β γ) :
    f.patterns.length = (f.mapPatterns g).patterns.length := by
  rw [patterns_mapPatterns, List.length_map]

theorem pattern_mapPatterns (f : Fleet α β γ) (g : Place → Pattern α β γ → Pattern α β γ)
    (i : f.Index) :
    (f.mapPatterns g).pattern (i.cast (f.size_mapPatterns g)) = g (f.place i) (f.pattern i) := by
  simp only [pattern, place, Fin.getElem_fin, Fin.val_cast,
    List.getElem_of_eq (f.patterns_mapPatterns g), List.getElem_map]

/-! ## Fleets without a time series -/

/-- The fleet with one pattern that has no time series. -/
def withoutFactor (f : Fleet α β γ) (i : f.Index) : Fleet α β γ :=
  f.mapPatterns fun place p => if place = f.place i then { p with factor := none } else p

theorem size_withoutFactor (f : Fleet α β γ) (i : f.Index) :
    f.patterns.length = (f.withoutFactor i).patterns.length :=
  f.size_mapPatterns _

theorem pattern_withoutFactor (f : Fleet α β γ) (i k : f.Index) :
    (f.withoutFactor i).pattern (k.cast (f.size_withoutFactor i)) =
      if k = i then { f.pattern k with factor := none } else f.pattern k := by
  refine (f.pattern_mapPatterns _ k).trans ?_
  simp only [f.place_injective.eq_iff]

variable [Scalar α]

theorem agrees_withoutFactor (f : Fleet α β γ) (i : f.Index)
    (hoff : (f.pattern i).isFactorActive = false) (hh : (f.pattern i).hydrology? = none) :
    f.Agrees (f.withoutFactor i) := by
  refine ⟨f.size_withoutFactor i, fun k => ?_⟩
  rw [pattern_withoutFactor]
  split
  · next hk =>
    subst hk
    refine ⟨rfl, hh.symm, fun time => ?_⟩
    simp [Pattern.timeFactor, hoff]
  · exact .refl _

/-! ## The first query -/

/-- A pattern that is alone has none to match. -/
theorem outcome_of_alone (f : Fleet α β γ) (time : α) (s : f.States) (i : f.Index)
    (h : f.patterns.length = 1) :
    f.outcome time s i =
      Scaling.factor (f.pattern i).field (f.pattern i).rule (f.pattern i).reference none := by
  have hnone : f.matched? i = none := by
    rw [Option.eq_none_iff_forall_ne_some]
    intro j hj
    exact matched?_ne hj (Fin.ext (by omega))
  rw [outcome, askMatched_of_none f time _ hnone]

section FirstQuery

variable [TableSupply α β γ] [RandomSource α γ]

/-- At the beginning of a run the scale is worked out before it is used. -/
theorem scale_first_query (f : Fleet α β γ) (time : α) (i : f.Index) (point : Point) :
    ((f.after [.query time i point]).get i).scale =
      ((f.resolveScale time f.start i).2.get i).scale := by
  rw [after_cons, after_nil, Call.apply, scaledFlow_snd, get_start, if_pos]
  rfl

theorem scale_first_query_of_hydrology (f : Fleet α β γ) (time : α) {i : f.Index} (point : Point)
    {scale : α} (hh : (f.pattern i).hydrology? = some scale) :
    ((f.after [.query time i point]).get i).scale = scale := by
  rw [scale_first_query, resolveScale_of_hydrology f time _ hh, States.get_put_self]
  rfl

theorem scale_first_query_of_idle (f : Fleet α β γ) (time : α) {i : f.Index} (point : Point)
    (hh : (f.pattern i).hydrology? = none) :
    ((f.after [.query time i point]).get i).scale =
      (f.outcome time f.start i).toOption.getD 0.0 := by
  rw [scale_first_query, scale_resolveScale_of_idle f time _ hh]
  rw [get_start]
  rfl

end FirstQuery

/-! ## Series that make no difference -/

/-- The calls that a step is made of: preparing, asking, moving and finishing. -/
def Call.IsOfStep {f : Fleet α β γ} : Call f → Prop
  | .rescale _ _ => False
  | _ => True

/-- The scale of a pattern, and the answers and moves of it and of those that match it, are the same
after the same calls whether it has a time series or not. -/
def IgnoresFactor [TableSupply α β γ] [RandomSource α γ] (f : Fleet α β γ) (i : f.Index) : Prop :=
  ∀ calls : List (Call f), (∀ call ∈ calls, call.IsOfStep) →
    let g := f.withoutFactor i
    let other (k : f.Index) : g.Index := k.cast (f.size_withoutFactor i)
    let s := f.after calls
    let s' := g.after (calls.map (Call.cast (f.size_withoutFactor i)))
    (s'.get (other i)).scale = (s.get i).scale ∧
      ∀ k, k = i ∨ (∃ name, (f.pattern k).rule = .toPattern name ∧
          f.find? name (some k) = some i) →
        (∀ time point, (g.scaledFlow time s' (other k) point).1 =
          (f.scaledFlow time s k point).1) ∧
        ∀ m particle dt, (g.move m s' (other k) particle dt).1 = (f.move m s k particle dt).1

theorem ignoresFactor_of_hydrology [TableSupply α β γ] [RandomSource α γ] (f : Fleet α β γ)
    (i : f.Index) (hoff : (f.pattern i).isFactorActive = false)
    (hh : (f.pattern i).hydrology? = none) : f.IgnoresFactor i := by
  have h := f.agrees_withoutFactor i hoff hh
  intro calls _ g other s s'
  have hs : s' = h.states s := h.after_map_cast calls
  rw [hs]
  refine ⟨congrArg PatternStatus.scale (h.get_states s i), fun k _ => ⟨?_, ?_⟩⟩
  · intro time point
    exact congrArg Prod.fst (h.scaledFlow time s k point)
  · intro m particle dt
    exact congrArg Prod.fst (h.move m s k particle dt)

/-- A fleet of one pattern with a series that is switched off. -/
def alone [Inhabited β] [Inhabited γ] (tf : TimeFactor α) (rule : ScaleRule α) : Fleet α β γ :=
  ⟨[⟨"map", [.current { Pattern.plain "a" (FlowField.oneTriangle Velocity.zero) default default with
    rule
    factor := some tf }]⟩]⟩

theorem scale_eq_of_ignoresFactor_alone [Inhabited β] [Inhabited γ] [TableSupply α β γ]
    [RandomSource α γ] {tf : TimeFactor α} {scale : α} (hh : tf.hydrology = some scale)
    (rule : ScaleRule α)
    (h : (alone tf rule : Fleet α β γ).IgnoresFactor ⟨0, Nat.one_pos⟩) :
    (Scaling.factor (FlowField.oneTriangle Velocity.zero) rule Point.zero none).toOption.getD 0.0 =
      scale := by
  let f : Fleet α β γ := alone tf rule
  let i : f.Index := ⟨0, Nat.one_pos⟩
  let j := i.cast (f.size_withoutFactor i)
  have hj : (f.withoutFactor i).pattern j = { f.pattern i with factor := none } :=
    (f.pattern_withoutFactor i i).trans (if_pos rfl)
  have hwith : ((f.after [.query 0.0 i Point.zero]).get i).scale = scale :=
    f.scale_first_query_of_hydrology 0.0 Point.zero hh
  have hwithout : (((f.withoutFactor i).after [.query 0.0 j Point.zero]).get j).scale =
      ((f.withoutFactor i).outcome 0.0 (f.withoutFactor i).start j).toOption.getD 0.0 := by
    apply scale_first_query_of_idle
    rw [hj]
    rfl
  have hsame : (((f.withoutFactor i).after [.query 0.0 j Point.zero]).get j).scale =
      ((f.after [.query 0.0 i Point.zero]).get i).scale :=
    (h [.query 0.0 i Point.zero] (by simp [Call.IsOfStep])).1
  rw [← hwith, ← hsame, hwithout, outcome_of_alone _ _ _ _ (f.size_withoutFactor i).symm, hj]
  rfl

/-! ## Series that are switched off -/

/-- A series that is switched off makes no difference, whatever its points, its extrapolation and
the fleet are, exactly if it has no hydrology factor. -/
theorem ignoresFactor_iff_hydrology_eq_none [Inhabited β] [Inhabited γ] [TableSupply Float β γ]
    [RandomSource Float γ] (tf : TimeFactor Float) :
    (∀ (f : Fleet Float β γ) (i : f.Index), (f.pattern i).factor = some tf →
      (f.pattern i).isFactorActive = false → f.IgnoresFactor i) ↔ tf.hydrology = none := by
  constructor
  · intro h
    rw [Option.eq_none_iff_forall_ne_some]
    intro scale hh
    have hone := scale_eq_of_ignoresFactor_alone hh .unscaled (h (alone tf .unscaled) _ rfl rfl)
    have hzero := scale_eq_of_ignoresFactor_alone hh (.toPattern "b")
      (h (alone tf (.toPattern "b")) _ rfl rfl)
    have hne : (1.0 : Float) ≠ 0.0 := by decide
    exact hne (hone.trans hzero.symm)
  · intro hh f i htf hoff
    apply ignoresFactor_of_hydrology f i hoff
    rw [Pattern.hydrology?, htf]
    exact hh

end Fleet

end CurrentDrift
