import CurrentDrift.Proofs.Drift.Likeness

/-! # Fleets that agree

Of a time series a fleet sees two things only: its hydrology factor and what the flow is multiplied
by at each time. Main statement: fleets whose patterns are the same up to time series of which the
same is seen go through the same states and give the same answers. -/

namespace CurrentDrift

variable {α β γ : Type} [Scalar α]

/-- Two patterns with the same name, field, rule and all, whose time series have the same say. -/
structure Pattern.Agrees (p q : Pattern α β γ) : Prop where
  rest : q = { p with factor := q.factor, isFactorActive := q.isFactorActive }
  hydrology? : q.hydrology? = p.hydrology?
  timeFactor : ∀ time, q.timeFactor time = p.timeFactor time

namespace Pattern

theorem Agrees.refl (p : Pattern α β γ) : p.Agrees p :=
  ⟨rfl, rfl, fun _ => rfl⟩

variable {p q : Pattern α β γ}

theorem Agrees.eddy (h : p.Agrees q) : q.eddy = p.eddy := by
  rw [h.rest]

theorem Agrees.start (h : p.Agrees q) : q.start = p.start := by
  rw [h.rest]
  rfl

theorem Agrees.flowsLike (h : p.Agrees q) : p.FlowsLike q where
  name := by rw [h.rest]
  field := by rw [h.rest]
  rule := by rw [h.rest]
  reference := by rw [h.rest]
  hydrology? := h.hydrology?
  timeFactor := h.timeFactor
  isActive time := by
    rw [h.rest]
    rfl

theorem Agrees.flowUnder (h : p.Agrees q) (scale time : α) (point : Point) :
    q.flowUnder scale time point = p.flowUnder scale time point := by
  simp only [Pattern.flowUnder, Pattern.rawFlow, h.flowsLike.field, h.eddy, h.timeFactor]

end Pattern

namespace Fleet

/-- Fleets with as many patterns that agree one by one. -/
structure Agrees (f g : Fleet α β γ) : Prop where
  size : f.patterns.length = g.patterns.length
  pattern : ∀ i : f.Index, (f.pattern i).Agrees (g.pattern (i.cast size))

/-- The same call on a fleet with as many patterns. -/
def Call.cast {f g : Fleet α β γ} (h : f.patterns.length = g.patterns.length) : Call f → Call g
  | .prepare m i => .prepare m (i.cast h)
  | .query time i point => .query time (i.cast h) point
  | .rescale time i => .rescale time (i.cast h)
  | .move m i particle dt => .move m (i.cast h) particle dt
  | .finish i => .finish (i.cast h)

namespace Agrees

variable {f g : Fleet α β γ}

theorem flowsLike (h : f.Agrees g) : f.FlowsLike g :=
  ⟨h.size, fun i => (h.pattern i).flowsLike⟩

/-- The number of a pattern in the other fleet. -/
def index (h : f.Agrees g) (i : f.Index) : g.Index := i.cast h.size

/-- The states as states of the other fleet. -/
def states (h : f.Agrees g) (s : f.States) : g.States := s.cast h.size

theorem pattern_index (h : f.Agrees g) (i : f.Index) :
    (f.pattern i).Agrees (g.pattern (h.index i)) :=
  h.pattern i

@[simp] theorem get_states (h : f.Agrees g) (s : f.States) (i : f.Index) :
    (h.states s).get (h.index i) = s.get i := by
  simp [states, index, States.get]

theorem states_put (h : f.Agrees g) (s : f.States) (i : f.Index) (x : PatternStatus α β γ) :
    h.states (s.put i x) = (h.states s).put (h.index i) x := by
  apply Vector.ext
  intro k hk
  simp [states, index, States.put, Vector.getElem_set]

theorem states_start (h : f.Agrees g) : h.states f.start = g.start := by
  apply Vector.ext
  intro k hk
  have hs := (h.pattern ⟨k, h.size ▸ hk⟩).start
  simpa [states, Fleet.start] using hs.symm

theorem alike_states (h : f.Agrees g) (s : f.States) : h.flowsLike.Alike s (h.states s) :=
  fun i => congrArg PatternStatus.shown (h.get_states s i)

/-- States that show the same and have the same tables, supplies and sources are the same. -/
theorem eq_states_of_alike (h : f.Agrees g) {s : f.States} {t : g.States}
    (hst : h.flowsLike.Alike s t) (hbase : ∀ i, (t.get (h.index i)).base = (s.get i).base) :
    t = h.states s := by
  apply Vector.ext
  intro k hk
  let i : f.Index := ⟨k, h.size ▸ hk⟩
  have hi := PatternStatus.eq_of_shown_eq_of_base_eq (hst i) (hbase i)
  simpa [States.get, FlowsLike.index, states, i] using hi

/-! ## Scales -/

theorem resolveScale (h : f.Agrees g) (time : α) (s : f.States) (i : f.Index) :
    g.resolveScale time (h.states s) (h.index i) =
      (f.resolveScale time s i).map id h.states := by
  obtain ⟨hfst, hsnd⟩ := (h.alike_states s).resolveScale time i
  have hstates : (g.resolveScale time (h.states s) (h.index i)).2 =
      h.states (f.resolveScale time s i).2 := by
    apply h.eq_states_of_alike hsnd
    intro k
    rw [base_resolveScale, base_resolveScale, get_states]
  exact Prod.ext hfst hstates

theorem scaledFlow (h : f.Agrees g) (time : α) (s : f.States) (i : f.Index) (point : Point) :
    g.scaledFlow time (h.states s) (h.index i) point =
      (f.scaledFlow time s i point).map id h.states := by
  have hsnd : (g.scaledFlow time (h.states s) (h.index i) point).2 =
      h.states (f.scaledFlow time s i point).2 := by
    apply h.eq_states_of_alike ((h.alike_states s).scaledFlow time i point).2
    intro k
    rw [base_scaledFlow, base_scaledFlow, get_states]
  refine Prod.ext ?_ hsnd
  rw [scaledFlow_fst, hsnd, get_states, (h.pattern_index i).flowUnder, Prod.map_fst,
    scaledFlow_fst]
  rfl

/-! ## Calls -/

theorem prepare [TableSupply α β γ] (h : f.Agrees g) (m : Moment α) (s : f.States)
    (i : f.Index) :
    g.prepare m (h.states s) (h.index i) = (f.prepare m s i).map id h.states := by
  have hrenewal : g.renewal m (h.states s) (h.index i) = f.renewal m s i := by
    rw [renewal, renewal, get_states]
  have htable : g.withTable m (h.states s) (h.index i) = h.states (f.withTable m s i) := by
    rw [withTable, withTable, hrenewal, get_states, states_put]
  cases hr : (f.renewal m s i).outcome with
  | error e =>
      rw [prepare_of_error f m s i hr, prepare_of_error g m _ _ (by rw [hrenewal, hr]), htable]
      rfl
  | ok u =>
      rw [prepare_of_ok f m s i hr, prepare_of_ok g m _ _ (by rw [hrenewal, hr]), htable,
        h.resolveScale]
      simp only [Prod.map, id_eq, get_states, states_put, stepData, (h.pattern_index i).eddy]

theorem finish (h : f.Agrees g) (s : f.States) (i : f.Index) :
    g.finish (h.states s) (h.index i) = h.states (f.finish s i) := by
  rw [Fleet.finish, Fleet.finish, get_states, states_put]

section Moving

variable [RandomSource α γ]

theorem varied (h : f.Agrees g) (s : f.States) (i : f.Index) (particle : Particle)
    (v : Velocity α) (dt : α) (useEddy : Bool) :
    g.varied (h.states s) (h.index i) particle v dt useEddy =
      (f.varied s i particle v dt useEddy).map id h.states := by
  unfold Fleet.varied
  rw [get_states, (h.pattern_index i).eddy]
  cases (s.get i).table with
  | none => rfl
  | some table =>
      simp only [← states_put]
      split <;> rfl

theorem move (h : f.Agrees g) (m : Moment α) (s : f.States) (i : f.Index)
    (particle : Particle) (dt : α) :
    g.move m (h.states s) (h.index i) particle dt =
      (f.move m s i particle dt).map id h.states := by
  unfold Fleet.move
  rw [(h.pattern_index i).flowsLike.isActive, h.scaledFlow]
  cases (f.pattern i).isActive m.clock.now with
  | false => rfl
  | true =>
      rcases f.scaledFlow m.clock.now s i particle.position with ⟨flow, s'⟩
      cases flow with
      | error e => rfl
      | ok v =>
          cases hkind : particle.kind with
          | forecast => rfl
          | uncertain =>
              simp only [Prod.map, id_eq, h.varied]
              rfl

end Moving

variable [TableSupply α β γ] [RandomSource α γ]

theorem apply_cast (h : f.Agrees g) (s : f.States) (call : Call f) :
    (call.cast h.size).apply (h.states s) = h.states (call.apply s) := by
  cases call with
  | prepare m i => exact congrArg Prod.snd (h.prepare m s i)
  | query time i point => exact congrArg Prod.snd (h.scaledFlow time s i point)
  | rescale time i => exact congrArg Prod.snd (h.resolveScale time s i)
  | move m i particle dt => exact congrArg Prod.snd (h.move m s i particle dt)
  | finish i => exact h.finish s i

/-- The same calls lead to the same states. -/
theorem after_map_cast (h : f.Agrees g) (calls : List (Call f)) :
    g.after (calls.map (Call.cast h.size)) = h.states (f.after calls) := by
  induction calls with
  | nil => exact h.states_start.symm
  | cons call calls ih => rw [List.map_cons, after_cons, ih, apply_cast, after_cons]

end Agrees

end Fleet

end CurrentDrift
