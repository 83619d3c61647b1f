import CurrentDrift.Binary64
import CurrentDrift.Proofs.Drift.Forecast
import CurrentDrift.Proofs.Mesh.Descent
import Mathlib.Data.Fin.VecNotation
import Mathlib.Data.List.OfFn
import Mathlib.Logic.Equiv.Defs

/-! # The order of calls in a prepared fleet

While all patterns are prepared, they are asked for velocities and for displacements of particles,
in any order. Main statement: what such a call changes is the random source of its own pattern, and
only if it draws from it; a call that draws nothing is answered in the same way wherever it
stands. -/

namespace CurrentDrift

variable {α β γ : Type}

/-- A state without its random source. -/
def PatternStatus.unsourced (x : PatternStatus α β γ) : PatternStatus α β Unit :=
  { x with source := () }

namespace PatternStatus

theorem scale_eq_of_unsourced_eq {x y : PatternStatus α β γ} (h : x.unsourced = y.unsourced) :
    x.scale = y.scale :=
  (congrArg scale h :)

theorem step_eq_of_unsourced_eq {x y : PatternStatus α β γ} (h : x.unsourced = y.unsourced) :
    x.step = y.step :=
  (congrArg step h :)

theorem table_eq_of_unsourced_eq {x y : PatternStatus α β γ} (h : x.unsourced = y.unsourced) :
    x.table = y.table :=
  (congrArg table h :)

theorem eq_of_unsourced_eq {x y : PatternStatus α β γ} (h : x.unsourced = y.unsourced) :
    x = { y with source := x.source } := by
  simp only [unsourced, mk.injEq] at h
  obtain ⟨hscale, hscaled, hlacks, hstep, htable, hresolving, hsupply, -⟩ := h
  rw [← hscale, ← hscaled, ← hlacks, ← hstep, ← htable, ← hresolving, ← hsupply]

end PatternStatus

namespace Fleet

variable [Scalar α] [RandomSource α γ] {f : Fleet α β γ} {s t : f.States}

/-! ## Moves -/

/-- What it takes for a pattern to draw random numbers for the move of a particle. -/
structure Draws (s : f.States) (m : Moment α) (i : f.Index) (particle : Particle) : Prop where
  isUncertain : particle.kind = .uncertain
  isActive : (f.pattern i).isActive m.clock.now = true
  hasEddies : ∃ v, (f.pattern i).flowUnder (s.get i).scale m.clock.now particle.position =
    .ok (v, true)
  hasRecord : ∃ table record, (s.get i).table = some table ∧
    table.record? particle.set particle.index = some record

/-- Without a table, without a record and without eddies nothing is drawn. -/
theorem varied_of_still {i : f.Index} (hst : (t.get i).unsourced = (s.get i).unsourced)
    (particle : Particle) (v : Velocity α) (dt : α) {useEddy : Bool}
    (h : ∀ table record, (s.get i).table = some table →
      table.record? particle.set particle.index = some record → useEddy = false) :
    f.varied t i particle v dt useEddy = ((f.varied s i particle v dt useEddy).1, t) := by
  unfold varied
  rw [PatternStatus.table_eq_of_unsourced_eq hst, PatternStatus.step_eq_of_unsourced_eq hst]
  cases htable : (s.get i).table with
  | none => rfl
  | some table =>
      unfold Eddy.disturb
      cases hrecord : table.record? particle.set particle.index with
      | none =>
          simp only [Option.bind_some, hrecord]
          exact Prod.ext rfl (t.put_get i)
      | some record =>
          obtain rfl := h table record htable hrecord
          simp only [Option.bind_some, hrecord, Eddy.drawPair]
          exact Prod.ext rfl (t.put_get i)

theorem unsourced_move (m : Moment α) {i : f.Index} (hi : (s.get i).step.isPrepared = true)
    (k : f.Index) (particle : Particle) (dt : α) :
    ((f.move m s i particle dt).2.get k).unsourced = (s.get k).unsourced := by
  have hmove := f.move_snd m s i particle dt
  rw [scaledFlow_of_isPrepared f _ s i _ hi, ite_self] at hmove
  rcases hmove with h | ⟨v, useEddy, h⟩
  · rw [h]
  · rw [h, f.view_varied PatternStatus.unsourced fun _ _ => rfl]

theorem move_of_not_draws (m : Moment α) {i : f.Index} (hi : (s.get i).step.isPrepared = true)
    (hst : (t.get i).unsourced = (s.get i).unsourced) {particle : Particle}
    (h : ¬ Draws s m i particle) (dt : α) :
    f.move m t i particle dt = ((f.move m s i particle dt).1, t) := by
  have hstep := PatternStatus.step_eq_of_unsourced_eq hst
  unfold move
  rw [scaledFlow_of_isPrepared f _ s i _ hi, scaledFlow_of_isPrepared f _ t i _ (hstep ▸ hi),
    PatternStatus.scale_eq_of_unsourced_eq hst]
  cases hactive : (f.pattern i).isActive m.clock.now with
  | false => rfl
  | true =>
      cases hflow : (f.pattern i).flowUnder (s.get i).scale m.clock.now particle.position with
      | error e => rfl
      | ok v =>
          cases hkind : particle.kind with
          | forecast => rfl
          | uncertain =>
              -- With a record and eddies the move would draw.
              have hstill : ∀ table record, (s.get i).table = some table →
                  table.record? particle.set particle.index = some record → v.2 = false := by
                intro table record htable hrecord
                by_contra heddy
                rw [Bool.not_eq_false] at heddy
                exact h ⟨hkind, hactive, ⟨v.1, by rw [hflow, ← heddy]⟩, table, record, htable,
                  hrecord⟩
              simp only [varied_of_still hst particle v.1 dt hstill]
              rfl

theorem move_of_draws (m : Moment α) {i : f.Index} (hi : (s.get i).step.isPrepared = true)
    {particle : Particle} (h : Draws s m i particle) (dt : α) :
    (f.move m s i particle dt).2 = s.put i { s.get i with
      source := (Eddy.drawPair true (s.get i).step (s.get i).source).2 } := by
  obtain ⟨hkind, hactive, ⟨v, hflow⟩, table, record, htable, hrecord⟩ := h
  unfold move
  rw [scaledFlow_of_isPrepared f _ s i _ hi, hactive, hflow, hkind]
  simp only [Bool.not_true, Bool.false_eq_true, if_false, varied, htable, Eddy.disturb, hrecord,
    Option.bind_some]

omit [RandomSource α γ] in
theorem draws_congr (hst : ∀ k, (t.get k).unsourced = (s.get k).unsourced) {m : Moment α}
    {i : f.Index} {particle : Particle} (h : Draws t m i particle) : Draws s m i particle := by
  have hscale := PatternStatus.scale_eq_of_unsourced_eq (hst i)
  have htable := PatternStatus.table_eq_of_unsourced_eq (hst i)
  exact ⟨h.isUncertain, h.isActive, hscale ▸ h.hasEddies, htable ▸ h.hasRecord⟩

theorem moveEach_of_not_draws (m : Moment α) {i : f.Index}
    (hi : (s.get i).step.isPrepared = true) {particles : List Particle}
    (h : ∀ p ∈ particles, ¬ Draws s m i p) (dt : α) :
    f.moveEach m s i particles dt = (particles.map fun p => (f.move m s i p dt).1, s) := by
  induction particles with
  | nil => rfl
  | cons p ps ih =>
      obtain ⟨hp, hps⟩ := List.forall_mem_cons.mp h
      rw [moveEach, move_of_not_draws m hi rfl hp dt]
      dsimp only
      rw [ih hps, List.map_cons]

/-! ## Requests -/

omit [Scalar α] [RandomSource α γ] in
theorem IsPrepared.of_unsourced (hs : IsPrepared s)
    (hst : ∀ k, (t.get k).unsourced = (s.get k).unsourced) : IsPrepared t := by
  intro i
  rw [PatternStatus.step_eq_of_unsourced_eq (hst i)]
  exact hs i

/-- A question to a pattern: for a velocity, or for the displacement of a particle. -/
inductive Request (f : Fleet α β γ) where
  | flow (time : α) (i : f.Index) (point : Point)
  | move (m : Moment α) (i : f.Index) (particle : Particle) (dt : α)

/-- The answer to a request. -/
inductive Answer (α : Type) where
  | flow (found : Except (DriftError α) (Velocity α × Bool))
  | moved (d : Displacement α)

namespace Request

/-- The pattern that is asked. -/
def target : Request f → f.Index
  | .flow _ i _ => i
  | .move _ i _ _ => i

/-- The request takes random numbers. -/
def Draws (s : f.States) : Request f → Prop
  | .flow _ _ _ => False
  | .move m i particle _ => Fleet.Draws s m i particle

/-- The answer to a request, and the states after it. -/
def perform (s : f.States) : Request f → Answer α × f.States
  | .flow time i point =>
    let (found, s) := f.scaledFlow time s i point
    (.flow found, s)
  | .move m i particle dt =>
    let (d, s) := f.move m s i particle dt
    (.moved d, s)

/-- The answers to requests that are made one after the other, and the states after them. -/
def performEach (s : f.States) : List (Request f) → List (Answer α) × f.States
  | [] => ([], s)
  | r :: rs =>
    let (a, s) := r.perform s
    let (as, s) := performEach s rs
    (a :: as, s)

omit [RandomSource α γ] in
theorem Draws.congr {r : Request f} (hst : ∀ k, (t.get k).unsourced = (s.get k).unsourced)
    (h : r.Draws t) : r.Draws s := by
  cases r with
  | flow time i point => exact h
  | move m i particle dt => exact draws_congr hst h

/-! ## One request -/

theorem unsourced_perform (hs : IsPrepared s) (r : Request f) (k : f.Index) :
    ((r.perform s).2.get k).unsourced = (s.get k).unsourced := by
  cases r with
  | flow time i point => rw [perform, scaledFlow_of_isPrepared f time s i point (hs i)]
  | move m i particle dt => exact unsourced_move m (hs i) k particle dt

theorem get_perform_of_ne (hs : IsPrepared s) (r : Request f) {k : f.Index} (hk : k ≠ r.target) :
    (r.perform s).2.get k = s.get k := by
  cases r with
  | flow time i point => rw [perform, scaledFlow_of_isPrepared f time s i point (hs i)]
  | move m i particle dt =>
      change k ≠ i at hk
      change (f.move m s i particle dt).2.get k = s.get k
      rw [f.get_move_of_ne m s hk, scaledFlow_of_isPrepared f _ s i _ (hs i), ite_self]

/-- A request that draws nothing changes nothing, and random sources have no influence on its
answer. -/
theorem perform_of_not_draws (hs : IsPrepared s)
    (hst : ∀ k, (t.get k).unsourced = (s.get k).unsourced) {r : Request f} (h : ¬ r.Draws s) :
    r.perform t = ((r.perform s).1, t) := by
  cases r with
  | flow time i point =>
      rw [perform, perform, scaledFlow_of_isPrepared f time s i point (hs i),
        scaledFlow_of_isPrepared f time t i point (hs.of_unsourced hst i),
        PatternStatus.scale_eq_of_unsourced_eq (hst i)]
  | move m i particle dt =>
      rw [perform, perform, move_of_not_draws m (hs i) (hst i) h dt]

/-! ## Many requests -/

theorem unsourced_performEach (hs : IsPrepared s) (rs : List (Request f)) (k : f.Index) :
    ((performEach s rs).2.get k).unsourced = (s.get k).unsourced := by
  induction rs generalizing s with
  | nil => rfl
  | cons r rs ih =>
      have hr := r.unsourced_perform hs
      exact (ih (hs.of_unsourced hr)).trans (hr k)

theorem get_performEach_of_not_draws (hs : IsPrepared s) {rs : List (Request f)} {k : f.Index}
    (h : ∀ r ∈ rs, r.target = k → ¬ r.Draws s) : (performEach s rs).2.get k = s.get k := by
  induction rs generalizing s with
  | nil => rfl
  | cons r rs ih =>
      obtain ⟨hfirst, hrest⟩ := List.forall_mem_cons.mp h
      have hr := r.unsourced_perform hs
      have hkeep : (r.perform s).2.get k = s.get k := by
        by_cases hk : r.target = k
        · rw [perform_of_not_draws hs (fun _ => rfl) (hfirst hk)]
        · exact r.get_perform_of_ne hs (Ne.symm hk)
      refine (ih (hs.of_unsourced hr) fun q hq hk hdraws => ?_).trans hkeep
      exact hrest q hq hk (hdraws.congr hr)

/-- What has been asked before is without influence on the answer to a request that draws
nothing. -/
theorem getElem?_performEach (hs : IsPrepared s) {rs : List (Request f)} {n : Nat} {r : Request f}
    (hr : rs[n]? = some r) (h : ¬ r.Draws s) :
    (performEach s rs).1[n]? = some (r.perform s).1 := by
  -- The earlier requests lead through states that differ from `s` in their random sources only.
  have hrun : ∀ t : f.States, (∀ k, (t.get k).unsourced = (s.get k).unsourced) →
      (performEach t rs).1[n]? = some (r.perform s).1 := by
    intro t hst
    induction rs generalizing n t with
    | nil => simp at hr
    | cons q qs ih =>
        cases n with
        | zero =>
            simp only [List.getElem?_cons_zero, Option.some.injEq] at hr
            subst hr
            simp [performEach, perform_of_not_draws hs hst h]
        | succ n =>
            rw [List.getElem?_cons_succ] at hr
            have hq := q.unsourced_perform (hs.of_unsourced hst)
            exact ih hr _ fun k => (hq k).trans (hst k)
  exact hrun s fun _ => rfl

end Request

/-- The order of requests does not matter in a state. They change nothing but random sources, only
those of their own patterns, and only when they draw from them; whether they do is decided by what
stays the same. All other requests are answered as if they were made alone, in every order, and so
are those for many particles one after the other. -/
structure IsUnordered (s : f.States) : Prop where
  keeps : ∀ (rs : List (Request f)) (k : f.Index), (Request.performEach s rs).2.get k =
    { s.get k with source := ((Request.performEach s rs).2.get k).source }
  source : ∀ (rs : List (Request f)) (k : f.Index),
    (∀ r ∈ rs, r.target = k → ¬ r.Draws s) → (Request.performEach s rs).2.get k = s.get k
  drawn : ∀ (m : Moment α) (i : f.Index) (particle : Particle) (dt : α), Draws s m i particle →
    (f.move m s i particle dt).2 = s.put i { s.get i with
      source := (Eddy.drawPair true (s.get i).step (s.get i).source).2 }
  answers : ∀ (rs : List (Request f)) (n : Nat) (r : Request f), rs[n]? = some r → ¬ r.Draws s →
    (Request.performEach s rs).1[n]? = some (r.perform s).1
  reordered : ∀ (n : Nat) (rs : Fin n → Request f) (σ : Equiv.Perm (Fin n)) (k : Fin n),
    ¬ (rs (σ k)).Draws s →
      (Request.performEach s (List.ofFn (rs ∘ σ))).1[k.val]? =
        (Request.performEach s (List.ofFn rs)).1[(σ k).val]?
  moves : ∀ (m : Moment α) (i : f.Index) (dt : α) (n : Nat) (particles : Fin n → Particle),
    (∀ k, ¬ Draws s m i (particles k)) → ∃ ds : Fin n → Displacement α,
      ∀ σ : Equiv.Perm (Fin n),
        f.moveEach m s i (List.ofFn (particles ∘ σ)) dt = (List.ofFn (ds ∘ σ), s)

/-- In a prepared fleet the order of requests does not matter. -/
theorem isUnordered_of_isPrepared (hs : IsPrepared s) : IsUnordered s where
  keeps rs k := PatternStatus.eq_of_unsourced_eq (Request.unsourced_performEach hs rs k)
  source rs k h := Request.get_performEach_of_not_draws hs h
  drawn m i particle dt h := move_of_draws m (hs i) h dt
  answers rs n r hr h := Request.getElem?_performEach hs hr h
  reordered n rs σ k h := by
    have hleft : (List.ofFn (rs ∘ σ))[k.val]? = some (rs (σ k)) := by simp
    have hright : (List.ofFn rs)[(σ k).val]? = some (rs (σ k)) := by simp
    rw [Request.getElem?_performEach hs hleft h, Request.getElem?_performEach hs hright h]
  moves m i dt n particles h := by
    refine ⟨fun k => (f.move m s i (particles k) dt).1, fun σ => ?_⟩
    rw [moveEach_of_not_draws m (hs i) (by simp [List.mem_ofFn, h]) dt, List.map_ofFn]
    rfl

/-! ## A pattern by itself -/

/-- One pattern of one triangle. -/
def lone : Fleet Float (Sampler Float) WordScript :=
  ⟨[⟨"map", [.current (Pattern.plain "a" (FlowField.oneTriangle ⟨1.0, 0.0⟩) Sampler.default
    (WordScript.ofList []))]⟩]⟩

namespace lone

def a : lone.Index := ⟨0, by decide⟩

/-- The pattern in the first step of a run with one uncertain particle. -/
def states : lone.States :=
  lone.start.put a { lone.start.get a with
    step := ⟨true, true, 0.25⟩
    table := some (SpreadTable.uniform [1] ⟨0.1, 0.2⟩) }

def moment : Moment Float := Moment.uncertain ⟨0.0, 0.0, 60.0⟩ [1]

def uncertainMove : Request lone := .move moment a (Particle.uncertain 0 0 ⟨100000, 100000⟩) 60.0

def forecastMove : Request lone := .move moment a (Particle.forecast 0 ⟨100000, 100000⟩) 60.0

theorem isPrepared_states : IsPrepared states := by
  intro i
  obtain rfl : i = a := Subsingleton.elim (α := Fin 1) i a
  rw [states, States.get_put_self]

theorem flowUnder : (lone.pattern a).flowUnder 1.0 0.0 ⟨100000, 100000⟩ =
    .ok (⟨1.0, 0.0⟩, true) := by
  have hraw : (lone.pattern a).rawFlow ⟨100000, 100000⟩ = .ok ⟨1.0, 0.0⟩ := by
    change (FlowField.sample (FlowField.oneTriangle (⟨1.0, 0.0⟩ : Velocity Float)) _).mapError _ = _
    rw [FlowField.sample_oneTriangle_inside]
    rfl
  rw [Pattern.flowUnder, hraw]
  simp only [Except.map, Except.ok.injEq, Prod.mk.injEq, Velocity.scale, Velocity.mk.injEq]
  decide +kernel

theorem draws_uncertainMove : uncertainMove.Draws states := by
  have hget : states.get a = { lone.start.get a with
      step := ⟨true, true, 0.25⟩
      table := some (SpreadTable.uniform [1] ⟨0.1, 0.2⟩) } := States.get_put_self ..
  refine ⟨rfl, rfl, ⟨⟨1.0, 0.0⟩, ?_⟩, SpreadTable.uniform [1] ⟨0.1, 0.2⟩, ⟨0.1, 0.2⟩, ?_, rfl⟩
  · rw [hget]
    exact flowUnder
  · rw [hget]

end lone

/-- The move of an uncertain particle takes random numbers, and that of a forecast particle is the
same before and after it. -/
theorem isUnordered_of_isPrepared_lone :
    IsPrepared lone.states ∧ lone.uncertainMove.Draws lone.states ∧
      (Request.performEach lone.states [lone.uncertainMove, lone.forecastMove]).1[1]? =
        (Request.performEach lone.states [lone.forecastMove, lone.uncertainMove]).1[0]? := by
  have hquiet : ¬ lone.forecastMove.Draws lone.states := fun h => nomatch h.isUncertain
  have hunordered := isUnordered_of_isPrepared lone.isPrepared_states
  refine ⟨lone.isPrepared_states, lone.draws_uncertainMove, ?_⟩
  exact hunordered.reordered 2 ![lone.forecastMove, lone.uncertainMove] (Equiv.swap 0 1) 1 hquiet

end Fleet

end CurrentDrift
