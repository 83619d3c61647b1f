import CurrentDrift.Binary64
import CurrentDrift.Proofs.Drift.Consistency
import CurrentDrift.Proofs.Drift.Forecast
import CurrentDrift.Proofs.Mesh.Descent

/-! # All particles are moved at once

A step goes through movers and particles one by one, and a mover may have changed what all of them
keep when it comes to the next particle. Main statement: every particle is nevertheless moved from
where it is at the beginning of the step, by the sum of what the prepared movers do to it, and at
the end no pattern has anything stored.

Where the other movers keep nothing, more is true: what a mover does depends on nothing but the
preparation and the particles that it has moved before by itself. -/

namespace CurrentDrift

variable {α β γ : Type}

namespace Fleet

/-! ## What a step is to do -/

/-- A step of patterns and other movers that moves all particles at once. Nothing is stored any more
at the end, whether or not a pattern was prepared. -/
structure Company.IsSimultaneous [Scalar α] [RandomSource α γ] [TableSupply α β γ] {f : Fleet α β γ}
    {S κ : Type} (o : f.Company S κ) (movers : List (Member f κ)) (m : Moment α) (s : S)
    (ps ps' : Swarm) (s' : S) : Prop where
  calls : ∃ t, (o.crew movers).IsSimultaneous m s ps t ps' s'
  cleared : ∀ i, .current i ∈ movers → ((o.patterns s').get i).step = StepData.cleared

section Preparing

variable [Scalar α] [TableSupply α β γ]

/-- The states after movers have prepared themselves one after the other. -/
def afterPreparing (f : Fleet α β γ) (m : Moment α) (s : f.States) (xs : List (Member f)) :
    f.States :=
  xs.foldl (fun s x => (f.simple.prepareMember m s x).2) s

/-- The movers that can prepare themselves, each of them in the states that those before it have
left. -/
def preparable (f : Fleet α β γ) (m : Moment α) (s : f.States) :
    List (Member f) → List (Member f)
  | [] => []
  | x :: xs =>
    let later := f.preparable m (f.simple.prepareMember m s x).2 xs
    if (f.simple.prepareMember m s x).1.isOk then x :: later else later

end Preparing

section Moving

variable [Scalar α] [RandomSource α γ]

/-- The states after a mover has moved some particles, with no other mover in between. -/
def afterMoving (f : Fleet α β γ) (m : Moment α) (s : f.States) (x : Member f)
    (particles : List Particle) : f.States :=
  particles.foldl (fun s q => (f.simple.moveMember m s q m.clock.step x).2) s

/-- How far movers together move a particle if each of them has moved the earlier particles by
itself. -/
def displacement (f : Fleet α β γ) (m : Moment α) (s : f.States) (xs : List (Member f))
    (earlier : List Particle) (particle : Particle) : Displacement α :=
  Displacement.sum (xs.map fun x =>
    (f.simple.moveMember m (f.afterMoving m s x earlier) particle m.clock.step x).1)

end Moving

/-- Each particle is moved from where it was by the movers that could prepare, and each of them is
as it was when all movers had been asked to, but for the particles that it has moved itself. -/
structure MovesSeparately [Scalar α] [RandomSource α γ] [TableSupply α β γ] (f : Fleet α β γ)
    (m : Moment α) (s : f.States) (ps ps' : Swarm) : Prop where
  forecast : ∀ (i : Nat) (p : Point), ps.forecast[i]? = some p →
    ps'.forecast[i]? = some (p.moved (f.displacement m (f.afterPreparing m s f.members)
      (f.preparable m s f.members) [] (Particle.forecast i p)))
  uncertain : ∀ (i : Nat) (p : Point), ps.uncertain[i]? = some p →
    ps'.uncertain[i]? = some (p.moved (f.displacement m (f.afterPreparing m s f.members)
      (f.preparable m s f.members) (ps.uncertainParticles.take i) (Particle.uncertain 0 i p)))

/-! ## Movers by themselves -/

namespace Member

variable {f : Fleet α β γ}

/-- Not the same pattern. -/
def Apart (x y : Member f) : Prop := ∀ i, x = .current i → y ≠ .current i

/-- The mover is in the same state. -/
def Agrees (x : Member f) (s t : f.States) : Prop := ∀ i, x = .current i → s.get i = t.get i

/-- The mover is prepared if it is a pattern. -/
def IsPrepared (x : Member f) (s : f.States) : Prop :=
  ∀ i, x = .current i → (s.get i).step.isPrepared = true

variable {x y : Member f} {s t u : f.States}

theorem Apart.symm (h : x.Apart y) : y.Apart x := fun i hy hx => h i hx hy

theorem Agrees.trans (h : x.Agrees s t) (h' : x.Agrees t u) : x.Agrees s u :=
  fun i hi => (h i hi).trans (h' i hi)

end Member

/-! ## No two movers are the same pattern -/

theorem apart_of_member? {f : Fleet α β γ} {a b : Place × Mover α β γ} {x y : Member f}
    (hne : a.1 ≠ b.1) (hx : f.member? a.1 a.2 = some x) (hy : f.member? b.1 b.2 = some y) :
    x.Apart y := by
  have hplace : ∀ (c : Place × Mover α β γ) (i : f.Index),
      f.member? c.1 c.2 = some (.current i) → f.place i = c.1 := by
    rintro ⟨place, mover⟩ i hi
    cases mover with
    | simple m => simp [member?] at hi
    | current p =>
        simp only [member?, Option.map_eq_some_iff, Member.current.injEq, exists_eq_right] at hi
        simpa using List.find?_some hi
  rintro i rfl rfl
  exact hne ((hplace a i hx).symm.trans (hplace b i hy))

theorem pairwise_members (f : Fleet α β γ) : f.members.Pairwise Member.Apart := by
  rw [members, List.pairwise_filterMap]
  exact f.pairwise_movers.imp fun hne x hx y hy => apart_of_member? hne hx hy

theorem current_mem_members (f : Fleet α β γ) (i : f.Index) : .current i ∈ f.members := by
  have hmem : f.patterns[i] ∈ f.patterns := List.getElem_mem i.isLt
  obtain ⟨⟨place, mover⟩, hmover, hi⟩ := List.mem_filterMap.mp hmem
  obtain ⟨p, hp, hi⟩ := Option.map_eq_some_iff.mp hi
  have hplace : f.place i = place := (congrArg Prod.fst hi).symm
  refine List.mem_filterMap.mpr ⟨_, hmover, ?_⟩
  cases mover with
  | simple m => contradiction
  | current q =>
      change (f.index? place).map Member.current = _
      rw [← hplace, index?_place, Option.map_some]

variable [Scalar α]

/-! ## One mover and one particle -/

section Moving

variable [RandomSource α γ] {f : Fleet α β γ} {s t : f.States}

/-- A pattern varies velocities by its own state. -/
theorem varied_congr {i : f.Index} (h : s.get i = t.get i) (particle : Particle)
    (v : Velocity α) (dt : α) (useEddy : Bool) :
    (f.varied s i particle v dt useEddy).1 = (f.varied t i particle v dt useEddy).1 ∧
      (f.varied s i particle v dt useEddy).2.get i =
        (f.varied t i particle v dt useEddy).2.get i := by
  unfold varied
  rw [h]
  split
  · exact ⟨rfl, h⟩
  · dsimp only
    split <;> simp

/-- A prepared pattern moves particles by its own state. -/
theorem move_congr (m : Moment α) {i : f.Index} (hi : (s.get i).step.isPrepared = true)
    (h : s.get i = t.get i) (particle : Particle) (dt : α) :
    (f.move m s i particle dt).1 = (f.move m t i particle dt).1 ∧
      (f.move m s i particle dt).2.get i = (f.move m t i particle dt).2.get i := by
  unfold move
  rw [scaledFlow_of_isPrepared f _ s i _ hi, scaledFlow_of_isPrepared f _ t i _ (h ▸ hi), h]
  cases (f.pattern i).isActive m.clock.now with
  | false => exact ⟨rfl, h⟩
  | true =>
      cases (f.pattern i).flowUnder (t.get i).scale m.clock.now particle.position with
      | error e => exact ⟨rfl, h⟩
      | ok v =>
          cases particle.kind with
          | forecast => exact ⟨rfl, h⟩
          | uncertain =>
              obtain ⟨hv, hget⟩ := varied_congr h particle v.1 dt v.2
              exact ⟨congrArg (fun w : Velocity α => w.carry particle.position dt) hv, hget⟩

variable {x y : Member f} {particle : Particle}

theorem moveMember_congr (m : Moment α) (hx : x.IsPrepared s) (h : x.Agrees s t)
    (particle : Particle) :
    (f.simple.moveMember m s particle m.clock.step x).1 =
        (f.simple.moveMember m t particle m.clock.step x).1 ∧
      x.Agrees (f.simple.moveMember m s particle m.clock.step x).2
        (f.simple.moveMember m t particle m.clock.step x).2 := by
  cases x with
  | other mover => exact ⟨rfl, nofun⟩
  | current i =>
      obtain ⟨hd, hget⟩ := move_congr m (hx i rfl) (h i rfl) particle m.clock.step
      refine ⟨hd, ?_⟩
      rintro _ ⟨⟩
      exact hget

theorem agrees_moveMember (m : Moment α) (hx : x.IsPrepared s) (hxy : x.Apart y)
    (particle : Particle) : y.Agrees (f.simple.moveMember m s particle m.clock.step x).2 s := by
  cases x with
  | other mover => exact fun k _ => rfl
  | current i =>
      rintro k rfl
      have hki : k ≠ i := by
        rintro rfl
        exact hxy k rfl rfl
      change (f.move m s i particle m.clock.step).2.get k = s.get k
      rw [f.get_move_of_ne m s hki, scaledFlow_of_isPrepared f _ s i _ (hx i rfl), ite_self]

theorem isPrepared_moveMember (m : Moment α) (x : Member f) (hy : y.IsPrepared s)
    (particle : Particle) : y.IsPrepared (f.simple.moveMember m s particle m.clock.step x).2 := by
  rintro k rfl
  cases x with
  | other mover => exact hy k rfl
  | current i =>
      change ((f.move m s i particle m.clock.step).2.get k).step.isPrepared = true
      rw [step_move]
      exact hy k rfl

theorem moveMember_forecast (m : Moment α) (hx : x.IsPrepared s)
    (hp : particle.kind = .forecast) : (f.simple.moveMember m s particle m.clock.step x).2 = s := by
  cases x with
  | other mover => rfl
  | current i => exact congrArg Prod.snd (move_of_unvaried m (hx i rfl) (.inl hp))

/-! ## Many movers and many particles -/

theorem afterMoving_congr (m : Moment α) (hx : x.IsPrepared s) (h : x.Agrees s t)
    (particles : List Particle) :
    x.Agrees (f.afterMoving m s x particles) (f.afterMoving m t x particles) := by
  induction particles generalizing s t with
  | nil => exact h
  | cons q qs ih => exact ih (isPrepared_moveMember m x hx q) (moveMember_congr m hx h q).2

theorem isPrepared_afterMoving (m : Moment α) (hx : x.IsPrepared s) (particles : List Particle) :
    x.IsPrepared (f.afterMoving m s x particles) := by
  induction particles generalizing s with
  | nil => exact hx
  | cons q qs ih => exact ih (isPrepared_moveMember m x hx q)

theorem afterMoving_forecast (m : Moment α) (hx : x.IsPrepared s) {particles : List Particle}
    (hp : ∀ q ∈ particles, q.kind = .forecast) : f.afterMoving m s x particles = s := by
  induction particles with
  | nil => rfl
  | cons q qs ih =>
      obtain ⟨hq, hqs⟩ := List.forall_mem_cons.mp hp
      rw [afterMoving, List.foldl_cons, moveMember_forecast m hx hq]
      exact ih hqs

/-- How far movers together move a particle in a step. -/
def moveBy (f : Fleet α β γ) (m : Moment α) (ready : List (Member f)) (s : f.States)
    (particle : Particle) : Displacement α × f.States :=
  Crew.moveBy (fun s q => f.simple.moveMember m s q m.clock.step) ready s particle

/-- The states after movers have moved a particle one after the other. -/
def afterMovers (f : Fleet α β γ) (m : Moment α) (s : f.States) (xs : List (Member f))
    (particle : Particle) : f.States :=
  xs.foldl (fun s x => (f.simple.moveMember m s particle m.clock.step x).2) s

theorem moveBy_snd (f : Fleet α β γ) (m : Moment α) (s : f.States) (xs : List (Member f))
    (particle : Particle) : (f.moveBy m xs s particle).2 = f.afterMovers m s xs particle := by
  unfold moveBy Crew.moveBy
  generalize (Displacement.zero : Displacement α) = total
  induction xs generalizing total s with
  | nil => rfl
  | cons x xs ih => exact ih _ _

variable {xs : List (Member f)}

theorem isPrepared_afterMovers (m : Moment α) (hy : y.IsPrepared s) (particle : Particle) :
    y.IsPrepared (f.afterMovers m s xs particle) := by
  induction xs generalizing s with
  | nil => exact hy
  | cons x xs ih => exact ih (isPrepared_moveMember m x hy particle)

theorem agrees_afterMovers_of_apart (m : Moment α) (hs : ∀ x ∈ xs, x.IsPrepared s)
    (hy : ∀ x ∈ xs, x.Apart y) (particle : Particle) :
    y.Agrees (f.afterMovers m s xs particle) s := by
  induction xs generalizing s with
  | nil => exact fun _ _ => rfl
  | cons x xs ih =>
      obtain ⟨hx, hxs⟩ := List.forall_mem_cons.mp hs
      obtain ⟨hxy, hxsy⟩ := List.forall_mem_cons.mp hy
      have hafter : ∀ z ∈ xs, z.IsPrepared (f.simple.moveMember m s particle m.clock.step x).2 :=
        fun z hz => isPrepared_moveMember m x (hxs z hz) particle
      exact (ih hafter hxsy).trans (agrees_moveMember m hx hxy particle)

/-- Among movers that are not the same, each is afterwards as if it alone had moved the
particle. -/
theorem agrees_afterMovers (m : Moment α) (hs : ∀ x ∈ xs, x.IsPrepared s)
    (hxs : xs.Pairwise Member.Apart) (particle : Particle) (hy : y ∈ xs) :
    y.Agrees (f.afterMovers m s xs particle)
      (f.simple.moveMember m s particle m.clock.step y).2 := by
  induction xs generalizing s with
  | nil => contradiction
  | cons x xs ih =>
      obtain ⟨hx, hprepared⟩ := List.forall_mem_cons.mp hs
      obtain ⟨hapart, hpairwise⟩ := List.pairwise_cons.mp hxs
      have hafter : ∀ z ∈ xs, z.IsPrepared (f.simple.moveMember m s particle m.clock.step x).2 :=
        fun z hz => isPrepared_moveMember m x (hprepared z hz) particle
      rcases List.mem_cons.mp hy with rfl | hy
      · exact agrees_afterMovers_of_apart m hafter (fun z hz => (hapart z hz).symm) particle
      · have hsame := agrees_moveMember m hx (hapart y hy) particle
        exact (ih hafter hpairwise hy).trans (moveMember_congr m (hafter y hy) hsame particle).2

theorem displacement_congr (m : Moment α) {earlier earlier' : List Particle}
    (hs : ∀ x ∈ xs, x.IsPrepared s)
    (h : ∀ x ∈ xs, x.Agrees (f.afterMoving m s x earlier) (f.afterMoving m t x earlier'))
    (particle : Particle) :
    f.displacement m s xs earlier particle = f.displacement m t xs earlier' particle := by
  unfold displacement
  congr 1
  refine List.map_congr_left fun x hx => ?_
  exact (moveMember_congr m (isPrepared_afterMoving m (hs x hx) earlier) (h x hx) particle).1

theorem moveBy_fst (m : Moment α) (hs : ∀ x ∈ xs, x.IsPrepared s)
    (hxs : xs.Pairwise Member.Apart) (particle : Particle) :
    (f.moveBy m xs s particle).1 = f.displacement m s xs [] particle := by
  unfold moveBy Crew.moveBy displacement Displacement.sum
  generalize (Displacement.zero : Displacement α) = total
  induction xs generalizing total s with
  | nil => rfl
  | cons x xs ih =>
      obtain ⟨hx, hprepared⟩ := List.forall_mem_cons.mp hs
      obtain ⟨hapart, hpairwise⟩ := List.pairwise_cons.mp hxs
      have hafter : ∀ z ∈ xs, z.IsPrepared (f.simple.moveMember m s particle m.clock.step x).2 :=
        fun z hz => isPrepared_moveMember m x (hprepared z hz) particle
      rw [List.foldl_cons, List.map_cons, List.foldl_cons]
      refine (ih hafter hpairwise _).trans ?_
      congr 1
      refine List.map_congr_left fun z hz => ?_
      exact (moveMember_congr m (hafter z hz) (agrees_moveMember m hx (hapart z hz) particle)
        particle).1

/-- The particles are gone through one by one, and for each of them the movers one by one; it comes
to the same if each mover goes through the particles by itself. -/
theorem getElem?_moveAll (m : Moment α) (hs : ∀ x ∈ xs, x.IsPrepared s)
    (hxs : xs.Pairwise Member.Apart) {particles : List Particle} {i : Nat}
    (hi : particles[i]? = some particle) :
    (f.moveAll m xs s particles).1[i]? =
      some (f.displacement m s xs (particles.take i) particle) := by
  induction particles generalizing s i with
  | nil => simp at hi
  | cons q qs ih =>
      have hafter : ∀ x ∈ xs, x.IsPrepared (f.moveBy m xs s q).2 := by
        rw [moveBy_snd]
        exact fun x hx => isPrepared_afterMovers m (hs x hx) q
      cases i with
      | zero =>
          obtain rfl : q = particle := by simpa using hi
          rw [List.take_zero, ← moveBy_fst m hs hxs]
          rfl
      | succ i =>
          refine (ih hafter (by simpa using hi)).trans ?_
          rw [List.take_succ_cons]
          congr 1
          refine displacement_congr m hafter (fun x hx => ?_) particle
          refine afterMoving_congr m (hafter x hx) ?_ (qs.take i)
          rw [moveBy_snd]
          exact agrees_afterMovers m hs hxs q hx

theorem moveAll_snd_forecast (m : Moment α) (hs : ∀ x ∈ xs, x.IsPrepared s)
    {particles : List Particle} (hp : ∀ q ∈ particles, q.kind = .forecast) :
    (f.moveAll m xs s particles).2 = s := by
  have hkept : ∀ q ∈ particles, ∀ x ∈ xs, f.simple.moveMember m s q m.clock.step x =
      ((f.simple.moveMember m s q m.clock.step x).1, s) := fun q hq x hx =>
    Prod.ext rfl (moveMember_forecast m (hs x hx) (hp q hq))
  exact congrArg Prod.snd (Crew.moveAll_of_kept hkept)

end Moving

/-! ## Preparing and finishing all movers -/

section Preparing

variable [TableSupply α β γ] {f : Fleet α β γ}

theorem prepareAll_snd (m : Moment α) (s : f.States) (xs : List (Member f)) :
    (f.prepareAll m s xs).2 = f.afterPreparing m s xs := by
  induction xs generalizing s with
  | nil => rfl
  | cons x xs ih => exact ih _

theorem ready_prepareAll_fst (m : Moment α) (s : f.States) (xs : List (Member f)) :
    Crew.ready (f.prepareAll m s xs).1 = f.preparable m s xs := by
  induction xs generalizing s with
  | nil => rfl
  | cons x xs ih =>
      have hrest := ih (f.simple.prepareMember m s x).2
      rw [prepareAll] at hrest ⊢
      rw [Crew.prepareAll, Crew.ready_cons, hrest, preparable]

theorem preparable_sublist (m : Moment α) (s : f.States) (xs : List (Member f)) :
    (f.preparable m s xs).Sublist xs := by
  induction xs generalizing s with
  | nil => exact .slnil
  | cons x xs ih =>
      rw [preparable]
      split
      · exact (ih _).cons_cons x
      · exact (ih _).cons x

/-- A preparation that succeeds prepares the pattern, and one that fails leaves stored what is. -/
theorem step_prepare_self (m : Moment α) (s : f.States) (i : f.Index) :
    ((f.prepare m s i).2.get i).step =
      if (f.prepare m s i).1.isOk then f.stepData m.clock i else (s.get i).step := by
  cases hr : (f.renewal m s i).outcome with
  | error e =>
      rw [prepare_of_error f m s i hr]
      exact PatternStatus.step_eq_of_scaling_eq (f.scaling_withTable m s i i)
  | ok u =>
      rw [step_prepare_of_ok f m s i hr, prepare_of_ok f m s i hr]
      rfl

variable {x y : Member f} {s : f.States}

theorem isPrepared_prepareMember (m : Moment α) (x : Member f) (hy : y.IsPrepared s) :
    y.IsPrepared (f.simple.prepareMember m s x).2 := by
  rintro k rfl
  cases x with
  | other mover => exact hy k rfl
  | current i =>
      change ((f.prepare m s i).2.get k).step.isPrepared = true
      by_cases hki : k = i
      · subst hki
        rw [step_prepare_self]
        split
        · rfl
        · exact hy k rfl
      · rw [step_prepare_of_ne f m s hki]
        exact hy k rfl

theorem isPrepared_of_isOk (m : Moment α) (hx : (f.simple.prepareMember m s x).1.isOk = true) :
    x.IsPrepared (f.simple.prepareMember m s x).2 := by
  rintro i rfl
  have hok : (f.prepare m s i).1.isOk = true := hx
  change ((f.prepare m s i).2.get i).step.isPrepared = true
  rw [step_prepare_self, if_pos hok]
  rfl

theorem isPrepared_afterPreparing (m : Moment α) (xs : List (Member f)) (hy : y.IsPrepared s) :
    y.IsPrepared (f.afterPreparing m s xs) := by
  induction xs generalizing s with
  | nil => exact hy
  | cons x xs ih => exact ih (isPrepared_prepareMember m x hy)

theorem isPrepared_of_mem_preparable (m : Moment α) (s : f.States) {xs : List (Member f)}
    (hy : y ∈ f.preparable m s xs) : y.IsPrepared (f.afterPreparing m s xs) := by
  induction xs generalizing s with
  | nil => contradiction
  | cons x xs ih =>
      rw [preparable] at hy
      split at hy
      · next hok =>
        rcases List.mem_cons.mp hy with rfl | hy
        · exact isPrepared_afterPreparing m xs (isPrepared_of_isOk m hok)
        · exact ih _ hy
      · exact ih _ hy

end Preparing

/-! ## Whole steps -/

section Steps

variable [RandomSource α γ] [TableSupply α β γ]

theorem step_eq_preparable (f : Fleet α β γ) (m : Moment α) (s : f.States) (ps : Swarm) :
    f.step m s ps =
      let xs := f.preparable m s f.members
      let forecast := f.moveAll m xs (f.afterPreparing m s f.members) ps.forecastParticles
      let uncertain := f.moveAll m xs forecast.2 ps.uncertainParticles
      (⟨Point.movedBy ps.forecast forecast.1, Point.movedBy ps.uncertain uncertain.1⟩,
        f.finishAll uncertain.2) := by
  rw [step_eq, ← ready_prepareAll_fst, ← prepareAll_snd]

theorem movesSeparately_step (f : Fleet α β γ) (m : Moment α) (s : f.States) (ps : Swarm) :
    f.MovesSeparately m s ps (f.step m s ps).1 := by
  let xs := f.preparable m s f.members
  let s' := f.afterPreparing m s f.members
  have hs' : ∀ x ∈ xs, x.IsPrepared s' := fun x hx => isPrepared_of_mem_preparable m s hx
  have hxs : xs.Pairwise Member.Apart := f.pairwise_members.sublist (preparable_sublist m s _)
  have hkind : ∀ q ∈ ps.forecastParticles, q.kind = .forecast :=
    fun q hq => ps.kind_of_mem_forecastParticles hq
  -- Moving the forecast particles leaves the states as they are.
  have hkept : (f.moveAll m xs s' ps.forecastParticles).2 = s' := moveAll_snd_forecast m hs' hkind
  have hforecast : (f.step m s ps).1.forecast =
      Point.movedBy ps.forecast (f.moveAll m xs s' ps.forecastParticles).1 := by
    rw [step_eq_preparable]
  have huncertain : (f.step m s ps).1.uncertain =
      Point.movedBy ps.uncertain (f.moveAll m xs s' ps.uncertainParticles).1 := by
    rw [step_eq_preparable, ← hkept]
  constructor
  · intro i p hp
    have hi : ps.forecastParticles[i]? = some (Particle.forecast i p) := by
      simp [Swarm.forecastParticles, hp]
    rw [hforecast, Crew.getElem?_movedBy hp (getElem?_moveAll m hs' hxs hi)]
    congr 2
    refine displacement_congr m hs' (fun x hx => ?_) _
    rw [afterMoving_forecast m (hs' x hx) fun q hq => hkind q (List.mem_of_mem_take hq)]
    exact fun _ _ => rfl
  · intro i p hp
    have hi : ps.uncertainParticles[i]? = some (Particle.uncertain 0 i p) := by
      simp [Swarm.uncertainParticles, hp]
    rw [huncertain, Crew.getElem?_movedBy hp (getElem?_moveAll m hs' hxs hi)]

end Steps

/-! ## Movers of any kind -/

namespace Company

variable {f : Fleet α β γ} {S κ : Type} (o : f.Company S κ)

theorem cleared_foldl_finishMember (s : S) (xs : List (Member f κ)) {i : f.Index}
    (hi : .current i ∈ xs ∨ ((o.patterns s).get i).step = StepData.cleared) :
    ((o.patterns (xs.foldl o.finishMember s)).get i).step = StepData.cleared := by
  induction xs generalizing s with
  | nil => exact hi.resolve_left List.not_mem_nil
  | cons x xs ih =>
      apply ih
      rw [List.mem_cons, or_assoc] at hi
      rcases hi with rfl | hi
      · right
        rw [finishMember, o.patterns_withPatterns, step_finish, if_pos rfl]
      · refine hi.imp_right fun hcleared => ?_
        cases x with
        | other x => exact o.cleared_finish s x i hcleared
        | current k =>
            rw [finishMember, o.patterns_withPatterns, step_finish, hcleared, ite_self]

variable [RandomSource α γ] [TableSupply α β γ]

theorem isSimultaneous_step (movers : List (Member f κ)) (m : Moment α) (s : S) (ps : Swarm) :
    o.IsSimultaneous movers m s ps ((o.crew movers).step m s ps).1
      ((o.crew movers).step m s ps).2 :=
  ⟨⟨_, (o.crew movers).isSimultaneous_step m s ps⟩, fun _ hi =>
    o.cleared_foldl_finishMember _ movers (.inl hi)⟩

end Company

variable [RandomSource α γ] [TableSupply α β γ]

/-- Every step moves all particles at once, whatever other movers there are beside the patterns of a
fleet, whatever they keep and do to the patterns, whichever movers can prepare, and in whatever
state they are. So does every step of a run; after `k` steps the clock has been advanced `k` times,
and the uncertain particles are as many as at the beginning. The step of a fleet by itself is such a
step, and in it the movers answer separately. -/
theorem isSimultaneous_steps (f : Fleet α β γ) :
    (∀ {S κ : Type} (o : f.Company S κ) (movers : List (Member f κ)),
      let c := o.crew movers
      (∀ (m : Moment α) (s : S) (ps : Swarm),
        o.IsSimultaneous movers m s ps (c.step m s ps).1 (c.step m s ps).2) ∧
      ∀ (isUncertain : Bool) (r : Stage α S) (k : Nat),
        let clock := Clock.advance^[k] r.clock
        let m := if isUncertain then Moment.uncertain clock [r.particles.uncertain.length]
          else Moment.certain clock
        let before := r.steps c isUncertain k
        let after := r.steps c isUncertain (k + 1)
        o.IsSimultaneous movers m before.states before.particles after.particles after.states) ∧
    ∀ (m : Moment α) (s : f.States) (ps : Swarm),
      let (ps', s') := f.step m s ps
      f.simple.IsSimultaneous f.members m s ps ps' s' ∧ f.MovesSeparately m s ps ps' ∧
        ∀ i : f.Index, (s'.get i).step = StepData.cleared := by
  refine ⟨fun o movers => ⟨o.isSimultaneous_step movers, fun isUncertain r k => ?_⟩,
    fun m s ps => ?_⟩
  · intro clock m before after
    have hm : before.moment isUncertain = m := r.moment_steps isUncertain k
    have hafter : after = before.step (o.crew movers) isUncertain := r.steps_succ isUncertain k
    rw [hafter, ← hm]
    exact o.isSimultaneous_step movers _ _ _
  · have hstep := f.simple.isSimultaneous_step f.members m s ps
    exact ⟨hstep, f.movesSeparately_step m s ps, fun i => hstep.cleared i (f.current_mem_members i)⟩

end Fleet

/-! ## Beside a pattern that is switched off, one mover that moves and one that cannot prepare -/

/-- A pattern that is switched off. -/
def stillWater : Fleet Float (Sampler Float) WordScript :=
  ⟨[⟨"map",
    [.current { Pattern.plain "a" (FlowField.oneTriangle ⟨1.0, 0.0⟩) Sampler.default
      (WordScript.ofList []) with isOn := false }]⟩]⟩

namespace stillWater

def a : stillWater.Index := ⟨0, by decide⟩

/-- Of two movers beside the pattern, the one that can prepare counts its moves, and moves by the
number of those before. -/
def company : stillWater.Company (stillWater.States × Nat) Bool where
  patterns s := s.1
  withPatterns s t := (t, s.2)
  patterns_withPatterns _ _ := rfl
  prepare _ s isAble := if isAble then (.ok (), s) else (.error (.scale (.noSuchPattern "b")), s)
  move _ s _ _ isAble :=
    if isAble then (⟨⟨Int32.ofNat s.2, 1⟩, 0.0⟩, (s.1, s.2 + 1)) else (⟨⟨1000, 1000⟩, 0.0⟩, s)
  finish s _ := s
  cleared_finish _ _ _ h := h

def team : List (Fleet.Member stillWater Bool) := [.other true, .current a, .other false]

/-- Three particles at one place. -/
def swarm : Swarm := ⟨[⟨5, 5⟩, ⟨5, 5⟩], [⟨5, 5⟩]⟩

end stillWater

theorem Fleet.isSimultaneous_steps_stillWater :
    let m : Moment Float := Moment.uncertain ⟨0.0, 0.0, 60.0⟩ [1]
    let s := (stillWater.start, 0)
    let after := (stillWater.company.crew stillWater.team).step m s stillWater.swarm
    after.1 = ⟨[⟨5, 6⟩, ⟨6, 6⟩], [⟨7, 6⟩]⟩ ∧
      stillWater.company.IsSimultaneous stillWater.team m s stillWater.swarm after.1 after.2 :=
  ⟨by decide +kernel,
    (stillWater.isSimultaneous_steps.1 stillWater.company stillWater.team).1 _ _ _⟩

end CurrentDrift
