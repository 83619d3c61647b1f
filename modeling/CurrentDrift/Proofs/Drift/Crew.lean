import CurrentDrift.Drift.Run
import CurrentDrift.Proofs.Geo.Offset

/-! # What a step asks of movers

A mover may answer a call by all that it and the others have kept from earlier calls, so that what a
step does is given by its calls, in their order and with their answers. Main statement: a step asks
each mover once to prepare, then for each particle, at the position of the beginning of the step,
each mover that could, then each mover to finish; and it moves the particle by the sum of the
answers. -/

namespace CurrentDrift

namespace Crew

variable {α S μ : Type}

/-! ## Calls -/

/-- A call to a mover, with its answer. -/
inductive Call (α μ : Type) where
  | prepare (x : μ) (outcome : Except (DriftError α) Unit)
  | move (x : μ) (particle : Particle) (d : Displacement α)
  | finish (x : μ)

/-- The movers answer so, one call after the other, each in the state that the calls before it have
left. -/
inductive Answers (c : Crew α S μ) (m : Moment α) : S → List (Call α μ) → S → Prop where
  | nil (s : S) : Answers c m s [] s
  | prepare {s t u : S} {x : μ} {outcome : Except (DriftError α) Unit} {calls : List (Call α μ)}
      (h : c.prepare m s x = (outcome, t)) (hrest : Answers c m t calls u) :
      Answers c m s (.prepare x outcome :: calls) u
  | move {s t u : S} {x : μ} {particle : Particle} {d : Displacement α} {calls : List (Call α μ)}
      (h : c.move m s particle m.clock.step x = (d, t)) (hrest : Answers c m t calls u) :
      Answers c m s (.move x particle d :: calls) u
  | finish {s u : S} {x : μ} {calls : List (Call α μ)}
      (hrest : Answers c m (c.finish s x) calls u) : Answers c m s (.finish x :: calls) u

/-- How far each of some movers says that it moves a particle. -/
structure Row (α μ : Type) where
  particle : Particle
  answers : List (μ × Displacement α)

/-- What is answered in a step: by the movers that were asked to prepare, and by those that were
asked to move the particles. -/
structure Transcript (α μ : Type) where
  prepared : List (μ × Except (DriftError α) Unit)
  forecast : List (Row α μ)
  uncertain : List (Row α μ)

namespace Row

def displacements (row : Row α μ) : List (Displacement α) := row.answers.map Prod.snd

def calls (row : Row α μ) : List (Call α μ) :=
  row.answers.map fun (x, d) => .move x row.particle d

end Row

namespace Transcript

/-- The movers that could prepare. -/
def ready (t : Transcript α μ) : List μ := (t.prepared.filter fun x => x.2.isOk).map Prod.fst

/-- The calls of a step that ends by asking some movers to finish. -/
def calls (t : Transcript α μ) (movers : List μ) : List (Call α μ) :=
  t.prepared.map (fun (x, outcome) => .prepare x outcome) ++
    (t.forecast.flatMap Row.calls ++ (t.uncertain.flatMap Row.calls ++ movers.map .finish))

end Transcript

/-- Points are moved at once. Each is a particle by its number, for which the movers that are ready
were asked once and in order, and which is moved by the sum of their answers. -/
structure Moves (ready : List μ) (particle : Nat → Point → Particle) (before : List Point)
    (rows : List (Row α μ)) (after : List Point) : Prop where
  length_rows : rows.length = before.length
  length_after : after.length = before.length
  moved : ∀ (i : Nat) (p : Point), before[i]? = some p → ∃ row q, rows[i]? = some row ∧
    row.particle = particle i p ∧ row.answers.map Prod.fst = ready ∧
    after[i]? = some q ∧ p.IsMovedBy row.displacements q

/-- A step that moves all particles at once. All movers are asked to prepare, those that could are
asked to move the particles from where they are at the beginning, and all are asked to finish. -/
structure IsSimultaneous (c : Crew α S μ) (m : Moment α) (s : S) (ps : Swarm)
    (t : Transcript α μ) (ps' : Swarm) (s' : S) : Prop where
  prepared : t.prepared.map Prod.fst = c.movers
  forecast : Moves t.ready Particle.forecast ps.forecast t.forecast ps'.forecast
  uncertain : Moves t.ready (Particle.uncertain 0) ps.uncertain t.uncertain ps'.uncertain
  answers : c.Answers m s (t.calls c.movers) s'

theorem Answers.append {c : Crew α S μ} {m : Moment α} {s t u : S} {calls calls' : List (Call α μ)}
    (h : c.Answers m s calls t) (h' : c.Answers m t calls' u) :
    c.Answers m s (calls ++ calls') u := by
  induction h with
  | nil s => exact h'
  | prepare h _ ih => exact .prepare h (ih h')
  | move h _ ih => exact .move h (ih h')
  | finish _ ih => exact .finish (ih h')

/-! ## The loops -/

section Loops

variable {prepare : S → μ → Except (DriftError α) Unit × S}
  {move : S → Particle → μ → Displacement α × S}

theorem map_fst_prepareAll (s : S) (xs : List μ) :
    (prepareAll prepare s xs).1.map Prod.fst = xs := by
  induction xs generalizing s with
  | nil => rfl
  | cons x xs ih => exact congrArg (x :: ·) (ih _)

theorem ready_cons (x : μ) (outcome : Except (DriftError α) Unit)
    (outcomes : List (μ × Except (DriftError α) Unit)) :
    ready ((x, outcome) :: outcomes) =
      if outcome.isOk then x :: ready outcomes else ready outcomes := by
  cases outcome <;> rfl

theorem ready_eq (outcomes : List (μ × Except (DriftError α) Unit)) :
    ready outcomes = (outcomes.filter fun x => x.2.isOk).map Prod.fst := by
  induction outcomes with
  | nil => rfl
  | cons x xs ih =>
      rw [ready_cons, ih, List.filter_cons]
      split <;> rfl

theorem ready_prepareAll_of_ok {xs : List μ} (h : ∀ s, ∀ x ∈ xs, (prepare s x).1 = .ok ())
    (s : S) : ready (prepareAll prepare s xs).1 = xs := by
  induction xs generalizing s with
  | nil => rfl
  | cons x xs ih =>
      rw [prepareAll, ready_cons, h s x List.mem_cons_self]
      exact congrArg (x :: ·) (ih (fun s y hy => h s y (List.mem_cons_of_mem x hy)) _)

/-- A relation that all calls keep is kept by preparing movers one after the other. -/
theorem prepareAll_rel {R : S → S → Prop} (hrefl : ∀ s, R s s)
    (htrans : ∀ {s t u}, R s t → R t u → R s u) (h : ∀ s x, R s (prepare s x).2) (s : S)
    (xs : List μ) : R s (prepareAll prepare s xs).2 := by
  induction xs generalizing s with
  | nil => exact hrefl s
  | cons x xs ih => exact htrans (h s x) (ih _)

variable [Scalar α]

theorem moveBy_rel {R : S → S → Prop} (hrefl : ∀ s, R s s)
    (htrans : ∀ {s t u}, R s t → R t u → R s u) (h : ∀ s q x, R s (move s q x).2) (ready : List μ)
    (s : S) (particle : Particle) : R s (moveBy move ready s particle).2 := by
  unfold moveBy
  generalize (Displacement.zero : Displacement α) = total
  induction ready generalizing total s with
  | nil => exact hrefl s
  | cons x xs ih => exact htrans (h s particle x) (ih _ _)

/-- A relation that all calls keep is kept by moving particles one after the other. -/
theorem moveAll_rel {R : S → S → Prop} (hrefl : ∀ s, R s s)
    (htrans : ∀ {s t u}, R s t → R t u → R s u) (h : ∀ s q x, R s (move s q x).2) (ready : List μ)
    (s : S) (particles : List Particle) : R s (moveAll move ready s particles).2 := by
  induction particles generalizing s with
  | nil => exact hrefl s
  | cons q qs ih => exact htrans (moveBy_rel hrefl htrans h ready s q) (ih _)

/-- If no call changes the state, the movers answer for each particle by themselves. -/
theorem moveBy_of_kept {D : Particle → μ → Displacement α} {ready : List μ} {s : S}
    {particle : Particle} (h : ∀ x ∈ ready, move s particle x = (D particle x, s)) :
    moveBy move ready s particle = (Displacement.sum (ready.map (D particle)), s) := by
  unfold moveBy Displacement.sum
  generalize (Displacement.zero : Displacement α) = total
  induction ready generalizing total with
  | nil => rfl
  | cons x xs ih =>
      obtain ⟨hx, hxs⟩ := List.forall_mem_cons.mp h
      simp only [List.foldl_cons, List.map_cons, hx]
      exact ih hxs _

theorem moveAll_of_kept {D : Particle → μ → Displacement α} {ready : List μ} {s : S}
    {particles : List Particle}
    (h : ∀ q ∈ particles, ∀ x ∈ ready, move s q x = (D q x, s)) :
    moveAll move ready s particles =
      (particles.map fun q => Displacement.sum (ready.map (D q)), s) := by
  induction particles with
  | nil => rfl
  | cons q qs ih =>
      obtain ⟨hq, hqs⟩ := List.forall_mem_cons.mp h
      rw [moveAll, moveBy_of_kept hq]
      dsimp only
      rw [ih hqs]
      rfl

/-- What movers answer that are asked one after the other to move a particle. -/
def answers (move : S → Particle → μ → Displacement α × S) (s : S) (particle : Particle) :
    List μ → List (μ × Displacement α)
  | [] => []
  | x :: xs => (x, (move s particle x).1) :: answers move (move s particle x).2 particle xs

/-- What is answered for particles one after the other. -/
def rows (move : S → Particle → μ → Displacement α × S) (ready : List μ) (s : S) :
    List Particle → List (Row α μ)
  | [] => []
  | q :: qs => ⟨q, answers move s q ready⟩ :: rows move ready (moveBy move ready s q).2 qs

omit [Scalar α] in
theorem map_fst_answers (s : S) (particle : Particle) (xs : List μ) :
    (answers move s particle xs).map Prod.fst = xs := by
  induction xs generalizing s with
  | nil => rfl
  | cons x xs ih => exact congrArg (x :: ·) (ih _)

theorem moveBy_fst (s : S) (particle : Particle) (xs : List μ) :
    (moveBy move xs s particle).1 =
      Displacement.sum ((answers move s particle xs).map Prod.snd) := by
  unfold moveBy Displacement.sum
  generalize (Displacement.zero : Displacement α) = total
  induction xs generalizing total s with
  | nil => rfl
  | cons x xs ih => exact ih _ _

theorem length_rows (ready : List μ) (s : S) (particles : List Particle) :
    (rows move ready s particles).length = particles.length := by
  induction particles generalizing s with
  | nil => rfl
  | cons q qs ih => exact congrArg Nat.succ (ih _)

theorem mem_rows (move : S → Particle → μ → Displacement α × S) (ready : List μ) (s : S)
    {particles : List Particle} {i : Nat} {particle : Particle}
    (hi : particles[i]? = some particle) :
    ∃ row, (rows move ready s particles)[i]? = some row ∧ row.particle = particle ∧
      row.answers.map Prod.fst = ready ∧
      (moveAll move ready s particles).1[i]? = some (Displacement.sum row.displacements) := by
  induction particles generalizing s i with
  | nil => simp at hi
  | cons q qs ih =>
      cases i with
      | succ i => exact ih _ hi
      | zero =>
          obtain rfl : q = particle := by simpa using hi
          refine ⟨⟨q, answers move s q ready⟩, rfl, rfl, map_fst_answers s q ready, ?_⟩
          exact congrArg some (moveBy_fst s q ready)

theorem length_movedBy (ps : List Point) (ds : List (Displacement α)) :
    (Point.movedBy ps ds).length = ps.length := by
  induction ps generalizing ds with
  | nil => cases ds <;> rfl
  | cons p ps ih =>
      cases ds with
      | nil => rfl
      | cons d ds => exact congrArg Nat.succ (ih ds)

theorem getElem?_movedBy {ps : List Point} {ds : List (Displacement α)} {i : Nat} {p : Point}
    {d : Displacement α} (hp : ps[i]? = some p) (hd : ds[i]? = some d) :
    (Point.movedBy ps ds)[i]? = some (p.moved d) := by
  induction ps generalizing ds i with
  | nil => simp at hp
  | cons p' ps ih =>
      cases ds with
      | nil => simp at hd
      | cons d' ds =>
          cases i with
          | succ i => exact ih hp hd
          | zero =>
              obtain ⟨rfl, rfl⟩ : p' = p ∧ d' = d := ⟨by simpa using hp, by simpa using hd⟩
              rfl

theorem movedBy_map (ps : List Point) (g : Point → Displacement α) :
    Point.movedBy ps (ps.map g) = ps.map fun p => p.moved (g p) := by
  induction ps with
  | nil => rfl
  | cons p ps ih => exact congrArg (p.moved (g p) :: ·) ih

/-- Points are moved at once if their displacements are found first. -/
theorem moves_movedBy (ready : List μ) (s : S) (particle : Nat → Point → Particle)
    (before : List Point) :
    let particles := before.zipIdx.map fun (p, i) => particle i p
    Moves ready particle before (rows move ready s particles)
      (Point.movedBy before (moveAll move ready s particles).1) := by
  intro particles
  have hlength : particles.length = before.length := by
    rw [List.length_map, List.length_zipIdx]
  refine ⟨(length_rows ready s particles).trans hlength, length_movedBy _ _, fun i p hp => ?_⟩
  have hi : particles[i]? = some (particle i p) := by simp [particles, hp]
  obtain ⟨row, hrow, hparticle, hready, hsum⟩ := mem_rows move ready s hi
  exact ⟨row, _, hrow, hparticle, hready, getElem?_movedBy hp hsum, p.isMovedBy_sum _⟩

end Loops

/-! ## A step -/

section Step

variable {c : Crew α S μ} {m : Moment α}

theorem answers_prepareAll (s : S) (xs : List μ) :
    c.Answers m s ((prepareAll (c.prepare m) s xs).1.map fun (x, outcome) => .prepare x outcome)
      (prepareAll (c.prepare m) s xs).2 := by
  induction xs generalizing s with
  | nil => exact .nil s
  | cons x xs ih => exact .prepare rfl (ih _)

variable [Scalar α]

theorem answers_moveBy (s : S) (particle : Particle) (xs : List μ) :
    let move (s : S) (particle : Particle) (x : μ) := c.move m s particle m.clock.step x
    c.Answers m s (Row.calls ⟨particle, answers move s particle xs⟩)
      (moveBy move xs s particle).2 := by
  intro move
  unfold moveBy
  generalize (Displacement.zero : Displacement α) = total
  induction xs generalizing total s with
  | nil => exact .nil s
  | cons x xs ih => exact .move rfl (ih _ _)

theorem answers_moveAll (ready : List μ) (s : S) (particles : List Particle) :
    let move (s : S) (particle : Particle) (x : μ) := c.move m s particle m.clock.step x
    c.Answers m s ((rows move ready s particles).flatMap Row.calls)
      (moveAll move ready s particles).2 := by
  intro move
  induction particles generalizing s with
  | nil => exact .nil s
  | cons q qs ih => exact (answers_moveBy s q ready).append (ih _)

omit [Scalar α] in
theorem answers_finish (s : S) (xs : List μ) :
    c.Answers m s (xs.map .finish) (xs.foldl c.finish s) := by
  induction xs generalizing s with
  | nil => exact .nil s
  | cons x xs ih => exact .finish (ih _)

/-- What is answered in a step. -/
def transcript (c : Crew α S μ) (m : Moment α) (s : S) (ps : Swarm) : Transcript α μ :=
  let prepared := prepareAll (c.prepare m) s c.movers
  let move (s : S) (particle : Particle) (x : μ) := c.move m s particle m.clock.step x
  let ready := ready prepared.1
  ⟨prepared.1, rows move ready prepared.2 ps.forecastParticles,
    rows move ready (moveAll move ready prepared.2 ps.forecastParticles).2 ps.uncertainParticles⟩

theorem isSimultaneous_step (c : Crew α S μ) (m : Moment α) (s : S) (ps : Swarm) :
    c.IsSimultaneous m s ps (c.transcript m s ps) (c.step m s ps).1 (c.step m s ps).2 := by
  have hready : (c.transcript m s ps).ready = ready (prepareAll (c.prepare m) s c.movers).1 :=
    (ready_eq _).symm
  refine ⟨map_fst_prepareAll s c.movers, ?_, ?_, ?_⟩
  · rw [hready]
    exact moves_movedBy _ _ Particle.forecast ps.forecast
  · rw [hready]
    exact moves_movedBy _ _ (Particle.uncertain 0) ps.uncertain
  · exact (answers_prepareAll s c.movers).append
      ((answers_moveAll _ _ _).append ((answers_moveAll _ _ _).append (answers_finish _ _)))

/-! ## Nothing else answers so -/

omit [Scalar α] in
theorem Answers.of_prepared {s u : S} {outcomes : List (μ × Except (DriftError α) Unit)}
    {calls : List (Call α μ)}
    (h : c.Answers m s (outcomes.map (fun (x, outcome) => .prepare x outcome) ++ calls) u) :
    (prepareAll (c.prepare m) s (outcomes.map Prod.fst)).1 = outcomes ∧
      c.Answers m (prepareAll (c.prepare m) s (outcomes.map Prod.fst)).2 calls u := by
  induction outcomes generalizing s with
  | nil => exact ⟨rfl, h⟩
  | cons x xs ih =>
      obtain ⟨x, outcome⟩ := x
      cases h with
      | prepare hx hrest =>
          obtain ⟨hxs, hcalls⟩ := ih hrest
          simp only [List.map_cons, prepareAll, hx]
          exact ⟨congrArg _ hxs, hcalls⟩

omit [Scalar α] in
theorem Answers.of_finish {s u : S} {xs : List μ} (h : c.Answers m s (xs.map .finish) u) :
    u = xs.foldl c.finish s := by
  induction xs generalizing s with
  | nil =>
      cases h
      rfl
  | cons x xs ih =>
      cases h with
      | finish hrest => exact ih hrest

theorem Answers.of_row {s u : S} {row : Row α μ} {calls : List (Call α μ)}
    (h : c.Answers m s (row.calls ++ calls) u) :
    let move (s : S) (particle : Particle) (x : μ) := c.move m s particle m.clock.step x
    (moveBy move (row.answers.map Prod.fst) s row.particle).1 = Displacement.sum row.displacements ∧
      c.Answers m (moveBy move (row.answers.map Prod.fst) s row.particle).2 calls u := by
  intro move
  obtain ⟨particle, as⟩ := row
  unfold moveBy Displacement.sum
  generalize (Displacement.zero : Displacement α) = total
  induction as generalizing total s with
  | nil => exact ⟨rfl, h⟩
  | cons a as ih =>
      obtain ⟨x, d⟩ := a
      cases h with
      | move hx hrest =>
          simp only [List.map_cons, List.foldl_cons, Row.displacements, move, hx]
          exact ih hrest _

theorem Answers.of_rows {s u : S} {ready : List μ} {rs : List (Row α μ)} {calls : List (Call α μ)}
    (h : c.Answers m s (rs.flatMap Row.calls ++ calls) u)
    (hrs : ∀ row ∈ rs, row.answers.map Prod.fst = ready) :
    let move (s : S) (particle : Particle) (x : μ) := c.move m s particle m.clock.step x
    (moveAll move ready s (rs.map Row.particle)).1 =
        rs.map (fun row => Displacement.sum row.displacements) ∧
      c.Answers m (moveAll move ready s (rs.map Row.particle)).2 calls u := by
  intro move
  induction rs generalizing s with
  | nil => exact ⟨rfl, h⟩
  | cons row rs ih =>
      obtain ⟨hready, hrest⟩ := List.forall_mem_cons.mp hrs
      rw [List.flatMap_cons, List.append_assoc] at h
      obtain ⟨hrow, hcalls⟩ := h.of_row
      rw [hready] at hrow hcalls
      obtain ⟨htail, hcalls⟩ := ih hcalls hrest
      exact ⟨List.cons_eq_cons.mpr ⟨hrow, htail⟩, hcalls⟩

section Moves

variable {ready : List μ} {particle : Nat → Point → Particle} {before after : List Point}
  {rs : List (Row α μ)}

omit [Scalar α] in
/-- There is a row for every point and a point for every row. -/
theorem Moves.getElem (h : Moves ready particle before rs after) {i : Nat} (hi : i < rs.length) :
    ∃ p q, before[i]? = some p ∧ rs[i].particle = particle i p ∧
      rs[i].answers.map Prod.fst = ready ∧ after[i]? = some q ∧
        p.IsMovedBy rs[i].displacements q := by
  obtain ⟨p, hp⟩ : ∃ p, before[i]? = some p :=
    ⟨_, List.getElem?_eq_getElem (h.length_rows ▸ hi)⟩
  obtain ⟨row, q, hrow, hrest⟩ := h.moved i p hp
  obtain rfl : rs[i] = row := by simpa [hi] using hrow
  exact ⟨p, q, hp, hrest⟩

omit [Scalar α] in
theorem Moves.answers_eq (h : Moves ready particle before rs after) :
    ∀ row ∈ rs, row.answers.map Prod.fst = ready := by
  intro row hrow
  obtain ⟨i, hi, rfl⟩ := List.getElem_of_mem hrow
  obtain ⟨p, q, -, -, hready, -⟩ := h.getElem hi
  exact hready

omit [Scalar α] in
theorem Moves.map_particle (h : Moves ready particle before rs after) :
    rs.map Row.particle = before.zipIdx.map fun (p, i) => particle i p := by
  apply List.ext_getElem (by simp [h.length_rows])
  intro i hi hi'
  rw [List.length_map] at hi
  obtain ⟨p, q, hp, hparticle, -⟩ := h.getElem hi
  obtain ⟨_, rfl⟩ := List.getElem?_eq_some_iff.mp hp
  simpa using hparticle

theorem Moves.after_eq (h : Moves ready particle before rs after) :
    after = Point.movedBy before (rs.map fun row => Displacement.sum row.displacements) := by
  apply List.ext_getElem?
  intro i
  by_cases hi : i < rs.length
  · obtain ⟨p, q, hp, -, -, hq, hmoved⟩ := h.getElem hi
    have hd : (rs.map fun row => Displacement.sum row.displacements)[i]? =
        some (Displacement.sum rs[i].displacements) := by simp [hi]
    rw [hq, getElem?_movedBy hp hd, hmoved.eq]
  · rw [List.getElem?_eq_none, List.getElem?_eq_none]
    · rw [length_movedBy, ← h.length_rows]
      exact Nat.le_of_not_lt hi
    · rw [h.length_after, ← h.length_rows]
      exact Nat.le_of_not_lt hi

end Moves

/-- The calls and their answers leave open nothing of what a step does. -/
theorem isSimultaneous_iff (c : Crew α S μ) (m : Moment α) (s s' : S) (ps ps' : Swarm) :
    (∃ t, c.IsSimultaneous m s ps t ps' s') ↔ c.step m s ps = (ps', s') := by
  constructor
  · rintro ⟨t, hprepared, hforecast, huncertain, hanswers⟩
    obtain ⟨forecast, uncertain⟩ := ps'
    rw [Transcript.calls] at hanswers
    obtain ⟨hp, hanswers⟩ := hanswers.of_prepared
    rw [hprepared] at hp hanswers
    have hready : t.ready = ready (prepareAll (c.prepare m) s c.movers).1 := by
      rw [hp]
      exact (ready_eq _).symm
    obtain ⟨hf, hanswers⟩ := hanswers.of_rows hforecast.answers_eq
    obtain ⟨hu, hanswers⟩ := hanswers.of_rows huncertain.answers_eq
    rw [hforecast.map_particle, hready] at hf hu hanswers
    rw [huncertain.map_particle] at hu hanswers
    obtain rfl := hanswers.of_finish
    obtain rfl := hforecast.after_eq
    obtain rfl := huncertain.after_eq
    rw [← hf, ← hu]
    rfl
  · intro h
    refine ⟨c.transcript m s ps, ?_⟩
    have hstep := c.isSimultaneous_step m s ps
    rw [h] at hstep
    exact hstep

end Step

end Crew

/-! ## Runs -/

namespace Stage

variable {α S μ : Type} [Scalar α] {c : Crew α S μ}

theorem steps_succ (isUncertain : Bool) (k : Nat) (r : Stage α S) :
    r.steps c isUncertain (k + 1) = (r.steps c isUncertain k).step c isUncertain := by
  induction k generalizing r with
  | zero => rfl
  | succ k ih => exact ih (r.step c isUncertain)

theorem clock_steps (isUncertain : Bool) (k : Nat) (r : Stage α S) :
    (r.steps c isUncertain k).clock = Clock.advance^[k] r.clock := by
  induction k with
  | zero => rfl
  | succ k ih =>
      rw [steps_succ, Function.iterate_succ_apply', ← ih]
      rfl

theorem length_uncertain_steps (isUncertain : Bool) (k : Nat) (r : Stage α S) :
    (r.steps c isUncertain k).particles.uncertain.length = r.particles.uncertain.length := by
  induction k with
  | zero => rfl
  | succ k ih =>
      rw [steps_succ]
      exact (c.isSimultaneous_step _ _ _).uncertain.length_after.trans ih

/-- The moment of a later step. The uncertain particles are as many as at the beginning. -/
theorem moment_steps (isUncertain : Bool) (k : Nat) (r : Stage α S) :
    (r.steps c isUncertain k).moment isUncertain =
      if isUncertain then
        Moment.uncertain (Clock.advance^[k] r.clock) [r.particles.uncertain.length]
      else Moment.certain (Clock.advance^[k] r.clock) := by
  rw [moment, clock_steps, length_uncertain_steps]

end Stage

end CurrentDrift
