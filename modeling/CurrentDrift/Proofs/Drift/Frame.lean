import CurrentDrift.Drift.Step

/-! # What working out a scale leaves alone

The search for a scale goes from pattern to pattern and stores scales on its way. Whatever the rules
of the patterns are, it stores nothing else, and nothing at all in a prepared pattern but the one
that it was started for. -/

namespace CurrentDrift

variable {α β γ : Type}

namespace Fleet

@[simp] theorem States.get_put_self {f : Fleet α β γ} (s : f.States) (i : f.Index)
    (x : PatternStatus α β γ) : (s.put i x).get i = x := by
  simp [States.get_put]

@[simp] theorem States.put_get {f : Fleet α β γ} (s : f.States) (i : f.Index) :
    s.put i (s.get i) = s := by
  simp [States.put, States.get]

theorem States.get_put_of_ne {f : Fleet α β γ} (s : f.States) {i j : f.Index} (h : j ≠ i)
    (x : PatternStatus α β γ) : (s.put i x).get j = s.get j := by
  simp [States.get_put, Ne.symm h]

/-- What a new state of a pattern has in common with the old one is the same for all patterns. -/
theorem States.view_put {f : Fleet α β γ} {δ : Type} (view : PatternStatus α β γ → δ)
    (s : f.States) {i k : f.Index} {x : PatternStatus α β γ} (h : view x = view (s.get i)) :
    view ((s.put i x).get k) = view (s.get k) := by
  rw [States.get_put]
  split
  · next hik => rw [h, hik]
  · rfl

end Fleet

/-! ## Parts of a state -/

/-- A state without its scale and what is known about it. -/
def PatternStatus.base (x : PatternStatus α β γ) :
    StepData α × Option (SpreadTable α) × Bool × β × γ :=
  (x.step, x.table, x.isResolving, x.supply, x.source)

/-- What is known about the scale: its value, whether it has been worked out, and whether there is
none. -/
def PatternStatus.found (x : PatternStatus α β γ) : α × Bool × Bool :=
  (x.scale, x.isScaled, x.lacksScale)

namespace PatternStatus

theorem needsScale_of_isPrepared {x : PatternStatus α β γ} (h : x.step.isPrepared = true)
    (rule : ScaleRule α) : x.needsScale rule = false := by
  simp [needsScale, h]

theorem not_isPrepared_of_needsScale {x : PatternStatus α β γ} {rule : ScaleRule α}
    (h : x.needsScale rule = true) : x.step.isPrepared = false := by
  simp only [needsScale, Bool.and_eq_true, Bool.not_eq_true'] at h
  exact h.1

theorem step_eq_of_base_eq {x y : PatternStatus α β γ} (h : x.base = y.base) : x.step = y.step :=
  congrArg Prod.fst h

theorem isResolving_eq_of_base_eq {x y : PatternStatus α β γ} (h : x.base = y.base) :
    x.isResolving = y.isResolving :=
  congrArg (fun b => b.2.2.1) h

theorem found_eq_iff {x y : PatternStatus α β γ} : x.found = y.found ↔
    x.scale = y.scale ∧ x.isScaled = y.isScaled ∧ x.lacksScale = y.lacksScale := by
  simp only [found, Prod.mk.injEq]

variable [Scalar α]

@[simp] theorem base_withOutcome (x : PatternStatus α β γ)
    (outcome : Except (DriftError α) α) : (x.withOutcome outcome).base = x.base := by
  cases outcome <;> rfl

/-- The latest outcome counts. -/
@[simp] theorem withOutcome_withOutcome (x : PatternStatus α β γ)
    (first second : Except (DriftError α) α) :
    (x.withOutcome first).withOutcome second = x.withOutcome second := by
  cases first <;> cases second <;> rfl

/-- An outcome that is found while the state is marked, and the mark taken off. -/
theorem withOutcome_unmarked (x : PatternStatus α β γ) (h : x.isResolving = false)
    (outcome : Except (DriftError α) α) :
    { PatternStatus.withOutcome { x with isResolving := true } outcome with
      isResolving := false } = x.withOutcome outcome := by
  cases outcome <;> simp [withOutcome, withScale, h]

/-- Without a scale the stored one is zero. -/
theorem scale_withOutcome (x : PatternStatus α β γ) (outcome : Except (DriftError α) α) :
    (x.withOutcome outcome).scale = outcome.toOption.getD 0.0 := by
  cases outcome <;> rfl

end PatternStatus

/-- What an attempt to find a scale has found. -/
def Scaling.found [Scalar α] (outcome : Except (DriftError α) α) : α × Bool × Bool :=
  match outcome with
  | .ok scale => (scale, true, false)
  | .error _ => (0.0, true, true)

theorem Scaling.fst_found [Scalar α] (outcome : Except (DriftError α) α) :
    (Scaling.found outcome).1 = outcome.toOption.getD 0.0 := by
  cases outcome <;> rfl

@[simp] theorem PatternStatus.found_withOutcome [Scalar α] (x : PatternStatus α β γ)
    (outcome : Except (DriftError α) α) :
    (x.withOutcome outcome).found = Scaling.found outcome := by
  cases outcome <;> rfl

namespace Fleet

/-! ## One search step -/

/-- The pattern that the scale of a pattern is taken from. Nothing is matched where a hydrology
factor takes the place of the scale. -/
def matched? (f : Fleet α β γ) (i : f.Index) : Option f.Index :=
  match (f.pattern i).hydrology?, (f.pattern i).rule with
  | none, .toPattern name => f.find? name (some i)
  | _, _ => none

theorem matched?_ne {f : Fleet α β γ} {i j : f.Index} (h : f.matched? i = some j) : i ≠ j := by
  unfold matched? at h
  split at h
  · have hj := List.find?_some h
    simp only [Bool.and_eq_true, decide_eq_true_eq] at hj
    exact fun hij => hj.1 (congrArg some hij)
  · contradiction

theorem hydrology?_of_matched? {f : Fleet α β γ} {i j : f.Index} (h : f.matched? i = some j) :
    (f.pattern i).hydrology? = none := by
  unfold matched? at h
  split at h
  · next hh _ => exact hh
  · contradiction

theorem matched?_of_not_dependsOnOther {f : Fleet α β γ} {i : f.Index}
    (h : (f.pattern i).rule.dependsOnOther = false) : f.matched? i = none := by
  unfold matched?
  split
  · next hrule => simp [hrule, ScaleRule.dependsOnOther] at h
  · rfl

/-- The states with one pattern marked: its scale is being worked out. -/
def mark (f : Fleet α β γ) (s : f.States) (i : f.Index) : f.States :=
  s.put i { s.get i with isResolving := true }

theorem scale_mark (f : Fleet α β γ) (s : f.States) (i k : f.Index) :
    ((f.mark s i).get k).scale = (s.get k).scale :=
  s.view_put PatternStatus.scale rfl

theorem step_mark (f : Fleet α β γ) (s : f.States) (i k : f.Index) :
    ((f.mark s i).get k).step = (s.get k).step :=
  s.view_put PatternStatus.step rfl

theorem found_mark (f : Fleet α β γ) (s : f.States) (i k : f.Index) :
    ((f.mark s i).get k).found = (s.get k).found :=
  s.view_put PatternStatus.found rfl

theorem idleCount_mark_lt (f : Fleet α β γ) (s : f.States) {i : f.Index}
    (h : (s.get i).isResolving = false) : f.idleCount (f.mark s i) < f.idleCount s :=
  f.idleCount_put_lt s i _ (by simp [h]) rfl

/-- The search enters a pattern that is not marked and marks it, so that it ends. -/
theorem resolve_induction (f : Fleet α β γ) {P : f.States → f.Index → Prop}
    (step : ∀ s i, ((s.get i).isResolving = false → ∀ j, P (f.mark s i) j) → P s i)
    (s : f.States) (i : f.Index) : P s i := by
  induction hn : f.idleCount s using Nat.strongRecOn generalizing s i with
  | ind n ih =>
      apply step
      intro hi j
      exact ih _ (hn ▸ f.idleCount_mark_lt s hi) (f.mark s i) j rfl

variable [Scalar α]

/-- What the pattern that is matched says at the reference point, and the states after that. -/
def askMatched (f : Fleet α β γ) (time : α) (s : f.States) (i : f.Index) :
    Option (Except (DriftError α) (Velocity α)) × f.States :=
  match f.matched? i with
  | some j =>
    let answer := f.scaledFlow time s j (f.pattern i).reference
    (some (answer.1.map Prod.fst), answer.2)
  | none => (none, s)

theorem askMatched_of_some (f : Fleet α β γ) (time : α) (s : f.States) {i j : f.Index}
    (h : f.matched? i = some j) :
    f.askMatched time s i =
      (some ((f.scaledFlow time s j (f.pattern i).reference).1.map Prod.fst),
        (f.scaledFlow time s j (f.pattern i).reference).2) := by
  rw [askMatched, h]

theorem askMatched_of_none (f : Fleet α β γ) (time : α) (s : f.States) {i : f.Index}
    (h : f.matched? i = none) : f.askMatched time s i = (none, s) := by
  rw [askMatched, h]

/-- The outcome of the search for a pattern that is not marked. -/
def outcome (f : Fleet α β γ) (time : α) (s : f.States) (i : f.Index) :
    Except (DriftError α) α :=
  Scaling.factor (f.pattern i).field (f.pattern i).rule (f.pattern i).reference
    (f.askMatched time (f.mark s i) i).1

/-- What the scale of a pattern is when the pattern that it matches gives an answer: the hydrology
factor if there is one, otherwise what the rule makes of the answer. -/
def ruling (f : Fleet α β γ) (i : f.Index)
    (other : Option (Except (DriftError α) (Velocity α))) : Except (DriftError α) α :=
  match (f.pattern i).hydrology? with
  | some scale => .ok scale
  | none => Scaling.factor (f.pattern i).field (f.pattern i).rule (f.pattern i).reference other

theorem ruling_of_hydrology (f : Fleet α β γ) {i : f.Index} {scale : α}
    (other : Option (Except (DriftError α) (Velocity α)))
    (h : (f.pattern i).hydrology? = some scale) : f.ruling i other = .ok scale := by
  simp only [ruling, h]

theorem outcome_eq_ruling (f : Fleet α β γ) (time : α) (s : f.States) {i : f.Index}
    (h : (f.pattern i).hydrology? = none) :
    f.outcome time s i = f.ruling i (f.askMatched time (f.mark s i) i).1 := by
  simp only [outcome, ruling, h]

theorem askFlow_states (f : Fleet α β γ) (time : α) (s : f.States) (i : f.Index) (p : Point) :
    (f.askFlow time s i p).states =
      if (s.get i).needsScale (f.pattern i).rule then (f.askScale time s i).states else s := by
  rw [askFlow]
  split <;> rfl

theorem askFlow_nesting (f : Fleet α β γ) (time : α) (s : f.States) (i : f.Index) (p : Point) :
    (f.askFlow time s i p).nesting =
      (if (s.get i).needsScale (f.pattern i).rule then (f.askScale time s i).nesting
        else 0) + 1 := by
  rw [askFlow]
  split <;> rfl

theorem askFlow_answer (f : Fleet α β γ) (time : α) (s : f.States) (i : f.Index) (p : Point) :
    (f.askFlow time s i p).answer =
      (f.pattern i).flowUnder ((f.askFlow time s i p).states.get i).scale time p := by
  rw [askFlow]

theorem askScale_of_hydrology (f : Fleet α β γ) (time : α) (s : f.States) {i : f.Index}
    {scale : α} (h : (f.pattern i).hydrology? = some scale) :
    f.askScale time s i = ⟨.ok scale, s.put i ((s.get i).withScale scale), 0⟩ := by
  rw [askScale]
  simp only [h]

theorem askScale_of_isResolving (f : Fleet α β γ) (time : α) (s : f.States) {i : f.Index}
    (h : (f.pattern i).hydrology? = none) (hi : (s.get i).isResolving = true) :
    f.askScale time s i = ⟨.ok (s.get i).scale, s, 0⟩ := by
  rw [askScale]
  simp only [h, hi, dite_true]

theorem askScale_of_idle (f : Fleet α β γ) (time : α) (s : f.States) {i : f.Index}
    (h : (f.pattern i).hydrology? = none) (hi : (s.get i).isResolving = false) :
    f.askScale time s i =
      let s' := (f.askMatched time (f.mark s i) i).2
      ⟨f.outcome time s i, s'.put i
        { (s'.get i).withOutcome (f.outcome time s i) with isResolving := false },
        match f.matched? i with
        | some j => (f.askFlow time (f.mark s i) j (f.pattern i).reference).nesting
        | none => 0⟩ := by
  rw [askScale]
  simp only [h, hi, Bool.false_eq_true, dite_false, outcome, askMatched, matched?, mark]
  cases (f.pattern i).rule with
  | unscaled => rfl
  | toSpeed target => rfl
  | toPattern name =>
      cases hfound : f.find? name (some i) with
      | none => simp only [hfound]
      | some j =>
          simp only [hfound]
          rfl

theorem resolveScale_of_hydrology (f : Fleet α β γ) (time : α) (s : f.States) {i : f.Index}
    {scale : α} (h : (f.pattern i).hydrology? = some scale) :
    f.resolveScale time s i = (.ok scale, s.put i ((s.get i).withScale scale)) := by
  rw [resolveScale, askScale_of_hydrology f time s h]

theorem resolveScale_of_isResolving (f : Fleet α β γ) (time : α) (s : f.States) {i : f.Index}
    (h : (f.pattern i).hydrology? = none) (hi : (s.get i).isResolving = true) :
    f.resolveScale time s i = (.ok (s.get i).scale, s) := by
  rw [resolveScale, askScale_of_isResolving f time s h hi]

theorem resolveScale_of_idle (f : Fleet α β γ) (time : α) (s : f.States) {i : f.Index}
    (h : (f.pattern i).hydrology? = none) (hi : (s.get i).isResolving = false) :
    f.resolveScale time s i =
      let s' := (f.askMatched time (f.mark s i) i).2
      (f.outcome time s i, s'.put i
        { (s'.get i).withOutcome (f.outcome time s i) with isResolving := false }) := by
  rw [resolveScale, askScale_of_idle f time s h hi]

theorem scale_resolveScale_of_idle (f : Fleet α β γ) (time : α) (s : f.States) {i : f.Index}
    (h : (f.pattern i).hydrology? = none) (hi : (s.get i).isResolving = false) :
    ((f.resolveScale time s i).2.get i).scale = (f.outcome time s i).toOption.getD 0.0 := by
  rw [resolveScale_of_idle f time s h hi, States.get_put_self]
  exact PatternStatus.scale_withOutcome _ _

theorem scaledFlow_snd (f : Fleet α β γ) (time : α) (s : f.States) (i : f.Index) (p : Point) :
    (f.scaledFlow time s i p).2 =
      if (s.get i).needsScale (f.pattern i).rule then (f.resolveScale time s i).2 else s :=
  f.askFlow_states time s i p

theorem scaledFlow_fst (f : Fleet α β γ) (time : α) (s : f.States) (i : f.Index) (p : Point) :
    (f.scaledFlow time s i p).1 =
      (f.pattern i).flowUnder ((f.scaledFlow time s i p).2.get i).scale time p :=
  f.askFlow_answer time s i p

/-- A prepared pattern answers by what it has stored. -/
theorem scaledFlow_of_isPrepared (f : Fleet α β γ) (time : α) (s : f.States) (i : f.Index)
    (p : Point) (h : (s.get i).step.isPrepared = true) :
    f.scaledFlow time s i p = ((f.pattern i).flowUnder (s.get i).scale time p, s) := by
  have hstates : (f.scaledFlow time s i p).2 = s := by
    rw [scaledFlow_snd, PatternStatus.needsScale_of_isPrepared h]
    rfl
  calc f.scaledFlow time s i p
      = ((f.scaledFlow time s i p).1, (f.scaledFlow time s i p).2) := rfl
    _ = ((f.pattern i).flowUnder (s.get i).scale time p, s) := by rw [scaledFlow_fst, hstates]

/-- The outcome where the matched pattern is prepared: its stored scale decides. -/
theorem outcome_of_isPrepared (f : Fleet α β γ) (time : α) (s : f.States) {i j : f.Index}
    (hm : f.matched? i = some j) (hj : (s.get j).step.isPrepared = true) :
    f.outcome time s i =
      Scaling.factor (f.pattern i).field (f.pattern i).rule (f.pattern i).reference
        (some (((f.pattern j).flowUnder (s.get j).scale time (f.pattern i).reference).map
          Prod.fst)) := by
  have hmarked : ((f.mark s i).get j).step.isPrepared = true := by rw [step_mark, hj]
  rw [outcome, askMatched_of_some f time _ hm, scaledFlow_of_isPrepared f time _ j _ hmarked,
    scale_mark]

/-! ## Everything but the scales -/

/-- What a search makes of the state of a pattern: nothing, or it stores what the rule of the
pattern makes of some answer. -/
theorem get_resolveScale_eq_ruling (f : Fleet α β γ) (time : α) (s : f.States) (i k : f.Index) :
    (f.resolveScale time s i).2.get k = s.get k ∨
      ∃ other, (f.matched? k = none → other = none) ∧
        (f.resolveScale time s i).2.get k = (s.get k).withOutcome (f.ruling k other) := by
  induction s, i using f.resolve_induction generalizing k with
  | step s i ih =>
      cases hh : (f.pattern i).hydrology? with
      | some scale =>
          rw [resolveScale_of_hydrology f time s hh, States.get_put]
          split
          · next h =>
            subst h
            exact .inr ⟨none, fun _ => rfl, by rw [ruling_of_hydrology f none hh]; rfl⟩
          · exact .inl rfl
      | none =>
          by_cases hi : (s.get i).isResolving = true
          · rw [resolveScale_of_isResolving f time s hh hi]
            exact .inl rfl
          · have hidle : (s.get i).isResolving = false := by simpa using hi
            have hask : ∀ l, (f.askMatched time (f.mark s i) i).2.get l = (f.mark s i).get l ∨
                ∃ other, (f.matched? l = none → other = none) ∧
                  (f.askMatched time (f.mark s i) i).2.get l =
                    ((f.mark s i).get l).withOutcome (f.ruling l other) := by
              intro l
              unfold askMatched
              split
              · rw [scaledFlow_snd]
                split
                · exact ih hidle _ l
                · exact .inl rfl
              · exact .inl rfl
            rw [resolveScale_of_idle f time s hh hidle, States.get_put]
            split
            · next h =>
              subst h
              have hnone : f.matched? i = none → (f.askMatched time (f.mark s i) i).1 = none :=
                fun h => by rw [askMatched_of_none f time _ h]
              refine .inr ⟨_, hnone, ?_⟩
              rw [← outcome_eq_ruling f time s hh]
              rcases hask i with h | ⟨other, -, h⟩
              · rw [h, mark, States.get_put_self]
                exact PatternStatus.withOutcome_unmarked _ hidle _
              · rw [h, PatternStatus.withOutcome_withOutcome, mark, States.get_put_self]
                exact PatternStatus.withOutcome_unmarked _ hidle _
            · next h =>
              rw [← States.get_put_of_ne s (Ne.symm h) { s.get i with isResolving := true }]
              exact hask k

theorem get_resolveScale (f : Fleet α β γ) (time : α) (s : f.States) (i k : f.Index) :
    (f.resolveScale time s i).2.get k = s.get k ∨
      ∃ outcome, (f.resolveScale time s i).2.get k = (s.get k).withOutcome outcome :=
  (f.get_resolveScale_eq_ruling time s i k).imp_right fun ⟨_, _, h⟩ => ⟨_, h⟩

theorem base_resolveScale (f : Fleet α β γ) (time : α) (s : f.States) (i k : f.Index) :
    ((f.resolveScale time s i).2.get k).base = (s.get k).base := by
  rcases f.get_resolveScale time s i k with h | ⟨outcome, h⟩
  · rw [h]
  · rw [h, PatternStatus.base_withOutcome]

theorem base_scaledFlow (f : Fleet α β γ) (time : α) (s : f.States) (i k : f.Index)
    (p : Point) : ((f.scaledFlow time s i p).2.get k).base = (s.get k).base := by
  rw [scaledFlow_snd]
  split
  · exact base_resolveScale f time s i k
  · rfl

/-! ## What is found -/

/-- About the scale of a pattern a state says what another state has said, or what the rule of the
pattern makes of some answer; where nothing is matched there is no answer. -/
def Finds (f : Fleet α β γ) (k : f.Index) (x y : PatternStatus α β γ) : Prop :=
  y.found = x.found ∨
    ∃ other, (f.matched? k = none → other = none) ∧ y.found = Scaling.found (f.ruling k other)

theorem finds_resolveScale (f : Fleet α β γ) (time : α) (s : f.States) (i k : f.Index) :
    f.Finds k (s.get k) ((f.resolveScale time s i).2.get k) := by
  rcases f.get_resolveScale_eq_ruling time s i k with h | ⟨other, hother, h⟩
  · exact .inl (by rw [h])
  · exact .inr ⟨other, hother, by rw [h, PatternStatus.found_withOutcome]⟩

theorem finds_scaledFlow (f : Fleet α β γ) (time : α) (s : f.States) (i k : f.Index)
    (p : Point) : f.Finds k (s.get k) ((f.scaledFlow time s i p).2.get k) := by
  rw [scaledFlow_snd]
  split
  · exact f.finds_resolveScale time s i k
  · exact .inl rfl

/-! ## Patterns that a search stays away from -/

/-- A search stays within a set of patterns that holds the one it was started for, and with a
pattern the matched one unless that is prepared. -/
theorem get_resolveScale_of_notMem (f : Fleet α β γ) (time : α) (s : f.States) {i k : f.Index}
    (near : f.Index → Prop)
    (hnear : ∀ a b, near a → f.matched? a = some b → (s.get b).step.isPrepared = false → near b)
    (hi : near i) (hk : ¬ near k) : (f.resolveScale time s i).2.get k = s.get k := by
  have hki : k ≠ i := by
    rintro rfl
    exact hk hi
  induction s, i using f.resolve_induction with
  | step s i ih =>
      cases hh : (f.pattern i).hydrology? with
      | some scale =>
          rw [resolveScale_of_hydrology f time s hh, States.get_put_of_ne _ hki]
      | none =>
          by_cases hmarked : (s.get i).isResolving = true
          · rw [resolveScale_of_isResolving f time s hh hmarked]
          · have hidle : (s.get i).isResolving = false := by simpa using hmarked
            rw [resolveScale_of_idle f time s hh hidle, States.get_put_of_ne _ hki]
            have hmark : (f.mark s i).get k = s.get k := States.get_put_of_ne _ hki _
            unfold askMatched
            split
            · next j hj =>
              rw [scaledFlow_snd]
              split
              · next hn =>
                have hopen : (s.get j).step.isPrepared = false := by
                  rw [← step_mark f s i j]
                  exact PatternStatus.not_isPrepared_of_needsScale hn
                have hjnear : near j := hnear i j hi hj hopen
                have hkj : k ≠ j := by
                  rintro rfl
                  exact hk hjnear
                have hnear' : ∀ a b, near a → f.matched? a = some b →
                    ((f.mark s i).get b).step.isPrepared = false → near b := by
                  intro a b ha hab hb
                  rw [step_mark] at hb
                  exact hnear a b ha hab hb
                rw [ih hidle j hnear' hjnear hkj, hmark]
              · exact hmark
            · exact hmark

/-- Except for the pattern that the search was started for, prepared patterns keep their states. -/
theorem get_resolveScale_of_isPrepared (f : Fleet α β γ) (time : α) (s : f.States)
    (i k : f.Index) (hk : (s.get k).step.isPrepared = true) (hki : k ≠ i) :
    (f.resolveScale time s i).2.get k = s.get k := by
  apply f.get_resolveScale_of_notMem time s fun j => j = i ∨ (s.get j).step.isPrepared = false
  · exact fun a b _ _ hb => .inr hb
  · exact .inl rfl
  · rintro (rfl | hopen)
    · exact hki rfl
    · simp [hk] at hopen

theorem get_scaledFlow_of_isPrepared (f : Fleet α β γ) (time : α) (s : f.States)
    (i k : f.Index) (p : Point) (hk : (s.get k).step.isPrepared = true) :
    (f.scaledFlow time s i p).2.get k = s.get k := by
  rw [scaledFlow_snd]
  split
  · next hn =>
    apply get_resolveScale_of_isPrepared f time s i k hk
    rintro rfl
    simp [PatternStatus.not_isPrepared_of_needsScale hn] at hk
  · rfl

end Fleet

end CurrentDrift
