import CurrentDrift.Proofs.Drift.ReferenceScale

/-! # Scales at rest

A pattern is at rest if what is known about its scale, and about the scales of all patterns that it
leads to by matches, is what the rules make of the scales that are stored now. No call at that time
changes such a scale, be the pattern on a circle of matches or not. Main statement: where the chain
of matches ends, a pattern is at rest once it is prepared. -/

namespace CurrentDrift.Fleet

variable {α β γ : Type}

variable [Scalar α]

/-! ## Balance -/

/-- What the pattern that is matched answers under the scale that it has stored. -/
def storedAnswer (f : Fleet α β γ) (time : α) (s : f.States) (i : f.Index) :
    Option (Except (DriftError α) (Velocity α)) :=
  (f.matched? i).map fun j =>
    ((f.pattern j).flowUnder (s.get j).scale time (f.pattern i).reference).map Prod.fst

/-- What is known about the scale of a pattern is what its rule makes of the stored scale of the
pattern that it matches. -/
def IsBalanced (f : Fleet α β γ) (time : α) (s : f.States) (i : f.Index) : Prop :=
  (s.get i).found = Scaling.found (f.ruling i (f.storedAnswer time s i))

/-- A pattern and all that it leads to by matches are balanced. -/
def AtRest (f : Fleet α β γ) (time : α) (s : f.States) (i : f.Index) : Prop :=
  ∀ k, Relation.ReflTransGen f.Matches i k → f.IsBalanced time s k

/-- At two times every pattern has the same factor. -/
def SameFactors (f : Fleet α β γ) (time time' : α) : Prop :=
  ∀ i, (f.pattern i).timeFactor time' = (f.pattern i).timeFactor time

variable {f : Fleet α β γ} {time time' : α} {s s' : f.States} {i j k : f.Index}

theorem SameFactors.symm (h : f.SameFactors time time') : f.SameFactors time' time :=
  fun i => (h i).symm

theorem storedAnswer_of_unmatched (h : f.matched? i = none) : f.storedAnswer time s i = none := by
  rw [storedAnswer, h, Option.map_none]

theorem storedAnswer_congr (h : ∀ j, f.Matches i j → (s'.get j).scale = (s.get j).scale) :
    f.storedAnswer time s' i = f.storedAnswer time s i := by
  cases hj : f.matched? i with
  | none => rw [storedAnswer_of_unmatched hj, storedAnswer_of_unmatched hj]
  | some j => rw [storedAnswer, storedAnswer, hj, Option.map_some, Option.map_some, h j hj]

namespace AtRest

theorem isBalanced (h : f.AtRest time s i) : f.IsBalanced time s i :=
  h i .refl

theorem of_matches (h : f.AtRest time s i) (hm : f.Matches i j) : f.AtRest time s j :=
  fun k hk => h k (hk.head hm)

theorem intro (hi : f.IsBalanced time s i) (hm : ∀ j, f.Matches i j → f.AtRest time s j) :
    f.AtRest time s i := by
  intro k hk
  rcases hk.cases_head with rfl | ⟨j, hij, hjk⟩
  · exact hi
  · exact hm j hij k hjk

theorem congr (h : f.AtRest time s i)
    (hs : ∀ k, Relation.ReflTransGen f.Matches i k → (s'.get k).found = (s.get k).found) :
    f.AtRest time s' i := by
  intro k hk
  have hanswer : f.storedAnswer time s' k = f.storedAnswer time s k :=
    storedAnswer_congr fun j hj => congrArg Prod.fst (hs j (hk.tail hj))
  rw [IsBalanced, hs k hk, hanswer]
  exact h k hk

/-- Time counts only as far as the factors of the patterns depend on it. -/
theorem at_time (h : f.AtRest time s i) (hsame : f.SameFactors time time') :
    f.AtRest time' s i := by
  intro k hk
  have hanswer : f.storedAnswer time' s k = f.storedAnswer time s k := by
    simp only [storedAnswer, Pattern.flowUnder, hsame _]
  rw [IsBalanced, hanswer]
  exact h k hk

end AtRest

/-! ## What a search leaves at rest -/

theorem fst_askMatched (h : ∀ j, f.Matches i j →
    ((f.askMatched time s i).2.get j).scale = (s'.get j).scale) :
    (f.askMatched time s i).1 = f.storedAnswer time s' i := by
  cases hj : f.matched? i with
  | none => rw [askMatched_of_none f time s hj, storedAnswer_of_unmatched hj]
  | some j =>
      have hscale := h j hj
      rw [askMatched_of_some f time s hj] at hscale ⊢
      rw [scaledFlow_fst, hscale, storedAnswer, hj, Option.map_some]

theorem found_resolveScale_self (f : Fleet α β γ) (time : α) (s : f.States) (i : f.Index)
    (hi : (s.get i).isResolving = false) : ((f.resolveScale time s i).2.get i).found =
      Scaling.found (f.ruling i (f.askMatched time (f.mark s i) i).1) := by
  cases hh : (f.pattern i).hydrology? with
  | some scale =>
      rw [resolveScale_of_hydrology f time s hh, States.get_put_self, ruling_of_hydrology f _ hh]
      rfl
  | none =>
      rw [resolveScale_of_idle f time s hh hi, States.get_put_self, ← outcome_eq_ruling f time s hh]
      exact PatternStatus.found_withOutcome _ _

/-- The search works out a scale again from what it comes across, so what is at rest stays so. -/
theorem found_resolveScale_of_atRest (f : Fleet α β γ) (time : α) (s : f.States)
    (i k : f.Index) (hk : f.AtRest time s k) :
    ((f.resolveScale time s i).2.get k).found = (s.get k).found := by
  induction s, i using f.resolve_induction generalizing k with
  | step s i ih =>
      cases hh : (f.pattern i).hydrology? with
      | some scale =>
          rw [resolveScale_of_hydrology f time s hh, States.get_put]
          split
          · next hik =>
            subst hik
            rw [hk.isBalanced, ruling_of_hydrology f _ hh]
            rfl
          · rfl
      | none =>
          by_cases hi : (s.get i).isResolving = true
          · rw [resolveScale_of_isResolving f time s hh hi]
          · have hidle : (s.get i).isResolving = false := by simpa using hi
            have hask : ∀ l, f.AtRest time s l →
                ((f.askMatched time (f.mark s i) i).2.get l).found = (s.get l).found := by
              intro l hl
              have hmark := found_mark f s i l
              unfold askMatched
              split
              · rw [scaledFlow_snd]
                split
                · exact (ih hidle _ l (hl.congr fun m _ => found_mark f s i m)).trans hmark
                · exact hmark
              · exact hmark
            by_cases hki : k = i
            · subst hki
              rw [found_resolveScale_self f time s k hidle, hk.isBalanced]
              congr 2
              exact fst_askMatched fun j hj => congrArg Prod.fst (hask j (hk.of_matches hj))
            · rw [resolveScale_of_idle f time s hh hidle]
              dsimp only
              rw [States.get_put_of_ne _ hki]
              exact hask k hk

theorem found_scaledFlow_of_atRest (f : Fleet α β γ) (time : α) (s : f.States)
    (i k : f.Index) (p : Point) (hk : f.AtRest time s k) :
    ((f.scaledFlow time s i p).2.get k).found = (s.get k).found := by
  rw [scaledFlow_snd]
  split
  · exact f.found_resolveScale_of_atRest time s i k hk
  · rfl

/-! ## Where the chain of matches ends -/

/-- What is known about scales that are not taken from other patterns is what the rules say. -/
def HasOwnScales (s : f.States) : Prop :=
  ∀ k, f.matched? k = none → (s.get k).isScaled = true →
    (s.get k).found = Scaling.found (f.ruling k none)

theorem HasOwnScales.finds (h : HasOwnScales s) (hs : ∀ k, f.Finds k (s.get k) (s'.get k)) :
    HasOwnScales s' := by
  intro k hnone hk
  rcases hs k with hfound | ⟨other, hother, hfound⟩
  · rw [hfound]
    exact h k hnone ((PatternStatus.found_eq_iff.mp hfound).2.1 ▸ hk)
  · rw [hfound, hother hnone]

theorem HasOwnScales.atRest (h : HasOwnScales s) (hnone : f.matched? k = none)
    (hk : (s.get k).isScaled = true) : f.AtRest time s k := by
  apply AtRest.intro
  · rw [IsBalanced, storedAnswer_of_unmatched hnone]
    exact h k hnone hk
  · intro j hj
    exact nomatch hnone.symm.trans hj

/-- The search brings a pattern to rest if the chain of matches ends, no pattern on it is marked,
and those that are prepared are at rest. -/
theorem atRest_resolveScale (hends : f.Ends i) (s : f.States)
    (hidle : ∀ k, Relation.ReflTransGen f.Matches i k → (s.get k).isResolving = false)
    (hown : HasOwnScales s)
    (hstored : ∀ k, f.Ends k → (s.get k).step.isPrepared = true → f.AtRest time s k) :
    f.AtRest time (f.resolveScale time s i).2 i := by
  induction hends generalizing s with
  | last hnone =>
      have hfound := f.found_resolveScale_self time s _ (hidle _ .refl)
      rw [askMatched_of_none f time _ hnone] at hfound
      apply AtRest.intro
      · rw [IsBalanced, storedAnswer_of_unmatched hnone, hfound]
      · intro j hj
        exact nomatch hnone.symm.trans hj
  | @next i j hm hends ih =>
      have hne : ∀ k, Relation.ReflTransGen f.Matches j k → k ≠ i := by
        rintro k hk rfl
        exact (Ends.next hm hends).not_transGen (Relation.TransGen.head' hm hk)
      have hmark : ∀ k, f.AtRest time s k → f.AtRest time (f.mark s i) k :=
        fun k hk => hk.congr fun l _ => found_mark f s i l
      -- The matched pattern comes to rest, or has been at rest if it is not entered.
      have hrest : f.AtRest time (f.askMatched time (f.mark s i) i).2 j := by
        have hown' : HasOwnScales (f.mark s i) := hown.finds fun k => .inl (found_mark f s i k)
        rw [askMatched_of_some f time _ hm, scaledFlow_snd]
        split
        · apply ih
          · intro k hk
            rw [mark, States.get_put_of_ne _ (hne k hk)]
            exact hidle k (hk.head hm)
          · exact hown'
          · intro k hk hp
            rw [step_mark] at hp
            exact hmark k (hstored k hk hp)
        · next hn =>
          cases hp : (s.get j).step.isPrepared with
          | true => exact hmark j (hstored j hends hp)
          | false =>
              rw [← step_mark f s i j] at hp
              simp only [PatternStatus.needsScale, hp, Bool.not_false, Bool.true_and,
                Bool.or_eq_true, not_or, Bool.not_eq_true, Bool.not_eq_false'] at hn
              exact hown'.atRest (matched?_of_not_dependsOnOther hn.2) hn.1
      have hget : ∀ k, Relation.ReflTransGen f.Matches j k →
          (f.resolveScale time s i).2.get k = (f.askMatched time (f.mark s i) i).2.get k := by
        intro k hk
        rw [resolveScale_of_idle f time s (hydrology?_of_matched? hm) (hidle i .refl)]
        exact States.get_put_of_ne _ (hne k hk) _
      apply AtRest.intro
      · rw [IsBalanced, f.found_resolveScale_self time s i (hidle i .refl)]
        congr 2
        apply fst_askMatched
        intro k hk
        obtain rfl := Option.some.inj (hm.symm.trans hk)
        rw [hget j .refl]
      · intro k hk
        obtain rfl := Option.some.inj (hm.symm.trans hk)
        exact hrest.congr fun l hl => by rw [hget l hl]

/-! ## Calls -/

section Calls

variable [TableSupply α β γ] [RandomSource α γ]

theorem found_apply_of_atRest {call : Call f} (hat : call.IsAt time) (hk : f.AtRest time s k) :
    ((call.apply s).get k).found = (s.get k).found := by
  cases call with
  | prepare m i =>
      obtain rfl : m.clock.now = time := hat
      have htable := fun l => PatternStatus.found_eq_of_scaling_eq (f.scaling_withTable m s i l)
      cases hr : (f.renewal m s i).outcome with
      | error e => rw [Call.apply, prepare_of_error f m s i hr, htable]
      | ok u =>
          rw [Call.apply, found_prepare f m s i k hr, ← htable]
          exact f.found_resolveScale_of_atRest _ _ i k (hk.congr fun l _ => htable l)
  | query t i point =>
      obtain rfl : t = time := hat
      exact f.found_scaledFlow_of_atRest t s i k point hk
  | rescale t i =>
      obtain rfl : t = time := hat
      exact f.found_resolveScale_of_atRest t s i k hk
  | move m i particle dt =>
      obtain rfl : m.clock.now = time := hat
      rw [Call.apply, PatternStatus.found_eq_of_scaling_eq (f.scaling_move m s i k particle dt)]
      split
      · exact f.found_scaledFlow_of_atRest _ s i k _ hk
      · rfl
  | finish i => exact f.found_finish s i k

theorem AtRest.apply {call : Call f} (hat : call.IsAt time) (h : f.AtRest time s i) :
    f.AtRest time (call.apply s) i :=
  h.congr fun _ hk => found_apply_of_atRest hat fun l hl => h l (hk.trans hl)

/-- Between calls at one time: the prepared patterns whose chains of matches end are at rest. -/
structure IsSteady (time : α) (s : f.States) : Prop where
  idle : ∀ k, (s.get k).isResolving = false
  own : HasOwnScales s
  stored : ∀ k, f.Ends k → (s.get k).step.isPrepared = true → f.AtRest time s k

omit [TableSupply α β γ] [RandomSource α γ] in
theorem IsSteady.at_time (h : IsSteady time s) (hsame : f.SameFactors time time') :
    IsSteady time' s :=
  ⟨h.idle, h.own, fun k hk hp => (h.stored k hk hp).at_time hsame⟩

theorem IsSteady.apply {call : Call f} (hat : call.IsAt time) (h : IsSteady time s) :
    IsSteady time (call.apply s) where
  idle k := by rw [isResolving_apply, h.idle k]
  own := h.own.finds fun k => finds_apply s call k
  stored k hk hp := by
    rcases isPrepared_of_apply hp with hp | ⟨m, rfl, hr⟩
    · exact (h.stored k hk hp).apply hat
    · obtain rfl : m.clock.now = time := hat
      have htable := f.scaling_withTable m s k
      have hfound := fun l => PatternStatus.found_eq_of_scaling_eq (htable l)
      have hrest : f.AtRest m.clock.now (f.resolveScale m.clock.now (f.withTable m s k) k).2 k := by
        apply atRest_resolveScale hk
        · intro l _
          rw [PatternStatus.isResolving_eq_of_scaling_eq (htable l), h.idle l]
        · exact h.own.finds fun l => .inl (hfound l)
        · intro l hl hpl
          rw [PatternStatus.step_eq_of_scaling_eq (htable l)] at hpl
          exact (h.stored l hl hpl).congr fun n _ => hfound n
      exact hrest.congr fun l _ => found_prepare f m s k l hr

theorem hasOwnScales_after (f : Fleet α β γ) (past : List (Call f)) :
    HasOwnScales (f.after past) := by
  induction past with
  | nil =>
      intro k _ hk
      simp [Pattern.start] at hk
  | cons call past ih => exact ih.finds fun k => finds_apply _ call k

theorem isSteady_after {past : List (Call f)}
    (hstored : ∀ k, f.Ends k → ((f.after past).get k).step.isPrepared = true →
      f.AtRest time (f.after past) k) : IsSteady time (f.after past) :=
  ⟨f.isResolving_after past, f.hasOwnScales_after past, hstored⟩

end Calls

end CurrentDrift.Fleet
