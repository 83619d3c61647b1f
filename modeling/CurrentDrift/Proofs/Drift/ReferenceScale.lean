import CurrentDrift.Proofs.Drift.History
import Mathlib.Data.Fintype.EquivFin
import Mathlib.Logic.Relation

/-! # The scale that a pattern ought to have

Where no pattern matches itself through others, the rules of a fleet give each pattern one scale at
a time, whatever has been worked out before. Main statement: a query answers by these scales, as
long as what the prepared patterns have stored stems from the present time. -/

namespace CurrentDrift.Fleet

variable {α β γ : Type}

/-! ## The graph of matches -/

/-- The scale of pattern `i` is taken from pattern `j`. -/
def Matches (f : Fleet α β γ) (i j : f.Index) : Prop := f.matched? i = some j

/-- The chain of matches that begins at a pattern comes to an end. -/
inductive Ends (f : Fleet α β γ) : f.Index → Prop where
  | last {i} : f.matched? i = none → Ends f i
  | next {i j} : f.Matches i j → Ends f j → Ends f i

theorem Ends.of_matches {f : Fleet α β γ} {i j : f.Index} (h : f.Ends i) (hm : f.Matches i j) :
    f.Ends j := by
  cases h with
  | last hnone => exact nomatch hnone.symm.trans hm
  | next hm' hj =>
      obtain rfl := Option.some.inj (hm.symm.trans hm')
      exact hj

theorem Ends.of_reflTransGen {f : Fleet α β γ} {i k : f.Index} (h : f.Ends i)
    (hk : Relation.ReflTransGen f.Matches i k) : f.Ends k := by
  induction hk with
  | refl => exact h
  | tail _ hm ih => exact ih.of_matches hm

theorem Ends.acc {f : Fleet α β γ} {i : f.Index} (h : f.Ends i) :
    Acc (fun j i => f.Matches i j) i := by
  induction h with
  | last hnone => exact ⟨_, fun j hj => nomatch hnone.symm.trans hj⟩
  | next hm _ ih =>
      refine ⟨_, fun k hk => ?_⟩
      obtain rfl := Option.some.inj (hm.symm.trans hk)
      exact ih

theorem Ends.not_transGen {f : Fleet α β γ} {i : f.Index} (h : f.Ends i) :
    ¬ Relation.TransGen f.Matches i i := by
  induction h with
  | last hnone =>
      intro hi
      obtain ⟨j, hj, -⟩ := Relation.TransGen.head'_iff.mp hi
      exact nomatch hnone.symm.trans hj
  | next hm _ ih =>
      intro hi
      obtain ⟨k, hk, hki⟩ := Relation.TransGen.head'_iff.mp hi
      obtain rfl := Option.some.inj (hm.symm.trans hk)
      exact ih (Relation.TransGen.tail' hki hm)

/-- There are finitely many patterns, so a chain of matches ends unless it leads into a circle. -/
theorem ends_iff {f : Fleet α β γ} {i : f.Index} : f.Ends i ↔
    ∀ k, Relation.ReflTransGen f.Matches i k → ¬ Relation.TransGen f.Matches k k := by
  refine ⟨fun h k hk => (h.of_reflTransGen hk).not_transGen, fun h => ?_⟩
  let below : f.Index → f.Index → Prop := fun j k =>
    Relation.ReflTransGen f.Matches i k ∧ Relation.TransGen f.Matches k j
  have htrans : IsTrans f.Index below := ⟨fun _ _ _ hab hbc => ⟨hbc.1, hbc.2.trans hab.2⟩⟩
  have hirrefl : Std.Irrefl below := ⟨fun k hk => h k hk.1 hk.2⟩
  have hends : ∀ k, Relation.ReflTransGen f.Matches i k → f.Ends k := by
    intro k
    induction k using (Finite.wellFounded_of_trans_of_irrefl below).induction with
    | _ k ih =>
        intro hk
        cases hj : f.matched? k with
        | none => exact .last hj
        | some j => exact .next hj (ih j ⟨hk, .single hj⟩ (hk.tail hj))
  exact hends i .refl

/-- No pattern matches itself, be it through others. -/
def IsAcyclic (f : Fleet α β γ) : Prop := ∀ i, ¬ Relation.TransGen f.Matches i i

theorem IsAcyclic.ends {f : Fleet α β γ} (h : f.IsAcyclic) (i : f.Index) : f.Ends i :=
  ends_iff.mpr fun k _ => h k

theorem IsAcyclic.wellFounded {f : Fleet α β γ} (h : f.IsAcyclic) :
    WellFounded fun j i => f.Matches i j :=
  ⟨fun i => (h.ends i).acc⟩

/-- An order in which every pattern comes after the one that it matches shows that there is no
circle. -/
theorem isAcyclic_of_rank {f : Fleet α β γ} (rank : f.Index → Nat)
    (h : ∀ i j, f.matched? i = some j → rank j < rank i) : f.IsAcyclic := by
  have hlt : ∀ i j, Relation.TransGen f.Matches i j → rank j < rank i := by
    intro i j hij
    induction hij with
    | single hm => exact h _ _ hm
    | tail _ hm ih => exact (h _ _ hm).trans ih
  intro i hi
  exact (hlt i i hi).false

/-! ## Stored scales

A prepared pattern answers with the scale that it has stored. -/

/-- The first prepared pattern that a pattern leads to by matches: its stored scale decides what the
patterns before it find. -/
inductive RestsOn {f : Fleet α β γ} (s : f.States) : f.Index → f.Index → Prop where
  | stored {i j} : f.Matches i j → (s.get j).step.isPrepared = true → RestsOn s i j
  | through {i j k} : f.Matches i j → (s.get j).step.isPrepared = false → RestsOn s j k →
      RestsOn s i k

theorem RestsOn.isPrepared {f : Fleet α β γ} {s : f.States} {i k : f.Index}
    (h : RestsOn s i k) : (s.get k).step.isPrepared = true := by
  induction h with
  | stored _ hk => exact hk
  | through _ _ _ ih => exact ih

theorem RestsOn.congr {f : Fleet α β γ} {s s' : f.States} {i k : f.Index}
    (hs : ∀ k, (s'.get k).step.isPrepared = (s.get k).step.isPrepared) (h : RestsOn s' i k) :
    RestsOn s i k := by
  induction h with
  | stored hm hk => exact .stored hm (by rw [← hs]; exact hk)
  | through hm hk _ ih => exact .through hm (by rw [← hs]; exact hk) ih

/-! ## The scale by the rules -/

theorem toOption_sampleAt (p : Pattern α β γ) (point : Point) :
    (Scaling.sampleAt p.field point).toOption = (p.rawFlow point).toOption := by
  unfold Scaling.sampleAt Pattern.rawFlow
  cases p.field.sample point <;> rfl

variable [Scalar α]

/-- The scale of a pattern at a time: the hydrology factor if there is one, otherwise what the rule
of the pattern gives, and zero where it gives nothing. A pattern that is matched is taken with its
own scale and its factor at that time. -/
def referenceScale (f : Fleet α β γ) (h : f.IsAcyclic) (time : α) (i : f.Index) : α :=
  match (f.pattern i).hydrology? with
  | some factor => factor
  | none =>
    let mine? := ((f.pattern i).rawFlow (f.pattern i).reference).toOption
    match (f.pattern i).rule with
    | .unscaled => 1.0
    | .toSpeed target =>
      (mine?.bind fun mine => (Scaling.scaleToSpeed target mine).toOption).getD 0.0
    | .toPattern _ =>
      match _hj : f.matched? i with
      | none => 0.0
      | some j =>
        let theirs? := ((f.pattern j).rawFlow (f.pattern i).reference).toOption.map fun raw =>
          (raw.scale (f.referenceScale h time j)).scale ((f.pattern j).timeFactor time)
        (mine?.bind fun mine => theirs?.bind fun theirs =>
          (Scaling.scaleToVelocity mine theirs).toOption).getD 0.0
termination_by h.wellFounded.wrap i
decreasing_by assumption

theorem referenceScale_of_hydrology {f : Fleet α β γ} (h : f.IsAcyclic) (time : α) {i : f.Index}
    {scale : α} (hs : (f.pattern i).hydrology? = some scale) :
    f.referenceScale h time i = scale := by
  rw [referenceScale]
  simp only [hs]

/-- The scale by the rules is what the search computes from the right answer of the pattern that is
matched. -/
theorem referenceScale_eq_factor {f : Fleet α β γ} (h : f.IsAcyclic) (time : α) {i : f.Index}
    (hs : (f.pattern i).hydrology? = none) :
    f.referenceScale h time i =
      (Scaling.factor (f.pattern i).field (f.pattern i).rule (f.pattern i).reference
        ((f.matched? i).map fun j =>
          ((f.pattern j).flowUnder (f.referenceScale h time j) time
            (f.pattern i).reference).map Prod.fst)).toOption.getD 0.0 := by
  have hmine := toOption_sampleAt (f.pattern i) (f.pattern i).reference
  rw [referenceScale]
  simp only [hs]
  cases hr : (f.pattern i).rule with
  | unscaled => rfl
  | toSpeed target =>
      simp only [Scaling.factor, ← hmine]
      cases hm : Scaling.sampleAt (f.pattern i).field (f.pattern i).reference with
      | error e => rfl
      | ok mine =>
          simp only [Except.toOption, Option.bind_some, bind, Except.bind]
          cases Scaling.scaleToSpeed target mine <;> rfl
  | toPattern name =>
      simp only
      split
      · next hj => rw [hj]; rfl
      · next j hj =>
        rw [hj]
        simp only [Scaling.factor, Option.map_some, ← hmine, Pattern.flowUnder]
        cases hm : Scaling.sampleAt (f.pattern i).field (f.pattern i).reference with
        | error e => cases (f.pattern j).rawFlow (f.pattern i).reference <;> rfl
        | ok mine =>
            cases (f.pattern j).rawFlow (f.pattern i).reference with
            | error e => rfl
            | ok raw =>
                simp only [Except.toOption, Except.map, Except.mapError, Option.map_some,
                  Option.bind_some, bind, Except.bind]
                cases Scaling.scaleToVelocity mine _ <;> rfl

theorem referenceScale_eq_ruling {f : Fleet α β γ} (h : f.IsAcyclic) (time : α) (i : f.Index) :
    f.referenceScale h time i =
      (f.ruling i ((f.matched? i).map fun j =>
        ((f.pattern j).flowUnder (f.referenceScale h time j) time
          (f.pattern i).reference).map Prod.fst)).toOption.getD 0.0 := by
  cases hh : (f.pattern i).hydrology? with
  | some scale =>
      rw [referenceScale_of_hydrology h time hh, ruling_of_hydrology f _ hh]
      rfl
  | none =>
      rw [referenceScale_eq_factor h time hh]
      simp only [ruling, hh]

/-! ## Scales that never change -/

/-- Scales that no other pattern has a say in are right at all times once they are worked out. -/
def HasFixedScales {f : Fleet α β γ} (h : f.IsAcyclic) (s : f.States) : Prop :=
  ∀ i, (s.get i).isScaled = true → (f.pattern i).rule.dependsOnOther = false →
    ∀ time, (s.get i).scale = f.referenceScale h time i

theorem scale_eq_of_not_needsScale {f : Fleet α β γ} {h : f.IsAcyclic} {s : f.States}
    (hfix : HasFixedScales h s) {i : f.Index} {time : α}
    (hstored : (s.get i).step.isPrepared = true → (s.get i).scale = f.referenceScale h time i)
    (hn : (s.get i).needsScale (f.pattern i).rule = false) :
    (s.get i).scale = f.referenceScale h time i := by
  cases hp : (s.get i).step.isPrepared with
  | true => exact hstored hp
  | false =>
      simp only [PatternStatus.needsScale, hp, Bool.not_false, Bool.true_and,
        Bool.or_eq_false_iff, Bool.not_eq_false'] at hn
      exact hfix i hn.1 hn.2 time

/-- Whatever is found by the rules, fixed scales stay right. -/
theorem HasFixedScales.finds {f : Fleet α β γ} {h : f.IsAcyclic} {s s' : f.States}
    (hfix : HasFixedScales h s) (hs : ∀ k, f.Finds k (s.get k) (s'.get k)) :
    HasFixedScales h s' := by
  intro k hk hdep time
  rcases hs k with hfound | ⟨other, hother, hfound⟩
  · obtain ⟨hscale, hscaled, -⟩ := PatternStatus.found_eq_iff.mp hfound
    rw [hscaled] at hk
    rw [hscale]
    exact hfix k hk hdep time
  · have hnone := matched?_of_not_dependsOnOther hdep
    have hscale : (s'.get k).scale = _ := congrArg Prod.fst hfound
    rw [hscale, Scaling.fst_found, hother hnone, referenceScale_eq_ruling h, hnone]
    rfl

theorem hasFixedScales_mark {f : Fleet α β γ} {h : f.IsAcyclic} {s : f.States}
    (hfix : HasFixedScales h s) (i : f.Index) : HasFixedScales h (f.mark s i) :=
  hfix.finds fun k => .inl (found_mark f s i k)

/-! ## Scales taken from other patterns -/

/-- The search finds the scale by the rules if no pattern on its way is marked and what it rests on
is right. -/
theorem scale_resolveScale {f : Fleet α β γ} (h : f.IsAcyclic) (time : α) (i : f.Index)
    (s : f.States)
    (hidle : ∀ k, Relation.ReflTransGen f.Matches i k → (s.get k).isResolving = false)
    (hfix : HasFixedScales h s)
    (hrest : ∀ k, RestsOn s i k → (s.get k).scale = f.referenceScale h time k) :
    ((f.resolveScale time s i).2.get i).scale = f.referenceScale h time i := by
  induction i using h.wellFounded.induction generalizing s with
  | _ i ih =>
      cases hh : (f.pattern i).hydrology? with
      | some scale =>
          rw [resolveScale_of_hydrology f time s hh, States.get_put_self,
            referenceScale_of_hydrology h time hh]
          rfl
      | none =>
          -- The answer of the matched pattern is right, be its scale stored or worked out now.
          have hmatched : ∀ j, f.Matches i j →
              ((f.scaledFlow time (f.mark s i) j (f.pattern i).reference).2.get j).scale =
                f.referenceScale h time j := by
            intro j hm
            rw [scaledFlow_snd]
            split
            · next hn =>
              have hopen : (s.get j).step.isPrepared = false := by
                rw [← step_mark f s i j]
                exact PatternStatus.not_isPrepared_of_needsScale hn
              apply ih j hm
              · intro k hk
                have hne : k ≠ i := by
                  rintro rfl
                  exact h k (Relation.TransGen.head' hm hk)
                rw [mark, States.get_put_of_ne _ hne]
                exact hidle k (hk.head hm)
              · exact hasFixedScales_mark hfix i
              · intro k hk
                rw [scale_mark]
                exact hrest k (.through hm hopen (hk.congr fun l => by rw [step_mark]))
            · next hn =>
              apply scale_eq_of_not_needsScale (hasFixedScales_mark hfix i)
              · intro hp
                rw [scale_mark]
                rw [step_mark] at hp
                exact hrest j (.stored hm hp)
              · simpa using hn
          have hask : (f.askMatched time (f.mark s i) i).1 = (f.matched? i).map fun j =>
              ((f.pattern j).flowUnder (f.referenceScale h time j) time
                (f.pattern i).reference).map Prod.fst := by
            cases hj : f.matched? i with
            | none => rw [askMatched_of_none f time _ hj]; rfl
            | some j => rw [askMatched_of_some f time _ hj, scaledFlow_fst, hmatched j hj]; rfl
          rw [scale_resolveScale_of_idle f time s hh (hidle i .refl),
            referenceScale_eq_factor h time hh, ← hask]
          rfl

/-- A query answers by the scale that the rules give if no pattern on its way is marked and what the
scale rests on is right. -/
theorem scale_scaledFlow {f : Fleet α β γ} (h : f.IsAcyclic) (time : α) (i : f.Index)
    (s : f.States) (point : Point)
    (hidle : ∀ k, Relation.ReflTransGen f.Matches i k → (s.get k).isResolving = false)
    (hfix : HasFixedScales h s)
    (hstored : ∀ k, (s.get k).step.isPrepared = true →
      (s.get k).scale = f.referenceScale h time k) :
    ((f.scaledFlow time s i point).2.get i).scale = f.referenceScale h time i := by
  rw [scaledFlow_snd]
  split
  · exact scale_resolveScale h time i s hidle hfix fun k hk => hstored k hk.isPrepared
  · next hn => exact scale_eq_of_not_needsScale hfix (hstored i) (by simpa using hn)

end CurrentDrift.Fleet
