import CurrentDrift.Proofs.Drift.StoredScale

/-! # What a call changes in other patterns

A call on a pattern may have to work out the scales of others. It reaches them by matches, through
patterns that are not prepared. Main statement: in a pattern that is reached in this way a call
changes what is known about the scale at most, and in all others but its own nothing. -/

namespace CurrentDrift

variable {α β γ : Type}

/-- States with the same base differ in what is known about the scale at most. -/
theorem PatternStatus.eq_of_base_eq {x y : PatternStatus α β γ} (h : y.base = x.base) :
    y = { x with scale := y.scale, isScaled := y.isScaled, lacksScale := y.lacksScale } := by
  simp only [base, Prod.mk.injEq] at h
  obtain ⟨hstep, htable, hresolving, hsupply, hsource⟩ := h
  rw [← hstep, ← htable, ← hresolving, ← hsupply, ← hsource]

namespace Fleet

/-- The pattern that a call is made on. -/
def Call.target {f : Fleet α β γ} : Call f → f.Index
  | .prepare _ i => i
  | .query _ i _ => i
  | .rescale _ i => i
  | .move _ i _ _ => i
  | .finish i => i

/-- The scale of pattern `i` is taken from pattern `j`, which is not prepared. -/
def MatchesOpen {f : Fleet α β γ} (s : f.States) (i j : f.Index) : Prop :=
  f.Matches i j ∧ (s.get j).step.isPrepared = false

/-- A pattern leads to another by matches through patterns that are not prepared, the last one
included. -/
def Reaches {f : Fleet α β γ} (s : f.States) : f.Index → f.Index → Prop :=
  Relation.TransGen (MatchesOpen s)

namespace Reaches

variable {f : Fleet α β γ} {s : f.States} {i j k : f.Index}

theorem not_isPrepared (h : Reaches s i k) : (s.get k).step.isPrepared = false := by
  cases h with
  | single hk => exact hk.2
  | tail _ hk => exact hk.2

theorem congr {s' : f.States} (hs : ∀ k, (s'.get k).step = (s.get k).step)
    (h : Reaches s' i k) : Reaches s i k := by
  apply Relation.TransGen.mono _ _ _ h
  rintro a b ⟨hm, hb⟩
  exact ⟨hm, by rw [← hs]; exact hb⟩

end Reaches

/-! ## One search -/

section Searching

variable {f : Fleet α β γ} {i k : f.Index}

theorem get_withTable_of_ne [TableSupply α β γ] (m : Moment α) (s : f.States) (hk : k ≠ i) :
    (f.withTable m s i).get k = s.get k :=
  States.get_put_of_ne s hk _

variable [Scalar α]

theorem get_resolveScale_of_not_reaches (time : α) (s : f.States) (hk : k ≠ i)
    (h : ¬ Reaches s i k) : (f.resolveScale time s i).2.get k = s.get k := by
  apply f.get_resolveScale_of_notMem time s fun j => j = i ∨ Reaches s i j
  · rintro a b (rfl | ha) hm hb
    · exact .inr (.single ⟨hm, hb⟩)
    · exact .inr (ha.tail ⟨hm, hb⟩)
  · exact .inl rfl
  · rintro (hki | hreach)
    · exact hk hki
    · exact h hreach

theorem get_scaledFlow_of_not_reaches (time : α) (s : f.States) (point : Point) (hk : k ≠ i)
    (h : ¬ Reaches s i k) : (f.scaledFlow time s i point).2.get k = s.get k := by
  rw [scaledFlow_snd]
  split
  · exact get_resolveScale_of_not_reaches time s hk h
  · rfl

variable [TableSupply α β γ]

theorem get_prepare_of_ne (m : Moment α) (s : f.States) (hk : k ≠ i)
    (h : (f.renewal m s i).outcome = .ok ()) : (f.prepare m s i).2.get k =
      (f.resolveScale m.clock.now (f.withTable m s i) i).2.get k := by
  rw [prepare_of_ok f m s i h]
  exact States.get_put_of_ne _ hk _

theorem get_prepare_of_not_reaches (m : Moment α) (s : f.States) (hk : k ≠ i)
    (h : ¬ Reaches s i k) : (f.prepare m s i).2.get k = s.get k := by
  have htable := get_withTable_of_ne m s hk
  cases hr : (f.renewal m s i).outcome with
  | error e => rw [prepare_of_error f m s i hr, htable]
  | ok u =>
      have hreach : ¬ Reaches (f.withTable m s i) i k := by
        intro hreach
        exact h (hreach.congr fun j =>
          PatternStatus.step_eq_of_scaling_eq (f.scaling_withTable m s i j))
      rw [get_prepare_of_ne m s hk hr, get_resolveScale_of_not_reaches _ _ hk hreach, htable]

theorem base_prepare_of_ne (m : Moment α) (s : f.States) (hk : k ≠ i) :
    ((f.prepare m s i).2.get k).base = (s.get k).base := by
  have htable := get_withTable_of_ne m s hk
  cases hr : (f.renewal m s i).outcome with
  | error e => rw [prepare_of_error f m s i hr, htable]
  | ok u => rw [get_prepare_of_ne m s hk hr, base_resolveScale, htable]

end Searching

/-! ## All calls -/

variable [Scalar α] [TableSupply α β γ] [RandomSource α γ] {f : Fleet α β γ}

theorem base_apply_of_ne (s : f.States) (call : Call f) {k : f.Index} (hk : k ≠ call.target) :
    ((call.apply s).get k).base = (s.get k).base := by
  cases call with
  | prepare m i => exact base_prepare_of_ne m s hk
  | query time i point => exact f.base_scaledFlow time s i k point
  | rescale time i => exact f.base_resolveScale time s i k
  | move m i particle dt =>
      change k ≠ i at hk
      rw [Call.apply, f.get_move_of_ne m s hk]
      split
      · exact f.base_scaledFlow _ s i k _
      · rfl
  | finish i => exact congrArg PatternStatus.base (States.get_put_of_ne s hk _)

theorem get_apply_of_not_reaches (s : f.States) (call : Call f) {k : f.Index}
    (hk : k ≠ call.target) (h : ¬ Reaches s call.target k) :
    (call.apply s).get k = s.get k := by
  cases call with
  | prepare m i => exact get_prepare_of_not_reaches m s hk h
  | query time i point => exact get_scaledFlow_of_not_reaches time s point hk h
  | rescale time i => exact get_resolveScale_of_not_reaches time s hk h
  | move m i particle dt =>
      change k ≠ i at hk
      rw [Call.apply, f.get_move_of_ne m s hk]
      split
      · exact get_scaledFlow_of_not_reaches _ s _ hk h
      · rfl
  | finish i => exact States.get_put_of_ne s hk _

/-- In other patterns a call changes the scale and what is known about it at most, and only where it
gets by matches through patterns that are not prepared. It keeps all else of them, and all of those
that are prepared. -/
theorem changes_of_other (s : f.States) (call : Call f) {k : f.Index} (hk : k ≠ call.target) :
    (∃ scale isScaled lacksScale,
        (call.apply s).get k = { s.get k with scale, isScaled, lacksScale }) ∧
      ((call.apply s).get k ≠ s.get k → Reaches s call.target k) ∧
      ((s.get k).step.isPrepared = true → (call.apply s).get k = s.get k) := by
  have hkeep := get_apply_of_not_reaches s call hk
  refine ⟨?_, fun hne => by_contra fun h => hne (hkeep h), fun hp => hkeep fun h => ?_⟩
  · exact ⟨_, _, _, PatternStatus.eq_of_base_eq (base_apply_of_ne s call hk)⟩
  · simp [h.not_isPrepared] at hp

/-- The scale of the third pattern of the chain is worked out while the second one is prepared: the
first one is not reached. -/
theorem changes_of_other_chain :
    let s := chain.after [.prepare (chain.moment 0.0) chain.b]
    let call : Call chain := .rescale 100.0 chain.c
    chain.a ≠ call.target ∧ (call.apply s).get chain.a = s.get chain.a := by
  intro s call
  have htarget : chain.a ≠ call.target := by decide
  have hprepared : (s.get chain.b).step.isPrepared = true :=
    congrArg StepData.isPrepared
      (step_prepare_of_ok chain _ _ chain.b (chain.renewal_ok _ _ _))
  refine ⟨htarget, by_contra fun hne => ?_⟩
  have hreach : Reaches s chain.c chain.a := (changes_of_other s call htarget).2.1 hne
  obtain ⟨j, ⟨hm, hopen⟩, -⟩ := Relation.TransGen.head'_iff.mp hreach
  obtain rfl := Option.some.inj (chain.matched?_c.symm.trans hm)
  simp [hprepared] at hopen

end Fleet

end CurrentDrift
