import CurrentDrift.Proofs.Drift.History

/-! # How deep queries nest

Working out a scale may ask another pattern for its scaled velocity, which may have its scale worked
out first, and so on. Main statement: the number of queries that are open at once is at most one
more than that of the patterns without a mark, and no call changes the marks.

The same rules are also followed on a stack that has room for so many open queries only: there is an
answer exactly if the number of open queries does not exceed the room. -/

namespace CurrentDrift.Fleet

variable {α β γ : Type} [Scalar α]

/-! ## Queries on a bounded stack -/

/-- A query of a pattern at a point. There is no answer where the stack is too small. -/
abbrev BoundedQuery (f : Fleet α β γ) : Type :=
  f.States → f.Index → Point → Option (Except (DriftError α) (Velocity α × Bool) × f.States)

/-- Works out the scale of a pattern; the pattern that it matches is asked by `ask`. -/
def resolveScaleBy (f : Fleet α β γ) (ask : f.BoundedQuery) (s : f.States) (i : f.Index) :
    Option (Except (DriftError α) α × f.States) :=
  match (f.pattern i).hydrology? with
  | some scale => some (.ok scale, s.put i ((s.get i).withScale scale))
  | none =>
    if (s.get i).isResolving then some (.ok (s.get i).scale, s)
    else
      let asked? : Option (Option (Except (DriftError α) (Velocity α)) × f.States) :=
        match f.matched? i with
        | some j => (ask (f.mark s i) j (f.pattern i).reference).map fun (found, s') =>
            (some (found.map Prod.fst), s')
        | none => some (none, f.mark s i)
      asked?.map fun (other, s') =>
        let outcome :=
          Scaling.factor (f.pattern i).field (f.pattern i).rule (f.pattern i).reference other
        (outcome, s'.put i { (s'.get i).withOutcome outcome with isResolving := false })

/-- The scaled velocity of a pattern at a point, on a stack with room for so many queries, this one
included. -/
def scaledFlowWithin (f : Fleet α β γ) (time : α) : Nat → f.BoundedQuery
  | 0, _, _, _ => none
  | room + 1, s, i, point =>
    let states? :=
      if (s.get i).needsScale (f.pattern i).rule then
        (f.resolveScaleBy (f.scaledFlowWithin time room) s i).map Prod.snd
      else some s
    states?.map fun s' => ((f.pattern i).flowUnder (s'.get i).scale time point, s')

/-- Whether the search for a scale has room is decided by the query of the matched pattern. -/
theorem resolveScaleBy_eq (f : Fleet α β γ) (time : α) {ask : f.BoundedQuery} {room : Nat}
    (h : ∀ s i point, ask s i point = if (f.askFlow time s i point).nesting ≤ room
      then some (f.scaledFlow time s i point) else none)
    (s : f.States) (i : f.Index) :
    f.resolveScaleBy ask s i =
      if (f.askScale time s i).nesting ≤ room then some (f.resolveScale time s i) else none := by
  unfold resolveScaleBy
  cases hh : (f.pattern i).hydrology? with
  | some scale =>
      rw [resolveScale_of_hydrology f time s hh, askScale_of_hydrology f time s hh,
        if_pos (Nat.zero_le room)]
  | none =>
      cases hi : (s.get i).isResolving with
      | true =>
          rw [resolveScale_of_isResolving f time s hh hi, askScale_of_isResolving f time s hh hi,
            if_pos (Nat.zero_le room)]
          rfl
      | false =>
          rw [resolveScale_of_idle f time s hh hi, askScale_of_idle f time s hh hi, outcome]
          cases hj : f.matched? i with
          | none =>
              rw [askMatched_of_none f time _ hj, if_pos (Nat.zero_le room)]
              rfl
          | some j =>
              rw [askMatched_of_some f time _ hj]
              simp only [h, Bool.false_eq_true, if_false]
              split <;> rfl

/-- There is an answer exactly if there is room for all queries that are open at once, and then it
is the one that there is without a bound. -/
theorem scaledFlowWithin_eq (f : Fleet α β γ) (time : α) (room : Nat) (s : f.States)
    (i : f.Index) (point : Point) :
    f.scaledFlowWithin time room s i point =
      if (f.askFlow time s i point).nesting ≤ room then some (f.scaledFlow time s i point)
      else none := by
  induction room generalizing s i point with
  | zero => rw [askFlow_nesting, if_neg (Nat.not_succ_le_zero _), scaledFlowWithin]
  | succ room ih =>
      have hstates : (if (s.get i).needsScale (f.pattern i).rule then
          (f.resolveScaleBy (f.scaledFlowWithin time room) s i).map Prod.snd else some s) =
            if (f.askFlow time s i point).nesting ≤ room + 1 then
              some (f.scaledFlow time s i point).2 else none := by
        rw [f.resolveScaleBy_eq time ih, scaledFlow_snd, askFlow_nesting]
        split
        · simp only [Nat.add_le_add_iff_right]
          split <;> rfl
        · rw [if_pos (Nat.le_add_left 1 room)]
      rw [scaledFlowWithin, hstates]
      split
      · rw [Option.map_some, ← scaledFlow_fst]
      · rfl

/-! ## The bound -/

/-- Every query that is open has marked a pattern, but for the last one. -/
theorem nesting_askScale_le (f : Fleet α β γ) (time : α) (s : f.States) (i : f.Index) :
    (f.askScale time s i).nesting ≤ f.idleCount s := by
  induction s, i using f.resolve_induction with
  | step s i ih =>
      cases hh : (f.pattern i).hydrology? with
      | some scale =>
          rw [askScale_of_hydrology f time s hh]
          exact Nat.zero_le _
      | none =>
          cases hi : (s.get i).isResolving with
          | true =>
              rw [askScale_of_isResolving f time s hh hi]
              exact Nat.zero_le _
          | false =>
              rw [askScale_of_idle f time s hh hi]
              cases f.matched? i with
              | none => exact Nat.zero_le _
              | some j =>
                  have hmark := f.idleCount_mark_lt s hi
                  have hj := ih hi j
                  dsimp only
                  rw [askFlow_nesting]
                  split <;> omega

theorem nesting_askFlow_le (f : Fleet α β γ) (time : α) (s : f.States) (i : f.Index)
    (point : Point) : (f.askFlow time s i point).nesting ≤ f.idleCount s + 1 := by
  have hscale := f.nesting_askScale_le time s i
  rw [askFlow_nesting]
  split <;> omega

variable [TableSupply α β γ] [RandomSource α γ]

/-- From any states, with whatever patterns marked, a query has at most one query more open at once
than there are patterns without a mark, and the search for a scale, which is itself the one more, at
most as many; so on a stack with that room they have the answers that they have without a bound.
Afterwards the marks are what they were, also if there was no answer to be found. -/
theorem nesting_le_idleCount_succ (f : Fleet α β γ) (s : f.States) :
    (∀ time i point, (f.askFlow time s i point).nesting ≤ f.idleCount s + 1 ∧
      f.scaledFlowWithin time (f.idleCount s + 1) s i point =
        some (f.scaledFlow time s i point)) ∧
    (∀ time i, (f.askScale time s i).nesting ≤ f.idleCount s ∧
      f.resolveScaleBy (f.scaledFlowWithin time (f.idleCount s)) s i =
        some (f.resolveScale time s i)) ∧
    ∀ (call : Call f) (i : f.Index),
      ((call.apply s).get i).isResolving = (s.get i).isResolving := by
  refine ⟨fun time i point => ?_, fun time i => ?_, fun call i => isResolving_apply s call i⟩
  · have hnesting := f.nesting_askFlow_le time s i point
    exact ⟨hnesting, by rw [scaledFlowWithin_eq, if_pos hnesting]⟩
  · have hnesting := f.nesting_askScale_le time s i
    refine ⟨hnesting, ?_⟩
    rw [f.resolveScaleBy_eq time (f.scaledFlowWithin_eq time (f.idleCount s)), if_pos hnesting]

end CurrentDrift.Fleet
