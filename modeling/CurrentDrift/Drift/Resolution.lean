import CurrentDrift.Drift.Fleet

/-!
# Scales in a fleet

The scale of a pattern may depend on the scaled velocity of another one, whose scale may have to be
worked out first. A pattern is marked while its scale is being worked out, and a marked pattern
answers with the scale that it has. So each pattern is entered once at most, and the search ends
even where patterns match each other in a circle.
-/

namespace CurrentDrift.Fleet

variable {α β γ : Type} [Scalar α]

/-- What a question comes to: the answer, the states that are left, and how many questions for
scaled velocities were open at once. -/
structure Answered (f : Fleet α β γ) (δ : Type) where
  answer : δ
  states : f.States
  nesting : Nat

mutual

/-- Asks for the scaled velocity of a pattern at a point, and whether the flow is fast enough for
eddies. The scale is worked out first if need be; if that fails the velocity is scaled to zero. -/
def askFlow (f : Fleet α β γ) (time : α) (s : f.States) (i : f.Index) (point : Point) :
    f.Answered (Except (DriftError α) (Velocity α × Bool)) :=
  let scaled : f.States × Nat :=
    if (s.get i).needsScale (f.pattern i).rule then
      let r := f.askScale time s i
      (r.states, r.nesting)
    else (s, 0)
  ⟨(f.pattern i).flowUnder (scaled.1.get i).scale time point, scaled.1, scaled.2 + 1⟩
termination_by (f.idleCount s, 1)

/-- Asks for the scale of a pattern. -/
def askScale (f : Fleet α β γ) (time : α) (s : f.States) (i : f.Index) :
    f.Answered (Except (DriftError α) α) :=
  match (f.pattern i).hydrology? with
  | some scale => ⟨.ok scale, s.put i ((s.get i).withScale scale), 0⟩
  | none =>
    if h : (s.get i).isResolving = true then ⟨.ok (s.get i).scale, s, 0⟩
    else
      let marked := s.put i { s.get i with isResolving := true }
      have : f.idleCount marked < f.idleCount s := f.idleCount_put_lt s i _ h rfl
      let other : f.Answered (Option (Except (DriftError α) (Velocity α))) :=
        match (f.pattern i).rule with
        | .toPattern name =>
          match f.find? name (some i) with
          | some j =>
            let r := f.askFlow time marked j (f.pattern i).reference
            ⟨some (r.answer.map Prod.fst), r.states, r.nesting⟩
          | none => ⟨none, marked, 0⟩
        | _ => ⟨none, marked, 0⟩
      let outcome := Scaling.factor (f.pattern i).field (f.pattern i).rule (f.pattern i).reference
        other.answer
      let s' := other.states
      ⟨outcome, s'.put i { (s'.get i).withOutcome outcome with isResolving := false },
        other.nesting⟩
termination_by (f.idleCount s, 0)
decreasing_by exact Prod.Lex.left _ _ this

end

/-- The scaled velocity of a pattern at a point, and whether the flow is fast enough for eddies. -/
def scaledFlow (f : Fleet α β γ) (time : α) (s : f.States) (i : f.Index) (point : Point) :
    Except (DriftError α) (Velocity α × Bool) × f.States :=
  let r := f.askFlow time s i point
  (r.answer, r.states)

/-- Works out the scale of a pattern. -/
def resolveScale (f : Fleet α β γ) (time : α) (s : f.States) (i : f.Index) :
    Except (DriftError α) α × f.States :=
  let r := f.askScale time s i
  (r.answer, r.states)

end CurrentDrift.Fleet
