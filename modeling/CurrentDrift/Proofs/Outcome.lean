/-! # Results and faults

What comes next is done with a result only. So a chain of calls has a result exactly if each of them
has one, and else the fault of the first one without. -/

namespace CurrentDrift

variable {ε ε' σ τ : Type} {x : Except ε σ} {e : ε}

theorem bind_eq_ok_iff {g : σ → Except ε τ} {y : τ} :
    (x >>= g) = .ok y ↔ ∃ z, x = .ok z ∧ g z = .ok y := by
  cases x <;> simp [bind, Except.bind]

theorem bind_eq_error_iff {g : σ → Except ε τ} :
    (x >>= g) = .error e ↔ x = .error e ∨ ∃ z, x = .ok z ∧ g z = .error e := by
  cases x <;> simp [bind, Except.bind]

theorem map_eq_ok_iff {g : σ → τ} {y : τ} : x.map g = .ok y ↔ ∃ z, x = .ok z ∧ g z = y := by
  cases x <;> simp [Except.map]

theorem map_eq_error_iff {g : σ → τ} : x.map g = .error e ↔ x = .error e := by
  cases x <;> simp [Except.map]

theorem mapError_eq_ok_iff {g : ε → ε'} {z : σ} : x.mapError g = .ok z ↔ x = .ok z := by
  cases x with
  | error e => exact ⟨nofun, nofun⟩
  | ok z' => exact ⟨fun h => congrArg _ (Except.ok.inj h), fun h => congrArg _ (Except.ok.inj h)⟩

end CurrentDrift
