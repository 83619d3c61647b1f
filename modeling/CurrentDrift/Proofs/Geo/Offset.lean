import CurrentDrift.Geo.Point
import CurrentDrift.Proofs.Geo.Words

/-! # Adding displacements

Positions are words of 32 bits, and what is added to them stops at the ends of the range. Main
statement: displacements are added coordinate by coordinate, from left to right, and each sum is the
exact one kept inside the range. -/

namespace CurrentDrift

/-- A whole number kept inside the range of words of 32 bits. -/
def saturate (n : Int) : Int := max (-2 ^ 31) (min n (2 ^ 31 - 1))

theorem toInt_clampInt32 (n : Int) : (Scalar.clampInt32 n).toInt = saturate n := by
  have hmax : saturate n ≤ 2 ^ 31 - 1 := max_le (by omega) (min_le_right _ _)
  exact Int32.toInt_ofInt_of_le (le_max_left _ _) (Int.lt_of_le_sub_one hmax)

/-- The sum of whole numbers from left to right, kept inside the range after each of them. -/
def saturatingSum (ns : List Int) : Int := ns.foldl (fun total n => saturate (total + n)) 0

namespace Point

theorem toInt_addWithin (x y : Int32) :
    (addWithin x y).toInt = saturate (x.toInt + y.toInt) :=
  toInt_clampInt32 _

/-- The coordinates of a point moved by a difference of points. -/
theorem toInt_add (p d : Point) :
    (p.add d).long.toInt = saturate (p.long.toInt + d.long.toInt) ∧
      (p.add d).lat.toInt = saturate (p.lat.toInt + d.lat.toInt) :=
  ⟨toInt_addWithin _ _, toInt_addWithin _ _⟩

end Point

namespace Displacement

variable {α : Type} [Scalar α]

/-- The sum of displacements in the order in which they are given. -/
def sum (ds : List (Displacement α)) : Displacement α := ds.foldl add zero

/-- The coordinates of a sum of displacements. -/
theorem toInt_sum (ds : List (Displacement α)) :
    (sum ds).horizontal.long.toInt = saturatingSum (ds.map fun d => d.horizontal.long.toInt) ∧
      (sum ds).horizontal.lat.toInt = saturatingSum (ds.map fun d => d.horizontal.lat.toInt) := by
  rw [saturatingSum, saturatingSum, List.foldl_map, List.foldl_map]
  constructor
  · refine (List.foldl_hom (fun d : Displacement α => d.horizontal.long.toInt) ?_).symm
    exact fun a b => (Point.toInt_add a.horizontal b.horizontal).1.symm
  · refine (List.foldl_hom (fun d : Displacement α => d.horizontal.lat.toInt) ?_).symm
    exact fun a b => (Point.toInt_add a.horizontal b.horizontal).2.symm

end Displacement

/-- One point is the other one moved by displacements: to each coordinate is added the sum of
theirs, kept inside the range. -/
def Point.IsMovedBy {α : Type} (p : Point) (ds : List (Displacement α)) (q : Point) : Prop :=
  q.long.toInt =
      saturate (p.long.toInt + saturatingSum (ds.map fun d => d.horizontal.long.toInt)) ∧
    q.lat.toInt = saturate (p.lat.toInt + saturatingSum (ds.map fun d => d.horizontal.lat.toInt))

theorem Point.isMovedBy_sum {α : Type} [Scalar α] (p : Point) (ds : List (Displacement α)) :
    p.IsMovedBy ds (p.moved (Displacement.sum ds)) := by
  obtain ⟨hlong, hlat⟩ := Displacement.toInt_sum ds
  rw [IsMovedBy, ← hlong, ← hlat]
  exact p.toInt_add _

theorem Point.IsMovedBy.eq {α : Type} [Scalar α] {p q : Point} {ds : List (Displacement α)}
    (h : p.IsMovedBy ds q) : q = p.moved (Displacement.sum ds) := by
  obtain ⟨hlong, hlat⟩ := h
  obtain ⟨hlong', hlat'⟩ := p.isMovedBy_sum ds
  have hx : q.long = (p.moved (Displacement.sum ds)).long := Int32.toInt_inj.mp (by omega)
  have hy : q.lat = (p.moved (Displacement.sum ds)).lat := Int32.toInt_inj.mp (by omega)
  calc q = ⟨q.long, q.lat⟩ := rfl
    _ = p.moved (Displacement.sum ds) := by rw [hx, hy]

end CurrentDrift
