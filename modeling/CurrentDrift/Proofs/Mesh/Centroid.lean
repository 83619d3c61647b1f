import CurrentDrift.Proofs.Mesh.Orientation
import Mathlib.Algebra.Order.Ring.Abs
import Mathlib.Tactic.FinCases
import Mathlib.Tactic.LinearCombination

/-! # Centroids in whole microdegrees

The coordinates of a centroid are cut off to whole microdegrees, which moves it by less than one of
them in each direction. Main statement: a triangle covers its own centroid exactly if that takes
away no more than the area at any of its sides. A triangle that is thinner than that may miss it. -/

namespace CurrentDrift

/-! ## Means without fractions -/

namespace Mesh

theorem abs_tmod_three_le (n : Int) : |n.tmod 3| ≤ 2 := by
  have h : (n.tmod 3).natAbs = n.natAbs % 3 := Int.natAbs_tmod n 3
  rw [abs_le]
  omega

/-- The mean of three coordinates is a coordinate again. -/
theorem toInt_mean (x y z : Int32) :
    (mean x y z).toInt = (x.toInt + y.toInt + z.toInt).tdiv 3 := by
  have hx := toInt_mem_range x
  have hy := toInt_mem_range y
  have hz := toInt_mem_range z
  apply toInt_ofInt_tdiv <;> omega

theorem three_mul_toInt_mean (x y z : Int32) :
    3 * (mean x y z).toInt =
      x.toInt + y.toInt + z.toInt - (x.toInt + y.toInt + z.toInt).tmod 3 := by
  rw [toInt_mean, eq_sub_iff_add_eq]
  exact Int.mul_tdiv_add_tmod _ 3

/-! ## Centroids -/

variable {α : Type}

/-- What the division by three for the centroid leaves over of the sum of the longitudes. -/
def leftoverLong (m : Mesh α) (t : m.Index) : Int :=
  (∑ side : Fin 3, (m.corner t side).long.toInt).tmod 3

/-- What the division by three for the centroid leaves over of the sum of the latitudes. -/
def leftoverLat (m : Mesh α) (t : m.Index) : Int :=
  (∑ side : Fin 3, (m.corner t side).lat.toInt).tmod 3

/-- How far a side leads to the east. -/
def eastward (m : Mesh α) (t : m.Index) (side : Fin 3) : Int :=
  (m.target t side).long.toInt - (m.corner t side).long.toInt

/-- How far a side leads to the north. -/
def northward (m : Mesh α) (t : m.Index) (side : Fin 3) : Int :=
  (m.target t side).lat.toInt - (m.corner t side).lat.toInt

/-- What cutting off takes away from three times the orientation of the centroid at a side. -/
def cutOff (m : Mesh α) (t : m.Index) (side : Fin 3) : Int :=
  m.eastward t side * m.leftoverLat t - m.northward t side * m.leftoverLong t

theorem abs_cutOff_le (m : Mesh α) (t : m.Index) (side : Fin 3) :
    |m.cutOff t side| ≤ 2 * (|m.eastward t side| + |m.northward t side|) := by
  calc |m.cutOff t side|
      ≤ |m.eastward t side * m.leftoverLat t| + |m.northward t side * m.leftoverLong t| :=
        abs_sub _ _
    _ = |m.eastward t side| * |m.leftoverLat t| + |m.northward t side| * |m.leftoverLong t| := by
        rw [abs_mul, abs_mul]
    _ ≤ |m.eastward t side| * 2 + |m.northward t side| * 2 := by
        gcongr
        · exact abs_tmod_three_le _
        · exact abs_tmod_three_le _
    _ = 2 * (|m.eastward t side| + |m.northward t side|) := by ring

theorem orientation_eq (m : Mesh α) (t : m.Index) (side : Fin 3) (p : Point) :
    m.orientation t side p =
      m.eastward t side * (p.lat.toInt - (m.corner t side).lat.toInt) -
        m.northward t side * (p.long.toInt - (m.corner t side).long.toInt) :=
  rfl

/-- Of the three corners, only the one that a side does not touch is off its line. -/
theorem sum_orientation_corner (m : Mesh α) (t : m.Index) (side : Fin 3) :
    ∑ corner : Fin 3, m.orientation t side (m.corner t corner) = m.doubleArea t := by
  simp only [doubleArea, orientation_eq, eastward, northward, Fin.sum_univ_three]
  -- The cyclic sum of the area reads the same from every side.
  fin_cases side <;> simp <;> ring

/-- The exact centroid has a third of the area at every side. -/
theorem three_mul_orientation_centroid (m : Mesh α) (t : m.Index) (side : Fin 3) :
    3 * m.orientation t side (m.centroid t) = m.doubleArea t - m.cutOff t side := by
  have hlong : 3 * (m.centroid t).long.toInt = (m.corner t 0).long.toInt +
      (m.corner t 1).long.toInt + (m.corner t 2).long.toInt - m.leftoverLong t := by
    rw [leftoverLong, Fin.sum_univ_three]
    exact three_mul_toInt_mean _ _ _
  have hlat : 3 * (m.centroid t).lat.toInt = (m.corner t 0).lat.toInt +
      (m.corner t 1).lat.toInt + (m.corner t 2).lat.toInt - m.leftoverLat t := by
    rw [leftoverLat, Fin.sum_univ_three]
    exact three_mul_toInt_mean _ _ _
  rw [← m.sum_orientation_corner t side, Fin.sum_univ_three, cutOff]
  simp only [orientation_eq]
  linear_combination m.eastward t side * hlat - m.northward t side * hlong

/-- Wherever the corners lie, the orientations of the centroid are words. -/
theorem isWord_orientation_centroid (m : Mesh α) (t : m.Index) (side : Fin 3) :
    IsWord (m.orientation t side (m.centroid t)) := by
  have hthird := m.three_mul_orientation_centroid t side
  have harea : |m.doubleArea t| ≤ (2 ^ 32 - 1) * (2 ^ 32 - 1) := by
    have hin : ∀ p : Point, Rect.contains ⟨Int32.minValue, Int32.minValue, Int32.maxValue,
        Int32.maxValue⟩ p = true :=
      fun p => Rect.contains_iff.mpr ⟨toInt_mem_range p.long, toInt_mem_range p.lat⟩
    rw [doubleArea_eq_orientation]
    exact Point.abs_cross_le_of_contains (hin _) (hin _) (hin _)
  have hcut : |m.cutOff t side| ≤ 4 * (2 ^ 32 - 1) := by
    have heast : |m.eastward t side| ≤ 2 ^ 32 - 1 := abs_toInt_sub_le _ _
    have hnorth : |m.northward t side| ≤ 2 ^ 32 - 1 := abs_toInt_sub_le _ _
    exact (m.abs_cutOff_le t side).trans (by omega)
  rw [abs_le] at harea hcut
  rw [isWord_iff]
  omega

/-- A mesh works out exactly whether a triangle contains its centroid. -/
theorem contains_eq_covers_centroid (m : Mesh α) (t : m.Index) :
    m.contains t (m.centroid t) = m.covers t (m.centroid t) :=
  contains_eq_covers_of_toInt_turn fun side =>
    toInt_turn_of_isWord (m.isWord_orientation_centroid t side)

/-- A triangle covers its centroid exactly if cutting off the fractions takes no more than twice its
area away at any side, and that is also what the mesh works out. It is so for a counterclockwise
triangle if there are no fractions, and for every triangle with twice an area of at least twice the
distance along each of its sides, in longitude and latitude. -/
theorem covers_centroid_iff (m : Mesh α) (t : m.Index) :
    m.contains t (m.centroid t) = m.covers t (m.centroid t) ∧
    (m.covers t (m.centroid t) = true ↔ ∀ side, m.cutOff t side ≤ m.doubleArea t) ∧
    (0 < m.doubleArea t → m.leftoverLong t = 0 → m.leftoverLat t = 0 →
      m.covers t (m.centroid t) = true) ∧
    ((∀ side, 2 * (|m.eastward t side| + |m.northward t side|) ≤ m.doubleArea t) →
      m.covers t (m.centroid t) = true) := by
  have hiff : m.covers t (m.centroid t) = true ↔ ∀ side, m.cutOff t side ≤ m.doubleArea t := by
    rw [covers_iff]
    refine forall_congr' fun side => ?_
    have := m.three_mul_orientation_centroid t side
    omega
  refine ⟨m.contains_eq_covers_centroid t, hiff, fun harea hlong hlat => hiff.mpr fun side => ?_,
    fun h => hiff.mpr fun side => ?_⟩
  · rw [cutOff, hlong, hlat]
    omega
  · exact (le_abs_self _).trans ((m.abs_cutOff_le t side).trans (h side))

/-- A triangle west of the meridian and south of the equator, where cutting off moves the centroid
to the north-east. -/
def southwestern : Mesh Float := .single ⟨-9, -8⟩ ⟨-2, -7⟩ ⟨-6, -1⟩

theorem covers_centroid_southwestern :
    (∀ side, 2 * (|southwestern.eastward ⟨0, by decide⟩ side| +
        |southwestern.northward ⟨0, by decide⟩ side|) ≤
      southwestern.doubleArea ⟨0, by decide⟩) ∧
      southwestern.centroid ⟨0, by decide⟩ = ⟨-5, -5⟩ ∧
      southwestern.covers ⟨0, by decide⟩ ⟨-5, -5⟩ = true ∧
      southwestern.contains ⟨0, by decide⟩ ⟨-5, -5⟩ = true := by
  have hwide : ∀ side, 2 * (|southwestern.eastward ⟨0, by decide⟩ side| +
      |southwestern.northward ⟨0, by decide⟩ side|) ≤
        southwestern.doubleArea ⟨0, by decide⟩ := by
    decide +kernel
  have hcentroid : southwestern.centroid ⟨0, by decide⟩ = ⟨-5, -5⟩ := by decide +kernel
  obtain ⟨hsame, -, -, hcovers⟩ := covers_centroid_iff southwestern ⟨0, by decide⟩
  rw [hcovers hwide, hcentroid] at hsame
  exact ⟨hwide, hcentroid, hcentroid ▸ hcovers hwide, hsame⟩

/-- A triangle so thin that no whole microdegrees lie in it but its corners. -/
def sliver : Mesh Float := .single ⟨0, 0⟩ ⟨100, 1⟩ ⟨99, 1⟩

theorem eq_corner_of_covers_sliver {p : Point} (h : sliver.covers ⟨0, by decide⟩ p = true) :
    p = ⟨0, 0⟩ ∨ p = ⟨100, 1⟩ ∨ p = ⟨99, 1⟩ := by
  obtain ⟨long, lat⟩ := p
  have hweight := covers_iff.mp h
  have h0 : 0 ≤ (100 - 0) * (lat.toInt - 0) - (1 - 0) * (long.toInt - 0) := hweight 0
  have h1 : 0 ≤ (99 - 100) * (lat.toInt - 1) - (1 - 1) * (long.toInt - 100) := hweight 1
  have h2 : 0 ≤ (0 - 99) * (lat.toInt - 1) - (0 - 1) * (long.toInt - 99) := hweight 2
  simp only [Point.mk.injEq, ← Int32.toInt_inj]
  change (long.toInt = 0 ∧ lat.toInt = 0) ∨ (long.toInt = 100 ∧ lat.toInt = 1) ∨
    (long.toInt = 99 ∧ lat.toInt = 1)
  omega

/-- A counterclockwise triangle need not cover its centroid, and no other rounding would help: this
one covers its corners only. -/
theorem not_covers_centroid_sliver :
    ofTriangles sliver.vertices sliver.triangles sliver.velocities = .ok sliver ∧
      0 < sliver.doubleArea ⟨0, by decide⟩ ∧
      sliver.covers ⟨0, by decide⟩ (sliver.centroid ⟨0, by decide⟩) = false ∧
      sliver.contains ⟨0, by decide⟩ (sliver.centroid ⟨0, by decide⟩) = false ∧
      ∀ p, sliver.covers ⟨0, by decide⟩ p = true → p = ⟨0, 0⟩ ∨ p = ⟨100, 1⟩ ∨ p = ⟨99, 1⟩ := by
  refine ⟨ofTriangles_self rfl rfl, by decide +kernel, by decide +kernel, by decide +kernel, ?_⟩
  exact fun p => eq_corner_of_covers_sliver

end Mesh

end CurrentDrift
