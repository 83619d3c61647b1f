import CurrentDrift.Mesh.Basic
import CurrentDrift.Proofs.Geo.Rect
import Mathlib.Algebra.Order.Ring.Abs
import Mathlib.Tactic.Linarith
import Mathlib.Tactic.Ring

/-! # Cross products on words

The side of a line that a point is on is the sign of a cross product, which is worked out on words
of 64 bits. Without checks the words wrap around, and with checks there is no value as soon as a
step leaves the range. Main statements: where there is a value, both are the exact cross product;
and there is one if the three points lie in a box whose area is a word, or if the first two lie in a
box that is together no wider and higher than half the range of coordinates. -/

namespace CurrentDrift

namespace Point

/-! ## The exact cross product -/

/-- Twice the signed area of the triangle `a b p`, as a whole number. -/
def cross (a b p : Point) : Int :=
  (b.long.toInt - a.long.toInt) * (p.lat.toInt - a.lat.toInt) -
    (b.lat.toInt - a.lat.toInt) * (p.long.toInt - a.long.toInt)

theorem cross_add (a b c p : Point) :
    cross a b p + cross b c p + cross c a p = cross a b c := by
  unfold cross
  ring

/-- The weight of each corner is the orientation of the point at the side that the corner does not
touch. -/
theorem cross_add_mul_long (a b c p : Point) :
    (cross a b p + cross b c p + cross c a p) * p.long.toInt =
      cross a b p * c.long.toInt + cross b c p * a.long.toInt + cross c a p * b.long.toInt := by
  unfold cross
  ring

theorem cross_add_mul_lat (a b c p : Point) :
    (cross a b p + cross b c p + cross c a p) * p.lat.toInt =
      cross a b p * c.lat.toInt + cross b c p * a.lat.toInt + cross c a p * b.lat.toInt := by
  unfold cross
  ring

/-! ## Words that wrap around -/

/-- Whatever wraps around on the way, what comes out are the last 64 bits of the exact number. -/
theorem turn_eq_ofInt_cross (a b p : Point) : turn a b p = Int64.ofInt (cross a b p) := by
  simp only [turn, cross, Int64.ofInt_sub, Int64.ofInt_mul, Int64.ofInt_int32ToInt]

theorem toInt_turn_of_isWord {a b p : Point} (h : IsWord (cross a b p)) :
    (turn a b p).toInt = cross a b p := by
  rw [turn_eq_ofInt_cross, toInt_ofInt_of_isWord h]

/-- `turn` over checked arithmetic, step by step. -/
def checkedCross (a b p : Point) : Option Int64 := do
  let east ← Checked.sub b.long.toInt64 a.long.toInt64
  let rise ← Checked.sub p.lat.toInt64 a.lat.toInt64
  let left ← Checked.mul east rise
  let north ← Checked.sub b.lat.toInt64 a.lat.toInt64
  let run ← Checked.sub p.long.toInt64 a.long.toInt64
  let right ← Checked.mul north run
  Checked.sub left right

/-- Only the two products and their difference can leave the range. -/
theorem checkedCross_of_isWord {a b p : Point}
    (hleft : IsWord ((b.long.toInt - a.long.toInt) * (p.lat.toInt - a.lat.toInt)))
    (hright : IsWord ((b.lat.toInt - a.lat.toInt) * (p.long.toInt - a.long.toInt)))
    (h : IsWord (cross a b p)) : ∃ c, checkedCross a b p = some c ∧ c.toInt = cross a b p := by
  obtain ⟨east, heast, heast'⟩ := Checked.sub_toInt64 b.long a.long
  obtain ⟨rise, hrise, hrise'⟩ := Checked.sub_toInt64 p.lat a.lat
  obtain ⟨north, hnorth, hnorth'⟩ := Checked.sub_toInt64 b.lat a.lat
  obtain ⟨run, hrun, hrun'⟩ := Checked.sub_toInt64 p.long a.long
  rw [← heast', ← hrise'] at hleft
  rw [← hnorth', ← hrun'] at hright
  obtain ⟨left, hleft, hleft'⟩ := Checked.mul_of_isWord hleft
  obtain ⟨right, hright, hright'⟩ := Checked.mul_of_isWord hright
  have hcross : cross a b p = left.toInt - right.toInt := by
    rw [hleft', hright', heast', hrise', hnorth', hrun', cross]
  rw [hcross] at h ⊢
  obtain ⟨c, hc, hc'⟩ := Checked.sub_of_isWord h
  refine ⟨c, ?_, hc'⟩
  simp only [checkedCross, heast, hrise, hleft, hnorth, hrun, hright, hc, Option.bind_eq_bind,
    Option.bind_some]

/-- Where no step leaves the range, nothing has wrapped around. -/
theorem checkedCross_eq_some {a b p : Point} {c : Int64} (h : checkedCross a b p = some c) :
    c = turn a b p ∧ c.toInt = cross a b p := by
  simp only [checkedCross, Option.bind_eq_bind, Option.bind_eq_some_iff] at h
  obtain ⟨east, heast, rise, hrise, left, hleft, north, hnorth, run, hrun, right, hright, hc⟩ := h
  obtain ⟨rfl, heast⟩ := Checked.sub_eq_some heast
  obtain ⟨rfl, hrise⟩ := Checked.sub_eq_some hrise
  obtain ⟨rfl, hnorth⟩ := Checked.sub_eq_some hnorth
  obtain ⟨rfl, hrun⟩ := Checked.sub_eq_some hrun
  obtain ⟨rfl, hleft⟩ := Checked.mul_eq_some hleft
  obtain ⟨rfl, hright⟩ := Checked.mul_eq_some hright
  obtain ⟨rfl, hc⟩ := Checked.sub_eq_some hc
  refine ⟨by rw [turn], ?_⟩
  rw [hc, hleft, hright, heast, hrise, hnorth, hrun, cross]
  simp only [Int32.toInt_toInt64]

end Point

/-! ## Points in a box -/

/-- If two numbers do not have opposite signs, their difference is no greater than both. -/
theorem abs_sub_le_of_mul_nonneg {x y M : Int} (h : 0 ≤ x * y) (hx : |x| ≤ M) (hy : |y| ≤ M) :
    |x - y| ≤ M := by
  rw [abs_le] at *
  rcases mul_nonneg_iff.mp h with ⟨hx0, hy0⟩ | ⟨hx0, hy0⟩ <;> constructor <;> omega

theorem abs_mul_sub_mul_le_of_add_le {u v w z W H : Int} (huz : |u| + |z| ≤ W) (hv : |v| ≤ H)
    (hw : |w| ≤ H) : |u * v - w * z| ≤ W * H := by
  have hH : 0 ≤ H := (abs_nonneg v).trans hv
  calc |u * v - w * z| ≤ |u * v| + |w * z| := abs_sub _ _
    _ = |u| * |v| + |z| * |w| := by rw [abs_mul, abs_mul, mul_comm |w|]
    _ ≤ |u| * H + |z| * H := by gcongr
    _ = (|u| + |z|) * H := by ring
    _ ≤ W * H := by gcongr

theorem abs_add_abs_eq_of_mul_nonpos {u z : Int} (h : u * z ≤ 0) : |u| + |z| = |u - z| := by
  rw [← abs_neg z, sub_eq_add_neg, eq_comm, abs_add_eq_add_abs_iff]
  rcases mul_nonpos_iff.mp h with ⟨hu, hz⟩ | ⟨hu, hz⟩
  · exact .inl ⟨hu, by omega⟩
  · exact .inr ⟨hu, by omega⟩

/-- Twice the area of a triangle with its corners in a box is at most the area of the box. The sides
of the triangle from one corner are given here. -/
theorem abs_mul_sub_mul_le {u v w z W H : Int} (hu : |u| ≤ W) (hv : |v| ≤ H) (hw : |w| ≤ H)
    (hz : |z| ≤ W) (huz : |u - z| ≤ W) (hvw : |v - w| ≤ H) : |u * v - w * z| ≤ W * H := by
  have hW : 0 ≤ W := (abs_nonneg u).trans hu
  have hH : 0 ≤ H := (abs_nonneg v).trans hv
  -- Either the corner lies between the other two in one direction, so that the two sides share the
  -- width or the height of the box, or both products have the same sign.
  by_cases hx : u * z ≤ 0
  · exact abs_mul_sub_mul_le_of_add_le ((abs_add_abs_eq_of_mul_nonpos hx).trans_le huz) hv hw
  · by_cases hy : v * w ≤ 0
    · rw [mul_comm u v, mul_comm w z, mul_comm W H]
      exact abs_mul_sub_mul_le_of_add_le ((abs_add_abs_eq_of_mul_nonpos hy).trans_le hvw) hu hz
    · have hsign : 0 ≤ u * v * (w * z) := by
        calc 0 ≤ u * z * (v * w) := mul_nonneg (le_of_not_ge hx) (le_of_not_ge hy)
          _ = u * v * (w * z) := by ring
      apply abs_sub_le_of_mul_nonneg hsign
      · rw [abs_mul]
        gcongr
      · rw [abs_mul, mul_comm W H]
        gcongr

namespace Point

variable {r : Rect} {a b p : Point}

/-- Inside a box the cross product is at most the area of the box. -/
theorem abs_cross_le_of_contains (ha : r.contains a = true) (hb : r.contains b = true)
    (hp : r.contains p = true) : |cross a b p| ≤ r.width * r.height := by
  apply abs_mul_sub_mul_le (Rect.abs_sub_long_le hb ha) (Rect.abs_sub_lat_le hp ha)
    (Rect.abs_sub_lat_le hb ha) (Rect.abs_sub_long_le hp ha)
  · simpa using Rect.abs_sub_long_le hb hp
  · simpa using Rect.abs_sub_lat_le hp hb

/-- Inside a box whose area is a word, every step of the cross product is a word. -/
theorem checkedCross_of_contains (ha : r.contains a = true) (hb : r.contains b = true)
    (hp : r.contains p = true) (hsize : r.width * r.height ≤ 2 ^ 63 - 1) :
    ∃ c, checkedCross a b p = some c := by
  have heast := Rect.abs_sub_long_le hb ha
  have hrise := Rect.abs_sub_lat_le hp ha
  have hnorth := Rect.abs_sub_lat_le hb ha
  have hrun := Rect.abs_sub_long_le hp ha
  have hW : 0 ≤ r.width := (abs_nonneg _).trans heast
  have hH : 0 ≤ r.height := (abs_nonneg _).trans hrise
  have hleft : |(b.long.toInt - a.long.toInt) * (p.lat.toInt - a.lat.toInt)| ≤
      r.width * r.height := by
    rw [abs_mul]
    gcongr
  have hright : |(b.lat.toInt - a.lat.toInt) * (p.long.toInt - a.long.toInt)| ≤
      r.width * r.height := by
    rw [abs_mul, mul_comm r.width]
    gcongr
  obtain ⟨c, hc, -⟩ := checkedCross_of_isWord (isWord_of_abs_le (hleft.trans hsize))
    (isWord_of_abs_le (hright.trans hsize))
    (isWord_of_abs_le ((abs_cross_le_of_contains ha hb hp).trans hsize))
  exact ⟨c, hc⟩

/-- If a box is together no wider and higher than half the range of coordinates, every step of the
cross product is a word for the sides in the box and all points. -/
theorem checkedCross_of_width_add_height_le (ha : r.contains a = true) (hb : r.contains b = true)
    (hsize : r.width + r.height ≤ 2 ^ 31) (p : Point) : ∃ c, checkedCross a b p = some c := by
  have heast := Rect.abs_sub_long_le hb ha
  have hnorth := Rect.abs_sub_lat_le hb ha
  have hW : 0 ≤ r.width := (abs_nonneg _).trans heast
  have hH : 0 ≤ r.height := (abs_nonneg _).trans hnorth
  have hleft : |(b.long.toInt - a.long.toInt) * (p.lat.toInt - a.lat.toInt)| ≤
      r.width * (2 ^ 32 - 1) := by
    rw [abs_mul]
    gcongr
    exact abs_toInt_sub_le _ _
  have hright : |(b.lat.toInt - a.lat.toInt) * (p.long.toInt - a.long.toInt)| ≤
      r.height * (2 ^ 32 - 1) := by
    rw [abs_mul]
    gcongr
    exact abs_toInt_sub_le _ _
  have hcross : |cross a b p| ≤ (r.width + r.height) * (2 ^ 32 - 1) := by
    calc |cross a b p| ≤ _ := abs_sub _ _
      _ ≤ r.width * (2 ^ 32 - 1) + r.height * (2 ^ 32 - 1) := add_le_add hleft hright
      _ = (r.width + r.height) * (2 ^ 32 - 1) := by ring
  obtain ⟨c, hc, -⟩ := checkedCross_of_isWord (isWord_of_abs_le (hleft.trans (by omega)))
    (isWord_of_abs_le (hright.trans (by omega))) (isWord_of_abs_le (hcross.trans (by omega)))
  exact ⟨c, hc⟩

/-- In a box as large as the whole range, a product leaves it. -/
example : checkedCross ⟨-2147483648, -2147483648⟩ ⟨2147483647, -2147483648⟩
    ⟨-2147483648, 2147483647⟩ = none := by
  decide +kernel

end Point

end CurrentDrift
