import CurrentDrift.Geo.Rect
import CurrentDrift.Proofs.Geo.Words
import Mathlib.Algebra.Order.Group.Abs
import Mathlib.Order.Bounds.Basic

/-! # Bounding boxes

A box is below another one if no side of it lies outside the other. Main statement: the box of some
points is the least one that holds them all. It does not matter in which order and how often they
come, and the box is empty only if there are none. -/

namespace CurrentDrift.Rect

/-! ## The order of boxes -/

theorem contains_iff {r : Rect} {p : Point} :
    r.contains p = true ↔
      (r.west.toInt ≤ p.long.toInt ∧ p.long.toInt ≤ r.east.toInt) ∧
        r.south.toInt ≤ p.lat.toInt ∧ p.lat.toInt ≤ r.north.toInt := by
  simp only [contains, Bool.and_eq_true, decide_eq_true_eq, Int32.le_iff_toInt_le, and_assoc]

theorem toInt_min (x y : Int32) : (min x y).toInt = min x.toInt y.toInt := by
  have hmin : min x y = if x ≤ y then x else y := rfl
  rw [hmin]
  split <;> rw [Int32.le_iff_toInt_le] at * <;> omega

theorem toInt_max (x y : Int32) : (max x y).toInt = max x.toInt y.toInt := by
  have hmax : max x y = if x ≤ y then y else x := rfl
  rw [hmax]
  split <;> rw [Int32.le_iff_toInt_le] at * <;> omega

instance : LE Rect where
  le r s := (s.west ≤ r.west ∧ r.east ≤ s.east) ∧ s.south ≤ r.south ∧ r.north ≤ s.north

theorem le_iff {r s : Rect} :
    r ≤ s ↔ (s.west.toInt ≤ r.west.toInt ∧ r.east.toInt ≤ s.east.toInt) ∧
      s.south.toInt ≤ r.south.toInt ∧ r.north.toInt ≤ s.north.toInt := by
  change (_ ∧ _) ∧ _ ∧ _ ↔ _
  simp only [Int32.le_iff_toInt_le]

instance : PartialOrder Rect where
  le_refl r := by
    rw [le_iff]
    omega
  le_trans r s t hrs hst := by
    rw [le_iff] at *
    omega
  le_antisymm r s hrs hsr := by
    rw [le_iff] at hrs hsr
    cases r
    cases s
    simp only [mk.injEq, ← Int32.toInt_inj] at *
    omega

variable {r s : Rect} {p q : Point}

theorem contains_of_le (h : r ≤ s) (hp : r.contains p = true) : s.contains p = true := by
  rw [le_iff] at h
  rw [contains_iff] at *
  omega

/-- The distance from the western to the eastern side. -/
def width (r : Rect) : Int := r.east.toInt - r.west.toInt

/-- The distance from the southern to the northern side. -/
def height (r : Rect) : Int := r.north.toInt - r.south.toInt

theorem abs_sub_long_le (hp : r.contains p = true) (hq : r.contains q = true) :
    |p.long.toInt - q.long.toInt| ≤ r.width := by
  rw [contains_iff] at hp hq
  rw [abs_le, width]
  omega

theorem abs_sub_lat_le (hp : r.contains p = true) (hq : r.contains q = true) :
    |p.lat.toInt - q.lat.toInt| ≤ r.height := by
  rw [contains_iff] at hp hq
  rw [abs_le, height]
  omega

/-! ## The box of some points -/

theorem empty_le (r : Rect) : empty ≤ r := by
  rw [le_iff]
  exact ⟨⟨(toInt_mem_range r.west).2, (toInt_mem_range r.east).1⟩,
    (toInt_mem_range r.south).2, (toInt_mem_range r.north).1⟩

/-- A box with one more point is the least one that holds both. -/
theorem insert_le_iff : r.insert p ≤ s ↔ r ≤ s ∧ s.contains p = true := by
  simp only [le_iff, contains_iff, insert, toInt_min, toInt_max]
  omega

theorem foldl_insert_le_iff {ps : List Point} :
    ps.foldl insert r ≤ s ↔ r ≤ s ∧ ∀ p ∈ ps, s.contains p = true := by
  induction ps generalizing r with
  | nil => simp
  | cons p ps ih => rw [List.foldl_cons, ih, insert_le_iff, List.forall_mem_cons, and_assoc]

theorem ofPoints_le_iff {ps : Array Point} : ofPoints ps ≤ r ↔ ∀ p ∈ ps, r.contains p = true := by
  rw [ofPoints, ← Array.foldl_toList, foldl_insert_le_iff, and_iff_right (empty_le r)]
  simp only [Array.mem_toList_iff]

theorem contains_ofPoints {ps : Array Point} (h : p ∈ ps) : (ofPoints ps).contains p = true :=
  ofPoints_le_iff.mp le_rfl p h

theorem isLeast_ofPoints (ps : Array Point) :
    IsLeast {r : Rect | ∀ p ∈ ps, r.contains p = true} (ofPoints ps) :=
  ⟨fun _ => contains_ofPoints, fun _ => ofPoints_le_iff.mpr⟩

/-- It does not matter in which order and how often the points come. -/
theorem ofPoints_eq_of_mem_iff {ps qs : Array Point} (h : ∀ p, p ∈ ps ↔ p ∈ qs) :
    ofPoints ps = ofPoints qs := by
  have hsame : {r : Rect | ∀ p ∈ ps, r.contains p = true} =
      {r : Rect | ∀ p ∈ qs, r.contains p = true} := by
    simp only [h]
  exact (hsame ▸ isLeast_ofPoints ps).unique (isLeast_ofPoints qs)

/-- A point is in the box exactly if no box that holds all the points leaves it out. -/
theorem contains_ofPoints_iff {ps : Array Point} :
    (ofPoints ps).contains q = true ↔
      ∀ r : Rect, (∀ p ∈ ps, r.contains p = true) → r.contains q = true :=
  ⟨fun hq _ hr => contains_of_le (ofPoints_le_iff.mpr hr) hq, fun h => h _ fun _ => contains_ofPoints⟩

theorem ofPoints_push (ps : Array Point) (p : Point) :
    ofPoints (ps.push p) = (ofPoints ps).insert p :=
  Array.foldl_push

/-! ## Empty boxes and centers -/

theorem isEmpty_eq_false_iff :
    r.isEmpty = false ↔ r.west.toInt ≤ r.east.toInt ∧ r.south.toInt ≤ r.north.toInt := by
  simp only [isEmpty, Bool.or_eq_false_iff, decide_eq_false_iff_not, Int32.lt_iff_toInt_lt,
    Int.not_lt]

theorem isEmpty_of_contains (h : r.contains p = true) : r.isEmpty = false := by
  rw [contains_iff] at h
  rw [isEmpty_eq_false_iff]
  omega

theorem isEmpty_ofPoints_iff {ps : Array Point} : (ofPoints ps).isEmpty = true ↔ ps = #[] := by
  constructor
  · intro h
    by_contra hne
    obtain ⟨p, hp⟩ := Array.exists_mem_of_ne_empty ps hne
    rw [isEmpty_of_contains (contains_ofPoints hp)] at h
    contradiction
  · rintro rfl
    decide

theorem toInt_middle (x y : Int32) : (middle x y).toInt = (x.toInt + y.toInt).tdiv 2 := by
  have hx := toInt_mem_range x
  have hy := toInt_mem_range y
  apply toInt_ofInt_tdiv <;> omega

theorem middle_mem_range {x y : Int32} (h : x.toInt ≤ y.toInt) :
    x.toInt ≤ (middle x y).toInt ∧ (middle x y).toInt ≤ y.toInt := by
  rw [toInt_middle]
  apply tdiv_mem_range <;> omega

theorem contains_center (h : r.isEmpty = false) : r.contains r.center = true := by
  obtain ⟨hlong, hlat⟩ := isEmpty_eq_false_iff.mp h
  exact contains_iff.mpr ⟨middle_mem_range hlong, middle_mem_range hlat⟩

/-- South and west of zero, cutting off leads to the north and the east. -/
example : center ⟨-3, -3, -2, 2⟩ = ⟨-2, 0⟩ := by decide

/-- `middle` on words, step by step. -/
def checkedMiddle (x y : Int32) : Option Int32 := do
  let sum ← Checked.add x.toInt64 y.toInt64
  Checked.share sum 2

/-- `center` on words. -/
def checkedCenter (r : Rect) : Option Point := do
  let long ← checkedMiddle r.west r.east
  let lat ← checkedMiddle r.south r.north
  some ⟨long, lat⟩

theorem checkedMiddle_eq (x y : Int32) : checkedMiddle x y = some (middle x y) := by
  have hx := toInt_mem_range x
  have hy := toInt_mem_range y
  obtain ⟨sum, hsum, hvalue⟩ := Checked.add_toInt64 x y
  have htwo : (2 : Int64).toInt = 2 := rfl
  rw [checkedMiddle, hsum, middle, ← hvalue]
  apply Checked.share_eq <;> omega

theorem checkedCenter_eq (r : Rect) : r.checkedCenter = some r.center := by
  rw [checkedCenter, checkedMiddle_eq, checkedMiddle_eq]
  rfl

end CurrentDrift.Rect
