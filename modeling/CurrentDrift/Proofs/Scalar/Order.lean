import Mathlib.Data.Prod.Lex
import Mathlib.Order.Compare
import CurrentDrift.Proofs.Scalar.Exact
import CurrentDrift.Binary64

/-! # The order of scalars

Scalars may hold something that is not a number and compares with nothing. All the others are in a
total order. This holds of doubles as well as of real numbers. -/

namespace CurrentDrift

/-! ## Laws -/

/-- Scalars whose numbers are in a total order, and in which nothing else compares. -/
class Scalar.IsOrdered (α : Type) [Scalar α] : Prop where
  isNaN_of_le : ∀ {a b : α}, a ≤ b → isNaN a = false ∧ isNaN b = false
  le_trans : ∀ {a b c : α}, a ≤ b → b ≤ c → a ≤ c
  le_total : ∀ {a b : α}, isNaN a = false → isNaN b = false → a ≤ b ∨ b ≤ a
  lt_iff : ∀ {a b : α}, a < b ↔ isNaN a = false ∧ isNaN b = false ∧ ¬ b ≤ a

namespace Scalar.IsOrdered

variable {α : Type} [Scalar α]

/-- Scalars are ordered if their numbers have places in some total order. -/
theorem of_place {β : Type} [LinearOrder β] (place : α → β)
    (hle : ∀ a b : α, a ≤ b ↔ isNaN a = false ∧ isNaN b = false ∧ place a ≤ place b)
    (hlt : ∀ a b : α, a < b ↔ isNaN a = false ∧ isNaN b = false ∧ place a < place b) :
    IsOrdered α where
  isNaN_of_le h := ⟨((hle _ _).mp h).1, ((hle _ _).mp h).2.1⟩
  le_trans hab hbc := by
    obtain ⟨ha, -, hab⟩ := (hle _ _).mp hab
    obtain ⟨-, hc, hbc⟩ := (hle _ _).mp hbc
    exact (hle _ _).mpr ⟨ha, hc, hab.trans hbc⟩
  le_total {a b} ha hb :=
    (LinearOrder.le_total (place a) (place b)).imp (fun h => (hle _ _).mpr ⟨ha, hb, h⟩)
      fun h => (hle _ _).mpr ⟨hb, ha, h⟩
  lt_iff {a b} := by
    rw [hlt, hle, ← not_le]
    tauto

variable [IsOrdered α] {a b c : α}

theorem le_refl (ha : isNaN a = false) : a ≤ a :=
  (IsOrdered.le_total ha ha).elim id id

theorem le_of_lt (h : a < b) : a ≤ b := by
  obtain ⟨ha, hb, hba⟩ := IsOrdered.lt_iff.mp h
  exact (IsOrdered.le_total ha hb).resolve_right hba

theorem lt_of_lt_of_le (hab : a < b) (hbc : b ≤ c) : a < c := by
  obtain ⟨ha, -, hba⟩ := IsOrdered.lt_iff.mp hab
  exact IsOrdered.lt_iff.mpr
    ⟨ha, (IsOrdered.isNaN_of_le hbc).2, fun hca => hba (IsOrdered.le_trans hbc hca)⟩

theorem lt_trans (hab : a < b) (hbc : b < c) : a < c :=
  lt_of_lt_of_le hab (le_of_lt hbc)

theorem lt_asymm (h : a < b) : ¬ b < a :=
  fun hba => (IsOrdered.lt_iff.mp hba).2.2 (le_of_lt h)

theorem lt_of_not_le (ha : isNaN a = false) (hb : isNaN b = false) (h : ¬ b ≤ a) : a < b :=
  IsOrdered.lt_iff.mpr ⟨ha, hb, h⟩

end Scalar.IsOrdered

instance : Scalar.IsOrdered ℝ where
  isNaN_of_le _ := ⟨rfl, rfl⟩
  le_trans := le_trans
  le_total {a b} _ _ := le_total a b
  lt_iff := ⟨fun h => ⟨rfl, rfl, not_le.mpr h⟩, fun h => not_le.mp h.2.2⟩

/-! ## Doubles -/

namespace Double

open Float.Model (UnpackedFloat)

/-- Where a double stands: in its sign and size class, and in it by exponent and significand. -/
def place : UnpackedFloat → ℤ ×ₗ ℤ ×ₗ ℤ
  | .infinity .negative => toLex (-2, toLex (0, 0))
  | .finite .negative m e _ => toLex (-1, toLex (-e, -m))
  | .zero _ | .notANumber => toLex (0, toLex (0, 0))
  | .finite .positive m e _ => toLex (1, toLex (e, m))
  | .infinity .positive => toLex (2, toLex (0, 0))

theorem compare_natCast (m n : ℕ) : compare (m : ℤ) n = compare m n := by
  rw [← cmp_eq_compare, ← cmp_eq_compare]
  exact Nat.strictMono_cast.cmp_map_eq m n

theorem compare_neg (a b : ℤ) : compare (-a) (-b) = (compare a b).swap := by
  rw [← cmp_eq_compare, ← cmp_eq_compare, cmp_swap]
  exact StrictAnti.cmp_map_eq (fun _ _ => neg_lt_neg) a b

/-- Doubles compare as their places do. -/
theorem compare_eq_place {a b : UnpackedFloat} (ha : a.isNaN = false) (hb : b.isNaN = false) :
    a.compare b = some (compare (place a) (place b)) := by
  rcases a with (_ | _) | _ | _ | ⟨_ | _, m, e, hm⟩ <;>
    rcases b with (_ | _) | _ | _ | ⟨_ | _, n, f, hn⟩ <;>
      try first | rfl | contradiction
  · change some _ = some ((compare (-e) (-f)).then (compare (-(m : ℤ)) (-n)))
    rw [compare_neg, compare_neg, compare_natCast, ← Ordering.swap_then]
  · change some _ = some ((compare e f).then (compare (m : ℤ) n))
    rw [compare_natCast]

theorem compare_of_isNaN {a b : UnpackedFloat} (h : a.isNaN = true ∨ b.isNaN = true) :
    a.compare b = none := by
  rcases h with h | h
  · cases a <;> first | rfl | contradiction
  · cases a <;> cases b <;> first | rfl | contradiction

theorem le_iff_place (a b : UnpackedFloat) :
    a.le b = true ↔ a.isNaN = false ∧ b.isNaN = false ∧ place a ≤ place b := by
  cases ha : a.isNaN with
  | true => simp [UnpackedFloat.le, compare_of_isNaN (.inl ha)]
  | false =>
      cases hb : b.isNaN with
      | true => simp [UnpackedFloat.le, compare_of_isNaN (.inr hb)]
      | false => simp [UnpackedFloat.le, compare_eq_place ha hb, Ordering.isLE_iff_ne_gt,
          compare_le_iff_le]

theorem lt_iff_place (a b : UnpackedFloat) :
    a.lt b = true ↔ a.isNaN = false ∧ b.isNaN = false ∧ place a < place b := by
  cases ha : a.isNaN with
  | true => simp [UnpackedFloat.lt, compare_of_isNaN (.inl ha)]
  | false =>
      cases hb : b.isNaN with
      | true => simp [UnpackedFloat.lt, compare_of_isNaN (.inr hb)]
      | false => simp [UnpackedFloat.lt, compare_eq_place ha hb, compare_lt_iff_lt]

end Double

instance : Scalar.IsOrdered Float :=
  .of_place (fun x => Double.place x.toModel.unpack)
    (fun _ _ => decide_eq_true_iff.trans (Double.le_iff_place _ _))
    fun _ _ => decide_eq_true_iff.trans (Double.lt_iff_place _ _)

end CurrentDrift
