import Mathlib.Algebra.Order.Group.Abs
import Mathlib.Algebra.Order.Ring.Int

/-! # Words of 32 and 64 bits

Coordinates are words of 32 bits and are added, multiplied and divided as words of 64 bits. Checked
arithmetic has no value as soon as a step leaves the range. Main statement: the quotient of a word
by a divisor is a coordinate again if the word is no more than so many times a coordinate, in either
direction. -/

namespace CurrentDrift

/-! ## Coordinates and their quotients -/

theorem toInt_mem_range (x : Int32) : -2 ^ 31 ≤ x.toInt ∧ x.toInt ≤ 2 ^ 31 - 1 :=
  ⟨x.le_toInt, Int.le_sub_one_of_lt x.toInt_lt⟩

theorem abs_toInt_sub_le (x y : Int32) : |x.toInt - y.toInt| ≤ 2 ^ 32 - 1 := by
  have hx := toInt_mem_range x
  have hy := toInt_mem_range y
  rw [abs_le]
  omega

/-- To cut a fraction off does not lead beyond a whole number. -/
theorem tdiv_mem_range {k n lo hi : Int} (hk : 0 < k) (hlo : k * lo ≤ n) (hhi : n ≤ k * hi) :
    lo ≤ n.tdiv k ∧ n.tdiv k ≤ hi := by
  constructor
  · calc lo = (k * lo).tdiv k := (Int.mul_tdiv_cancel_left lo hk.ne').symm
      _ ≤ n.tdiv k := Int.tdiv_le_tdiv hk hlo
  · calc n.tdiv k ≤ (k * hi).tdiv k := Int.tdiv_le_tdiv hk hhi
      _ = hi := Int.mul_tdiv_cancel_left hi hk.ne'

theorem toInt_ofInt_tdiv {k n : Int} (hk : 0 < k) (hlo : k * -2 ^ 31 ≤ n)
    (hhi : n ≤ k * (2 ^ 31 - 1)) : (Int32.ofInt (n.tdiv k)).toInt = n.tdiv k := by
  obtain ⟨hmin, hmax⟩ := tdiv_mem_range hk hlo hhi
  exact Int32.toInt_ofInt_of_le hmin (by omega)

/-! ## Checked arithmetic -/

/-- A whole number that a word of 64 bits with a sign holds. -/
def IsWord (n : Int) : Prop := Int64.minValue.toInt ≤ n ∧ n ≤ Int64.maxValue.toInt

instance (n : Int) : Decidable (IsWord n) :=
  inferInstanceAs (Decidable (Int64.minValue.toInt ≤ n ∧ n ≤ Int64.maxValue.toInt))

theorem isWord_iff {n : Int} : IsWord n ↔ -2 ^ 63 ≤ n ∧ n ≤ 2 ^ 63 - 1 := Iff.rfl

theorem isWord_of_abs_le {n : Int} (h : |n| ≤ 2 ^ 63 - 1) : IsWord n := by
  rw [abs_le] at h
  rw [isWord_iff]
  omega

/-- Words wrap around, but a number that is a word stays the same. -/
theorem toInt_ofInt_of_isWord {n : Int} (h : IsWord n) : (Int64.ofInt n).toInt = n := by
  rw [isWord_iff] at h
  exact Int64.toInt_ofInt_of_le h.1 (Int.lt_of_le_sub_one h.2)

namespace Checked

/-- The sum of two words, if it is a word. -/
def add (x y : Int64) : Option Int64 := if IsWord (x.toInt + y.toInt) then some (x + y) else none

/-- The difference of two words, if it is a word. -/
def sub (x y : Int64) : Option Int64 := if IsWord (x.toInt - y.toInt) then some (x - y) else none

/-- The product of two words, if it is a word. -/
def mul (x y : Int64) : Option Int64 := if IsWord (x.toInt * y.toInt) then some (x * y) else none

/-- The quotient of two words without its fraction, if there is one and it is a word. -/
def div (x y : Int64) : Option Int64 :=
  if y ≠ 0 ∧ IsWord (x.toInt.tdiv y.toInt) then some (x / y) else none

/-- The last 32 bits of a word, if they are the same number. -/
def narrow (x : Int64) : Option Int32 :=
  if x.toInt32.toInt = x.toInt then some x.toInt32 else none

theorem bmod_of_isWord {n : Int} (h : IsWord n) : n.bmod (2 ^ 64) = n := by
  rw [isWord_iff] at h
  apply Int.bmod_eq_of_le <;> omega

theorem add_of_isWord {x y : Int64} (h : IsWord (x.toInt + y.toInt)) :
    ∃ z, add x y = some z ∧ z.toInt = x.toInt + y.toInt :=
  ⟨x + y, if_pos h, by rw [Int64.toInt_add, bmod_of_isWord h]⟩

theorem sub_of_isWord {x y : Int64} (h : IsWord (x.toInt - y.toInt)) :
    ∃ z, sub x y = some z ∧ z.toInt = x.toInt - y.toInt :=
  ⟨x - y, if_pos h, by rw [Int64.toInt_sub, bmod_of_isWord h]⟩

theorem mul_of_isWord {x y : Int64} (h : IsWord (x.toInt * y.toInt)) :
    ∃ z, mul x y = some z ∧ z.toInt = x.toInt * y.toInt :=
  ⟨x * y, if_pos h, by rw [Int64.toInt_mul, bmod_of_isWord h]⟩

/-- Where checked arithmetic has a value, nothing has wrapped around. -/
theorem sub_eq_some {x y z : Int64} (h : sub x y = some z) :
    z = x - y ∧ z.toInt = x.toInt - y.toInt := by
  obtain ⟨hword, hz⟩ := Option.ite_none_right_eq_some.mp h
  obtain rfl := Option.some.inj hz
  exact ⟨rfl, by rw [Int64.toInt_sub, bmod_of_isWord hword]⟩

theorem mul_eq_some {x y z : Int64} (h : mul x y = some z) :
    z = x * y ∧ z.toInt = x.toInt * y.toInt := by
  obtain ⟨hword, hz⟩ := Option.ite_none_right_eq_some.mp h
  obtain rfl := Option.some.inj hz
  exact ⟨rfl, by rw [Int64.toInt_mul, bmod_of_isWord hword]⟩

theorem div_of_isWord {x y : Int64} (hy : y ≠ 0) (h : IsWord (x.toInt.tdiv y.toInt)) :
    ∃ z, div x y = some z ∧ z.toInt = x.toInt.tdiv y.toInt :=
  ⟨x / y, if_pos ⟨hy, h⟩, by rw [Int64.toInt_div, bmod_of_isWord h]⟩

theorem narrow_of_le {x : Int64} (hlo : -2 ^ 31 ≤ x.toInt) (hhi : x.toInt ≤ 2 ^ 31 - 1) :
    narrow x = some (Int32.ofInt x.toInt) := by
  have hvalue : x.toInt32.toInt = x.toInt := by
    rw [Int64.toInt_toInt32]
    apply Int.bmod_eq_of_le <;> omega
  rw [narrow, if_pos hvalue, ← hvalue, Int32.ofInt_toInt]

/-- Two coordinates have a sum. -/
theorem add_toInt64 (x y : Int32) :
    ∃ z, add x.toInt64 y.toInt64 = some z ∧ z.toInt = x.toInt + y.toInt := by
  have hx := toInt_mem_range x
  have hy := toInt_mem_range y
  have hword : IsWord (x.toInt64.toInt + y.toInt64.toInt) := by
    rw [isWord_iff, Int32.toInt_toInt64, Int32.toInt_toInt64]
    omega
  simpa only [Int32.toInt_toInt64] using add_of_isWord hword

/-- Two coordinates have a difference. -/
theorem sub_toInt64 (x y : Int32) :
    ∃ z, sub x.toInt64 y.toInt64 = some z ∧ z.toInt = x.toInt - y.toInt := by
  have hx := toInt_mem_range x
  have hy := toInt_mem_range y
  have hword : IsWord (x.toInt64.toInt - y.toInt64.toInt) := by
    rw [isWord_iff, Int32.toInt_toInt64, Int32.toInt_toInt64]
    omega
  simpa only [Int32.toInt_toInt64] using sub_of_isWord hword

/-- The quotient of two words without its fraction, as a coordinate. -/
def share (x k : Int64) : Option Int32 := do narrow (← div x k)

/-- What is no more than `k` times a coordinate has a coordinate as its share. -/
theorem share_eq {x k : Int64} (hk : 0 < k.toInt) (hlo : k.toInt * -2 ^ 31 ≤ x.toInt)
    (hhi : x.toInt ≤ k.toInt * (2 ^ 31 - 1)) :
    share x k = some (Int32.ofInt (x.toInt.tdiv k.toInt)) := by
  obtain ⟨hmin, hmax⟩ := tdiv_mem_range hk hlo hhi
  have hne : k ≠ 0 := by
    rintro rfl
    exact hk.false
  have hword : IsWord (x.toInt.tdiv k.toInt) := by
    rw [isWord_iff]
    omega
  obtain ⟨quotient, hdiv, hquotient⟩ := div_of_isWord hne hword
  rw [share, hdiv, ← hquotient]
  exact narrow_of_le (hquotient ▸ hmin) (hquotient ▸ hmax)

end Checked

end CurrentDrift
