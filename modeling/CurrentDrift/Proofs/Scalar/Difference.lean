import Mathlib
import CurrentDrift.Proofs.Scalar.Order

/-! # Differences of doubles

Two finite doubles may be so far apart that no finite double is left for their difference. A number
is held with 53 bits and an exponent that is at most 971, and what is halfway to the next power of
two above the largest double is rounded up to it. Main statement: the difference of two finite
doubles is finite exactly if the exact one stays below that. -/

namespace CurrentDrift.Double

open Float.Model (UnpackedFloat)
open Float.Model.Format (binary64)
open Float.Model.UnpackedFloat

/-! ## Numbers and their limit -/

/-- The number that a sign, a mantissa and an exponent stand for; zero for what is not finite. -/
def value : UnpackedFloat → ℚ
  | .finite s m e _ => s.apply m * 2 ^ e
  | _ => 0

/-- The number that a finite double stands for. -/
def exact (x : Float) : ℚ := value x.toModel.unpack

/-- The least number that is too large for a finite double. -/
def limit : ℚ := 2 ^ 1024 - 2 ^ 970

theorem limit_eq : limit = (2 ^ 54 - 1) * 2 ^ 970 := by
  have hpow : (2 : ℚ) ^ 1024 = 2 ^ 54 * 2 ^ 970 := by rw [← pow_add]
  rw [limit, hpow, sub_mul, one_mul]

theorem limit_pos : 0 < limit := by
  rw [limit_eq]
  norm_num

theorem zpow_971_eq : (2 : ℚ) ^ (971 : ℤ) = 2 * 2 ^ 970 := by
  rw [zpow_ofNat]
  exact pow_succ' 2 970

/-! ## What can be stored -/

/-- The number is finite in the form in which doubles are stored. -/
def IsStored (x : UnpackedFloat) : Prop := (unpack binary64 (pack binary64 x)).isFinite = true

theorem isFinite_unpack_iff (b : BitVec binary64.numBits) :
    (unpack binary64 b).isFinite = true ↔ unpackExponent b ≠ -1#_ := by
  unfold unpack
  dsimp only
  split
  · next h => split <;> exact iff_of_false Bool.false_ne_true (not_not.mpr h)
  · next h =>
    split
    · split <;> exact iff_of_true rfl h
    · exact iff_of_true rfl h

theorem isStored_zero (s : Sign) : IsStored (.zero s) := by
  rw [IsStored, isFinite_unpack_iff, pack, packedZero, unpackExponent_packComponents]
  decide

theorem isStored_finite_iff {s : Sign} {m : ℕ} {e : ℤ} (hm : 0 < m) :
    IsStored (.finite s m e hm) ↔ e ≤ 971 := by
  rw [IsStored, isFinite_unpack_iff, pack]
  dsimp only
  split
  · next h =>
    have hlarge : 2 ^ 11 ≤ (e + 1023 + 52).toNat + 1 := h
    rw [packedInfinity, unpackExponent_packComponents]
    exact iff_of_false (not_not.mpr rfl) (by omega)
  · next h =>
    have hsmall : ¬ 2 ^ 11 ≤ (e + 1023 + 52).toNat + 1 := h
    refine iff_of_true ?_ (by omega)
    split
    · rw [unpackExponent_packComponents]
      intro heq
      have hmod : (e + 1023 + 52).toNat % 2 ^ 11 = 2047 := congrArg BitVec.toNat heq
      omega
    · rw [unpackExponent_packComponents]
      decide

/-- A stored mantissa has at most 53 bits, and a stored exponent is not too large. -/
theorem bounds_of_unpack {b : BitVec binary64.numBits} {s : Sign} {m : ℕ} {e : ℤ} {hm : 0 < m}
    (h : unpack binary64 b = .finite s m e hm) : m < 2 ^ 53 ∧ e ≤ 971 := by
  unfold unpack at h
  dsimp only at h
  split at h
  · split at h <;> contradiction
  · next hexponent =>
    have hlt : (unpackExponent b).toNat < 2 ^ 11 := BitVec.isLt _
    have hne : (unpackExponent b).toNat ≠ 2047 := fun heq => hexponent (BitVec.eq_of_toNat_eq heq)
    split at h
    · next hzero =>
      split at h
      · contradiction
      · obtain ⟨-, rfl, rfl⟩ := UnpackedFloat.finite.inj h
        have hmantissa : (unpackMantissa b).toNat < 2 ^ 52 := BitVec.isLt _
        constructor
        · omega
        · rw [hzero]
          decide
    · obtain ⟨-, rfl, rfl⟩ := UnpackedFloat.finite.inj h
      constructor
      · exact BitVec.isLt _
      · change ((unpackExponent b).toNat : ℤ) - (1023 + 52) ≤ 971
        omega

theorem abs_value_lt_limit (b : BitVec binary64.numBits) : |value (unpack binary64 b)| < limit := by
  cases h : unpack binary64 b with
  | finite s m e hm =>
      obtain ⟨hmantissa, hexponent⟩ := bounds_of_unpack h
      have habs : |value (.finite s m e hm)| = m * 2 ^ e := by
        cases s <;> simp [value, Sign.apply, abs_mul]
      have hmax : (m : ℚ) ≤ 2 ^ 53 - 1 := by
        rw [le_sub_iff_add_le]
        exact_mod_cast hmantissa
      rw [habs]
      calc (m : ℚ) * 2 ^ e ≤ (2 ^ 53 - 1) * 2 ^ (971 : ℤ) := by
            gcongr
            norm_num
        _ = (2 ^ 53 - 1) * 2 * 2 ^ 970 := by rw [zpow_971_eq, mul_assoc]
        _ < limit := by
            rw [limit_eq]
            gcongr
            norm_num
  | _ => simp [value, limit_pos]

/-! ## Rounding a mantissa -/

/-- A mantissa without its last bits, with a note on what they were. -/
def cut (n d : ℕ) : ExtendedMantissa := (⟨n, false, false⟩ : ExtendedMantissa) >>> d

theorem cut_succ (n d : ℕ) : cut n (d + 1) = (cut n d).shiftRightOne :=
  rfl

theorem mantissa_cut (n d : ℕ) : (cut n d).mantissa = n / 2 ^ d := by
  induction d with
  | zero => exact (Nat.div_one n).symm
  | succ d ih =>
      rw [cut_succ, ExtendedMantissa.shiftRightOne, ih, Nat.div_div_eq_div_mul, Nat.pow_succ]

theorem roundBit_cut (n d : ℕ) : (cut n d).roundBit = true ↔ 2 ^ d ≤ 2 * (n % 2 ^ d) := by
  cases d with
  | zero => exact iff_of_false Bool.false_ne_true (by omega)
  | succ d =>
      have hlow : n % 2 ^ d < 2 ^ d := Nat.mod_lt _ (by positivity)
      rw [cut_succ, ExtendedMantissa.shiftRightOne, mantissa_cut, Nat.mod_pow_succ, Nat.pow_succ]
      rcases Nat.mod_two_eq_zero_or_one (n / 2 ^ d) with hbit | hbit
      · rw [hbit]
        exact iff_of_false Bool.false_ne_true (by omega)
      · rw [hbit]
        exact iff_of_true rfl (by omega)

theorem roundedMantissa_bounds (em : ExtendedMantissa) :
    em.mantissa ≤ em.roundedMantissa ∧ em.roundedMantissa ≤ em.mantissa + 1 := by
  obtain ⟨m, round, sticky⟩ := em
  cases round <;> cases sticky <;>
    simp only [ExtendedMantissa.roundedMantissa, ExtendedMantissa.accuracy,
      Accuracy.roundToNearestEven] <;>
    omega

theorem roundedMantissa_of_odd {em : ExtendedMantissa} (h : em.mantissa % 2 = 1) :
    em.roundedMantissa = em.mantissa + 1 ↔ em.roundBit = true := by
  obtain ⟨m, round, sticky⟩ := em
  cases round <;> cases sticky <;>
    simp_all [ExtendedMantissa.roundedMantissa, ExtendedMantissa.accuracy,
      Accuracy.roundToNearestEven]

/-- Only the largest mantissa can be rounded up to one bit more, and as it is odd, it is so from the
half on. -/
theorem roundedMantissa_cut_eq_iff {n d : ℕ} (h : n / 2 ^ d < 2 ^ 53) :
    (cut n d).roundedMantissa = 2 ^ 53 ↔ (2 ^ 54 - 1) * 2 ^ d ≤ 2 * n := by
  have hmantissa := mantissa_cut n d
  have hbounds := roundedMantissa_bounds (cut n d)
  have hbit := roundBit_cut n d
  have hn := Nat.div_add_mod n (2 ^ d)
  by_cases htop : n / 2 ^ d = 2 ^ 53 - 1
  · have hlast : (cut n d).mantissa % 2 = 1 := by
      rw [hmantissa, htop]
      rfl
    have hodd := roundedMantissa_of_odd hlast
    have hsucc : 2 ^ 53 = (cut n d).mantissa + 1 := by omega
    rw [hsucc, hodd, hbit]
    rw [htop] at hn
    generalize 2 ^ d = unit at *
    omega
  · have hlt := Nat.lt_mul_div_succ n (show 0 < 2 ^ d by positivity)
    have hle : 2 ^ d * (n / 2 ^ d + 1) ≤ 2 ^ d * (2 ^ 53 - 1) := Nat.mul_le_mul_left _ (by omega)
    rw [hmantissa] at hbounds
    generalize 2 ^ d = unit at *
    omega

/-! ## Rounding a number -/

/-- The exponent with which a double holds the number `n * 2 ^ e`. -/
def heldExponent (n : ℕ) (e : ℤ) : ℤ := max (n.log2 + e - 52) (-1074)

theorem targetExponent_eq (n : ℕ) (e : ℤ) :
    binary64.targetExponent (Float.Model.totalExponent n e) = heldExponent n e := by
  have hmin : binary64.minExponent = -1074 := rfl
  have hbits : binary64.mantissaBits = 53 := rfl
  unfold Float.Model.Format.targetExponent Float.Model.totalExponent heldExponent
  rw [hmin, hbits]
  omega

theorem shiftToTargetExponent_eq {n d : ℕ} {e : ℤ} (h : (heldExponent n e - e).toNat = d) :
    shiftToTargetExponent binary64 n e .exact = (cut n d, e + d) := by
  unfold shiftToTargetExponent shiftToExponent
  rw [targetExponent_eq]
  dsimp only
  rw [h]
  rfl

section Rounding

variable {n d : ℕ} {e : ℤ}

theorem div_lt_of_held (h : e + d = heldExponent n e) : n / 2 ^ d < 2 ^ 53 := by
  unfold heldExponent at h
  apply Nat.div_lt_of_lt_mul
  rw [← pow_add]
  exact Nat.lt_log2_self.trans_le (Nat.pow_le_pow_right (by norm_num) (by omega))

theorem le_div_of_held (h : e + d = heldExponent n e) (hn : 0 < n)
    (hlarge : -1074 < heldExponent n e) : 2 ^ 52 ≤ n / 2 ^ d := by
  unfold heldExponent at h hlarge
  have hlog : 52 + d = n.log2 := by omega
  rw [Nat.le_div_iff_mul_le (by positivity), ← pow_add, hlog]
  exact Nat.log2_self_le hn.ne'

/-- A mantissa that has been rounded up to one bit more takes a larger exponent. -/
theorem isStored_roundWithAccuracy_iff (s : Sign) (h : e + d = heldExponent n e) (hn : 0 < n) :
    IsStored (roundWithAccuracy binary64 s n e .exact) ↔
      heldExponent n e ≤ 970 ∨
        heldExponent n e = 971 ∧ (cut n d).roundedMantissa ≠ 2 ^ 53 := by
  have hbounds := roundedMantissa_bounds (cut n d)
  have hlt := div_lt_of_held h
  have hle := le_div_of_held h hn
  have hmin : -1074 ≤ heldExponent n e := le_max_right _ _
  rw [mantissa_cut] at hbounds
  unfold roundWithAccuracy
  rw [shiftToTargetExponent_eq (d := d) (by omega), h]
  dsimp only
  generalize (cut n d).roundedMantissa = r at *
  generalize heldExponent n e = t at *
  rcases Nat.lt_or_eq_of_le (show r ≤ 2 ^ 53 by omega) with hr | rfl
  · have hheld : (heldExponent r t - t).toNat = 0 := by
      have hlog : r.log2 ≤ 52 := by
        rcases Nat.eq_zero_or_pos r with rfl | hpos
        · decide
        · exact Nat.le_of_lt_succ ((Nat.log2_lt hpos.ne').mpr hr)
      unfold heldExponent
      omega
    rw [shiftToTargetExponent_eq hheld]
    dsimp only
    split
    · next hzero =>
      have hzero' : r = 0 := hzero
      exact iff_of_true (isStored_zero s) (.inl (by omega))
    · rw [isStored_finite_iff]
      omega
  · have hheld : (heldExponent (2 ^ 53) t - t).toNat = 1 := by
      have hlog : (2 ^ 53).log2 = 53 := Nat.log2_two_pow
      unfold heldExponent
      omega
    have hmantissa : (cut (2 ^ 53) 1).mantissa ≠ 0 := by
      rw [mantissa_cut]
      norm_num
    rw [shiftToTargetExponent_eq hheld]
    dsimp only
    rw [dif_neg hmantissa, isStored_finite_iff]
    omega

theorem mul_zpow_eq_of_held (h : e + d = heldExponent n e) :
    (n : ℚ) * 2 ^ e = n / 2 ^ d * 2 ^ heldExponent n e := by
  rw [← h, zpow_add₀ (by norm_num), zpow_natCast]
  field_simp

/-- The numbers with the largest exponent are the ones that lie on both sides of the limit. -/
theorem mul_zpow_lt_limit_iff (h : e + d = heldExponent n e) (hn : 0 < n) :
    (n : ℚ) * 2 ^ e < limit ↔
      heldExponent n e ≤ 970 ∨ heldExponent n e = 971 ∧ 2 * n < (2 ^ 54 - 1) * 2 ^ d := by
  have hpow : (0 : ℚ) < 2 ^ d := by positivity
  have hlt := div_lt_of_held h
  have hle := le_div_of_held h hn
  rw [mul_zpow_eq_of_held h]
  generalize heldExponent n e = t at *
  rcases lt_trichotomy t 971 with hsmall | rfl | hlarge
  · have hdiv : (n : ℚ) / 2 ^ d < 2 ^ 53 := by
      rw [div_lt_iff₀ hpow]
      exact_mod_cast (Nat.div_lt_iff_lt_mul (by positivity)).mp hlt
    refine iff_of_true ?_ (.inl (by omega))
    calc (n : ℚ) / 2 ^ d * 2 ^ t ≤ 2 ^ 53 * 2 ^ (970 : ℤ) := by
          gcongr
          · norm_num
          · omega
      _ = 2 ^ 53 * 2 ^ 970 := by rw [zpow_ofNat]
      _ < limit := by
          rw [limit_eq]
          gcongr
          norm_num
  · have hlimit : limit = (2 ^ 54 - 1) / 2 * 2 ^ (971 : ℤ) := by
      rw [limit_eq, zpow_971_eq, ← mul_assoc, div_mul_cancel₀ _ two_ne_zero]
    have hhalf : (n : ℚ) / 2 ^ d < (2 ^ 54 - 1) / 2 ↔ 2 * n < (2 ^ 54 - 1) * 2 ^ d := by
      rw [div_lt_iff₀ hpow, ← @Nat.cast_lt ℚ]
      push_cast
      constructor <;> intro h <;> linarith
    rw [hlimit, mul_lt_mul_iff_left₀ (by positivity), hhalf]
    simp
  · have hdiv : (2 ^ 52 : ℚ) ≤ n / 2 ^ d := by
      rw [le_div_iff₀ hpow]
      exact_mod_cast (Nat.le_div_iff_mul_le (by positivity)).mp (hle (by omega))
    refine iff_of_false (not_lt.mpr ?_) (by omega)
    calc limit ≤ 2 ^ 54 * 2 ^ 970 := by
          rw [limit_eq]
          gcongr
          norm_num
      _ = 2 ^ 52 * 2 ^ (972 : ℤ) := by rw [zpow_ofNat, ← pow_add, ← pow_add]
      _ ≤ (n : ℚ) / 2 ^ d * 2 ^ t := by
          gcongr
          · norm_num
          · omega

end Rounding

theorem log2_shiftLeft {n : ℕ} (hn : 0 < n) (k : ℕ) : (n <<< k).log2 = n.log2 + k := by
  induction k with
  | zero => rfl
  | succ k ih =>
      have hpos : n <<< k ≠ 0 := by simp [hn.ne']
      rw [Nat.shiftLeft_succ, Nat.log2_two_mul hpos, ih, Nat.add_assoc]

/-- A smaller exponent goes with a larger mantissa. -/
theorem shiftLeft_mul_zpow (n k : ℕ) (e : ℤ) :
    ((n <<< k : ℕ) : ℚ) * 2 ^ (e - k) = n * 2 ^ e := by
  rw [zpow_sub₀ (by norm_num), zpow_natCast, Nat.shiftLeft_eq]
  push_cast
  field_simp

theorem isStored_round_iff (s : Sign) {n : ℕ} (e : ℤ) (hn : 0 < n) :
    IsStored (UnpackedFloat.round binary64 s n e) ↔ (n : ℚ) * 2 ^ e < limit := by
  let k := (e - heldExponent n e).toNat
  have hpos : 0 < n <<< k := by simp [hn]
  have hheld : heldExponent (n <<< k) (e - k) = heldExponent n e := by
    unfold heldExponent
    rw [log2_shiftLeft hn]
    push_cast
    congr 1
    ring
  have hd : e - k + (heldExponent n e - (e - k)).toNat = heldExponent (n <<< k) (e - k) := by
    rw [hheld]
    omega
  unfold UnpackedFloat.round decreaseExponent
  dsimp only
  rw [targetExponent_eq, isStored_roundWithAccuracy_iff s hd hpos, ne_eq,
    roundedMantissa_cut_eq_iff (div_lt_of_held hd), not_le, ← mul_zpow_lt_limit_iff hd hpos,
    shiftLeft_mul_zpow]

theorem isStored_normalize_iff (n e : ℤ) (zeroSign : Sign) :
    IsStored (UnpackedFloat.normalize binary64 n e zeroSign) ↔ |(n : ℚ) * 2 ^ e| < limit := by
  have hpow : (0 : ℚ) < 2 ^ e := by positivity
  rw [abs_mul, abs_of_pos hpow, ← Int.cast_abs, ← Nat.cast_natAbs]
  unfold UnpackedFloat.normalize
  split
  · next h =>
    have hneg := Int.compare_eq_lt.mp h
    have hnat : (-n).toNat = n.natAbs := by omega
    rw [hnat, isStored_round_iff _ _ (by omega)]
  · next h =>
    have hzero := Int.compare_eq_eq.mp h
    exact iff_of_true (isStored_zero _) (by simp [hzero, limit_pos])
  · next h =>
    have hpos := Int.compare_eq_gt.mp h
    have hnat : n.toNat = n.natAbs := by omega
    rw [hnat, isStored_round_iff _ _ (by omega)]

/-! ## Differences -/

/-- Two numbers are subtracted with the smaller one of their exponents. -/
theorem apply_mul_zpow (s : Sign) (m : ℕ) {e t : ℤ} (h : t ≤ e) :
    ((s.apply ((decreaseExponent m e t).1 : ℤ) : ℤ) : ℚ) * 2 ^ t = s.apply m * 2 ^ e := by
  have hexponent : t = e - ((e - t).toNat : ℤ) := by omega
  have hmul := shiftLeft_mul_zpow m (e - t).toNat e
  rw [← hexponent] at hmul
  cases s with
  | negative =>
      change ((-((m <<< (e - t).toNat : ℕ) : ℤ) : ℤ) : ℚ) * _ = ((-(m : ℤ) : ℤ) : ℚ) * _
      rw [Int.cast_neg, Int.cast_neg, Int.cast_natCast, Int.cast_natCast, neg_mul, neg_mul, hmul]
  | positive => exact hmul

theorem isStored_sub_finite_iff {s s' : Sign} {m m' : ℕ} {e e' : ℤ} (hm : 0 < m) (hm' : 0 < m') :
    IsStored (sub binary64 (.finite s m e hm) (.finite s' m' e' hm')) ↔
      |value (.finite s m e hm) - value (.finite s' m' e' hm')| < limit := by
  have hvalue : value (.finite s m e hm) - value (.finite s' m' e' hm') =
      ((s.apply ((decreaseExponent m e (min e e')).1 : ℤ) -
        s'.apply ((decreaseExponent m' e' (min e e')).1 : ℤ) : ℤ) : ℚ) * 2 ^ (min e e') := by
    rw [Int.cast_sub, sub_mul, apply_mul_zpow _ _ (min_le_left e e'),
      apply_mul_zpow _ _ (min_le_right e e')]
    rfl
  rw [hvalue, ← isStored_normalize_iff _ _ .positive]
  rfl

theorem isStored_sub_iff {a b : BitVec binary64.numBits}
    (ha : (unpack binary64 a).isFinite = true) (hb : (unpack binary64 b).isFinite = true) :
    IsStored (sub binary64 (unpack binary64 a) (unpack binary64 b)) ↔
      |value (unpack binary64 a) - value (unpack binary64 b)| < limit := by
  have hvalue := abs_value_lt_limit a
  have hvalue' := abs_value_lt_limit b
  cases hu : unpack binary64 a with
  | notANumber => simp [hu, UnpackedFloat.isFinite] at ha
  | infinity s => simp [hu, UnpackedFloat.isFinite] at ha
  | zero s =>
      cases hv : unpack binary64 b with
      | notANumber => simp [hv, UnpackedFloat.isFinite] at hb
      | infinity s' => simp [hv, UnpackedFloat.isFinite] at hb
      | zero s' =>
          refine iff_of_true ?_ (by simp [value, limit_pos])
          unfold sub
          dsimp only
          split <;> exact isStored_zero _
      | finite s' m e hm =>
          rw [hv] at hvalue'
          refine iff_of_true ((isStored_finite_iff hm).mpr (bounds_of_unpack hv).2) ?_
          simpa [value] using hvalue'
  | finite s m e hm =>
      cases hv : unpack binary64 b with
      | notANumber => simp [hv, UnpackedFloat.isFinite] at hb
      | infinity s' => simp [hv, UnpackedFloat.isFinite] at hb
      | zero s' =>
          rw [hu] at hvalue
          refine iff_of_true ((isStored_finite_iff hm).mpr (bounds_of_unpack hu).2) ?_
          simpa [value] using hvalue
      | finite s' m' e' hm' => exact isStored_sub_finite_iff hm hm'

/-- The difference of two finite doubles is finite exactly if the exact one is below the limit. -/
theorem isFinite_sub_iff {a b : Float} (ha : a.isFinite = true) (hb : b.isFinite = true) :
    (a - b).isFinite = true ↔ |exact a - exact b| < limit :=
  isStored_sub_iff ha hb

/-! ## Equal numbers -/

theorem isNaN_of_isFinite {a : Float} (h : a.isFinite = true) : Scalar.isNaN a = false := by
  change a.toModel.unpack.isFinite = true at h
  change a.toModel.unpack.isNaN = false
  generalize a.toModel.unpack = u at *
  cases u <;> first | rfl | contradiction

/-- Doubles that stand at the same place stand for the same number. -/
theorem value_eq_of_place_eq {a b : UnpackedFloat} (h : place a = place b) :
    value a = value b := by
  rcases a with (_ | _) | _ | _ | ⟨_ | _, m, e, hm⟩ <;>
    rcases b with (_ | _) | _ | _ | ⟨_ | _, n, f, hn⟩ <;>
      simp_all [place, value]

theorem exact_eq_of_not_lt {a b : Float} (ha : a.isFinite = true) (hb : b.isFinite = true)
    (hab : ¬ a < b) (hba : ¬ b < a) : exact a = exact b := by
  have hplace : ∀ {x y : Float}, x.isFinite = true → y.isFinite = true → ¬ x < y →
      place y.toModel.unpack ≤ place x.toModel.unpack := by
    intro x y hx hy hxy
    by_contra hlt
    exact hxy (decide_eq_true ((lt_iff_place _ _).mpr
      ⟨isNaN_of_isFinite hx, isNaN_of_isFinite hy, not_le.mp hlt⟩))
  exact value_eq_of_place_eq (le_antisymm (hplace hb ha hba) (hplace ha hb hab))

end CurrentDrift.Double
