import CurrentDrift.Proofs.Outcome
import CurrentDrift.Text.Utf8

/-! # Decoding is the inverse of encoding

Main statement: bytes decode to a text exactly if they are the encodings of its characters, one
after the other. -/

namespace CurrentDrift.Text.Utf8

/-! ## Encodings of one character -/

theorem toNat_ofNat {n : Nat} (h : n.isValidChar) : (Char.ofNat n).toNat = n := by
  rw [Char.ofNat, dif_pos h]
  rfl

theorem isValidChar_toNat (c : Char) : c.toNat < 0xD800 ∨ 0xDFFF < c.toNat ∧ c.toNat < 0x110000 :=
  c.valid

theorem encodeChar_of_le_7F {c : Char} (h : c.toNat ≤ 0x7F) :
    String.utf8EncodeChar c = [UInt8.ofNat c.toNat] := by
  rw [String.utf8EncodeChar]
  exact if_pos h

theorem encodeChar_of_le_7FF {c : Char} (h : 0x7F < c.toNat) (h' : c.toNat ≤ 0x7FF) :
    String.utf8EncodeChar c =
      [UInt8.ofNat (c.toNat / 64 % 32 + 0xC0), UInt8.ofNat (c.toNat % 64 + 0x80)] := by
  rw [String.utf8EncodeChar]
  simp only [Char.toNat_val, Nat.not_le.mpr h, h', if_true, if_false]

theorem encodeChar_of_le_FFFF {c : Char} (h : 0x7FF < c.toNat) (h' : c.toNat ≤ 0xFFFF) :
    String.utf8EncodeChar c =
      [UInt8.ofNat (c.toNat / 4096 % 16 + 0xE0), UInt8.ofNat (c.toNat / 64 % 64 + 0x80),
        UInt8.ofNat (c.toNat % 64 + 0x80)] := by
  have h0 : 0x7F < c.toNat := by omega
  rw [String.utf8EncodeChar]
  simp only [Char.toNat_val, Nat.not_le.mpr h0, Nat.not_le.mpr h, h', if_true, if_false]

theorem encodeChar_of_FFFF_lt {c : Char} (h : 0xFFFF < c.toNat) :
    String.utf8EncodeChar c =
      [UInt8.ofNat (c.toNat / 262144 % 8 + 0xF0), UInt8.ofNat (c.toNat / 4096 % 64 + 0x80),
        UInt8.ofNat (c.toNat / 64 % 64 + 0x80), UInt8.ofNat (c.toNat % 64 + 0x80)] := by
  have h0 : 0x7F < c.toNat := by omega
  have h1 : 0x7FF < c.toNat := by omega
  rw [String.utf8EncodeChar]
  simp only [Char.toNat_val, Nat.not_le.mpr h0, Nat.not_le.mpr h1, Nat.not_le.mpr h, if_false]

/-! ## Continuation bytes -/

/-- What is left after a result, without the bound on its length. -/
def value {δ : Type} {bs : List UInt8} (x : δ × { rest : List UInt8 // rest.length ≤ bs.length }) :
    δ × List UInt8 :=
  (x.1, x.2.val)

theorem continuation_nil (code seen : Nat) (bs : List UInt8) :
    (continuation code seen [] bs).map value = .ok (code, bs) :=
  rfl

theorem continuation_nil_eq_ok_iff {code seen n : Nat} {bs rest : List UInt8} :
    (continuation code seen [] bs).map value = .ok (n, rest) ↔ code = n ∧ bs = rest := by
  rw [continuation_nil, Except.ok.injEq, Prod.mk.injEq]

theorem continuation_cons (code seen : Nat) (low high : UInt8) (ranges : List (UInt8 × UInt8))
    (b : UInt8) (bs : List UInt8) :
    (continuation code seen ((low, high) :: ranges) (b :: bs)).map value =
      if low.toNat ≤ b.toNat ∧ b.toNat ≤ high.toNat then
        (continuation (code * 64 + (b.toNat - 0x80)) (seen + 1) ranges bs).map value
      else .error (.illFormed seen) := by
  rw [continuation]
  simp only [Bool.and_eq_true, decide_eq_true_eq, UInt8.le_iff_toNat_le]
  split
  · cases continuation (code * 64 + (b.toNat - 0x80)) (seen + 1) ranges bs <;> rfl
  · rfl

/-- The first byte continues the sequence if it lies in the first range. -/
theorem continuation_cons_eq_ok_iff {code seen : Nat} {low high : UInt8}
    {ranges : List (UInt8 × UInt8)} {bs : List UInt8} {result : Nat × List UInt8} :
    (continuation code seen ((low, high) :: ranges) bs).map value = .ok result ↔
      ∃ b bs', bs = b :: bs' ∧ (low.toNat ≤ b.toNat ∧ b.toNat ≤ high.toNat) ∧
        (continuation (code * 64 + (b.toNat - 0x80)) (seen + 1) ranges bs').map value =
          .ok result := by
  cases bs with
  | nil => simp [continuation, Except.map]
  | cons b bs =>
      rw [continuation_cons]
      split
      · next hb =>
        constructor
        · exact fun h => ⟨b, bs, rfl, hb, h⟩
        · rintro ⟨b', bs', heq, -, h⟩
          obtain ⟨rfl, rfl⟩ := List.cons.inj heq
          exact h
      · next hb =>
        simp only [reduceCtorEq, false_iff]
        rintro ⟨b', bs', heq, hin, -⟩
        obtain ⟨rfl, rfl⟩ := List.cons.inj heq
        exact hb hin

/-! ## Leading bytes -/

theorem shape?_of_lt_80 {lead : UInt8} (h : lead.toNat < 0x80) :
    shape? lead = some (lead.toNat, []) := by
  unfold shape?
  exact if_pos h

theorem shape?_of_lt_E0 {lead : UInt8} (h : 0xC2 ≤ lead.toNat) (h' : lead.toNat < 0xE0) :
    shape? lead = some (lead.toNat - 0xC0, [(0x80, 0xBF)]) := by
  unfold shape?
  simp only
  rw [if_neg (by omega), if_neg (by omega), if_pos h']

theorem shape?_of_lt_F0 {lead : UInt8} (h : 0xE0 ≤ lead.toNat) (h' : lead.toNat < 0xF0) :
    shape? lead = some (lead.toNat - 0xE0,
      [(if lead.toNat = 0xE0 then 0xA0 else 0x80, if lead.toNat = 0xED then 0x9F else 0xBF),
        (0x80, 0xBF)]) := by
  unfold shape?
  simp only
  rw [if_neg (by omega), if_neg (by omega), if_neg (by omega), if_pos h']

theorem shape?_of_lt_F5 {lead : UInt8} (h : 0xF0 ≤ lead.toNat) (h' : lead.toNat < 0xF5) :
    shape? lead = some (lead.toNat - 0xF0,
      [(if lead.toNat = 0xF0 then 0x90 else 0x80, if lead.toNat = 0xF4 then 0x8F else 0xBF),
        (0x80, 0xBF), (0x80, 0xBF)]) := by
  unfold shape?
  simp only
  rw [if_neg (by omega), if_neg (by omega), if_neg (by omega), if_neg (by omega), if_pos h']

/-- No other byte begins a sequence. -/
theorem shape?_eq_none {lead : UInt8}
    (h : 0x80 ≤ lead.toNat ∧ lead.toNat < 0xC2 ∨ 0xF5 ≤ lead.toNat) : shape? lead = none := by
  unfold shape?
  simp only
  rcases h with h | h
  · rw [if_neg (by omega), if_pos h.2]
  · rw [if_neg (by omega), if_neg (by omega), if_neg (by omega), if_neg (by omega),
      if_neg (by omega)]

/-! ## One character -/

/-- A sequence decodes to the character whose code its bytes make up. -/
theorem character_eq_ok_iff {lead : UInt8} {bits : Nat} {ranges : List (UInt8 × UInt8)}
    (h : shape? lead = some (bits, ranges)) {bs rest : List UInt8} {c : Char} :
    (character lead bs).map value = .ok (c, rest) ↔
      ∃ code, (continuation bits 1 ranges bs).map value = .ok (code, rest) ∧
        Char.ofNat code = c := by
  have hmap : (character lead bs).map value =
      ((continuation bits 1 ranges bs).map value).map fun x => (Char.ofNat x.1, x.2) := by
    simp only [character, h]
    cases continuation bits 1 ranges bs <;> rfl
  rw [hmap, map_eq_ok_iff]
  constructor
  · rintro ⟨⟨code, r⟩, hcode, heq⟩
    obtain ⟨hc, rfl⟩ := Prod.mk.inj heq
    exact ⟨code, hcode, hc⟩
  · rintro ⟨code, hcode, rfl⟩
    exact ⟨(code, rest), hcode, rfl⟩

/-- A byte is the one that a number stands for. -/
theorem ofNat_eq {n : Nat} {b : UInt8} (h : n = b.toNat) : UInt8.ofNat n = b := by
  rw [h, UInt8.ofNat_toNat]

theorem encode_two {a x : UInt8} (ha : 0xC2 ≤ a.toNat) (ha' : a.toNat < 0xE0)
    (hx : 0x80 ≤ x.toNat ∧ x.toNat ≤ 0xBF) :
    String.utf8EncodeChar (Char.ofNat ((a.toNat - 0xC0) * 64 + (x.toNat - 0x80))) = [a, x] := by
  have hc := toNat_ofNat (Or.inl (by omega : (a.toNat - 0xC0) * 64 + (x.toNat - 0x80) < 0xD800))
  rw [encodeChar_of_le_7FF (by omega) (by omega), hc, ofNat_eq (by omega : _ = a.toNat),
    ofNat_eq (by omega : _ = x.toNat)]

theorem encode_three {a x y : UInt8} (ha : 0xE0 ≤ a.toNat) (ha' : a.toNat < 0xF0)
    (hx : 0x80 ≤ x.toNat ∧ (a.toNat = 0xE0 → 0xA0 ≤ x.toNat))
    (hx' : x.toNat ≤ 0xBF ∧ (a.toNat = 0xED → x.toNat ≤ 0x9F))
    (hy : 0x80 ≤ y.toNat ∧ y.toNat ≤ 0xBF) :
    String.utf8EncodeChar (Char.ofNat
      (((a.toNat - 0xE0) * 64 + (x.toNat - 0x80)) * 64 + (y.toNat - 0x80))) = [a, x, y] := by
  have hvalid : Nat.isValidChar
      (((a.toNat - 0xE0) * 64 + (x.toNat - 0x80)) * 64 + (y.toNat - 0x80)) := by
    unfold Nat.isValidChar
    omega
  have hc := toNat_ofNat hvalid
  rw [encodeChar_of_le_FFFF (by omega) (by omega), hc, ofNat_eq (by omega : _ = a.toNat),
    ofNat_eq (by omega : _ = x.toNat), ofNat_eq (by omega : _ = y.toNat)]

theorem encode_four {a x y z : UInt8} (ha : 0xF0 ≤ a.toNat) (ha' : a.toNat < 0xF5)
    (hx : 0x80 ≤ x.toNat ∧ (a.toNat = 0xF0 → 0x90 ≤ x.toNat))
    (hx' : x.toNat ≤ 0xBF ∧ (a.toNat = 0xF4 → x.toNat ≤ 0x8F))
    (hy : 0x80 ≤ y.toNat ∧ y.toNat ≤ 0xBF) (hz : 0x80 ≤ z.toNat ∧ z.toNat ≤ 0xBF) :
    String.utf8EncodeChar (Char.ofNat
      ((((a.toNat - 0xF0) * 64 + (x.toNat - 0x80)) * 64 + (y.toNat - 0x80)) * 64 +
        (z.toNat - 0x80))) = [a, x, y, z] := by
  have hvalid : Nat.isValidChar
      ((((a.toNat - 0xF0) * 64 + (x.toNat - 0x80)) * 64 + (y.toNat - 0x80)) * 64 +
        (z.toNat - 0x80)) := by
    unfold Nat.isValidChar
    omega
  have hc := toNat_ofNat hvalid
  rw [encodeChar_of_FFFF_lt (by omega), hc, ofNat_eq (by omega : _ = a.toNat),
    ofNat_eq (by omega : _ = x.toNat), ofNat_eq (by omega : _ = y.toNat),
    ofNat_eq (by omega : _ = z.toNat)]

theorem toNat_ite_le {p : Prop} [Decidable p] {a b x : UInt8}
    (h : (if p then a else b).toNat ≤ x.toNat) (hab : b.toNat ≤ a.toNat) :
    b.toNat ≤ x.toNat ∧ (p → a.toNat ≤ x.toNat) := by
  split at h
  · exact ⟨Nat.le_trans hab h, fun _ => h⟩
  · next hp => exact ⟨h, fun hp' => (hp hp').elim⟩

theorem le_toNat_ite {p : Prop} [Decidable p] {a b x : UInt8}
    (h : x.toNat ≤ (if p then a else b).toNat) (hab : a.toNat ≤ b.toNat) :
    x.toNat ≤ b.toNat ∧ (p → x.toNat ≤ a.toNat) := by
  split at h
  · exact ⟨Nat.le_trans h hab, fun _ => h⟩
  · next hp => exact ⟨h, fun hp' => (hp hp').elim⟩

/-- What a sequence of bytes decodes to is encoded by just these bytes. -/
theorem encode_of_character {lead : UInt8} {bs rest : List UInt8} {c : Char}
    (h : (character lead bs).map value = .ok (c, rest)) :
    lead :: bs = String.utf8EncodeChar c ++ rest := by
  rcases Nat.lt_or_ge lead.toNat 0x80 with h1 | h1
  · obtain ⟨code, hcode, rfl⟩ := (character_eq_ok_iff (shape?_of_lt_80 h1)).mp h
    obtain ⟨rfl, rfl⟩ := continuation_nil_eq_ok_iff.mp hcode
    have hc := toNat_ofNat (Or.inl (by omega : lead.toNat < 0xD800))
    rw [encodeChar_of_le_7F (by omega), hc, UInt8.ofNat_toNat]
    rfl
  rcases Nat.lt_or_ge lead.toNat 0xC2 with h2 | h2
  · simp [character, shape?_eq_none (.inl ⟨h1, h2⟩), Except.map] at h
  rcases Nat.lt_or_ge lead.toNat 0xE0 with h3 | h3
  · obtain ⟨code, hcode, rfl⟩ := (character_eq_ok_iff (shape?_of_lt_E0 h2 h3)).mp h
    obtain ⟨x, bs, rfl, hx, hcode⟩ := continuation_cons_eq_ok_iff.mp hcode
    obtain ⟨rfl, rfl⟩ := continuation_nil_eq_ok_iff.mp hcode
    rw [encode_two h2 h3 hx]
    rfl
  rcases Nat.lt_or_ge lead.toNat 0xF0 with h4 | h4
  · obtain ⟨code, hcode, rfl⟩ := (character_eq_ok_iff (shape?_of_lt_F0 h3 h4)).mp h
    obtain ⟨x, bs, rfl, hx, hcode⟩ := continuation_cons_eq_ok_iff.mp hcode
    obtain ⟨y, bs, rfl, hy, hcode⟩ := continuation_cons_eq_ok_iff.mp hcode
    obtain ⟨rfl, rfl⟩ := continuation_nil_eq_ok_iff.mp hcode
    rw [encode_three h3 h4 (toNat_ite_le hx.1 (by decide)) (le_toNat_ite hx.2 (by decide)) hy]
    rfl
  rcases Nat.lt_or_ge lead.toNat 0xF5 with h5 | h5
  · obtain ⟨code, hcode, rfl⟩ := (character_eq_ok_iff (shape?_of_lt_F5 h4 h5)).mp h
    obtain ⟨x, bs, rfl, hx, hcode⟩ := continuation_cons_eq_ok_iff.mp hcode
    obtain ⟨y, bs, rfl, hy, hcode⟩ := continuation_cons_eq_ok_iff.mp hcode
    obtain ⟨z, bs, rfl, hz, hcode⟩ := continuation_cons_eq_ok_iff.mp hcode
    obtain ⟨rfl, rfl⟩ := continuation_nil_eq_ok_iff.mp hcode
    rw [encode_four h4 h5 (toNat_ite_le hx.1 (by decide)) (le_toNat_ite hx.2 (by decide)) hy hz]
    rfl
  · simp [character, shape?_eq_none (.inr h5), Except.map] at h

/-- A byte that holds six bits of the code. -/
theorem continuation_tail {code seen n : Nat} {ranges : List (UInt8 × UInt8)} {b : UInt8}
    {bs : List UInt8} (hb : b.toNat = n % 64 + 0x80) (hcode : code = n / 64) :
    (continuation code seen ((0x80, 0xBF) :: ranges) (b :: bs)).map value =
      (continuation n (seen + 1) ranges bs).map value := by
  have hin : 0x80 ≤ b.toNat ∧ b.toNat ≤ 0xBF := by omega
  have hn : code * 64 + (b.toNat - 0x80) = n := by omega
  rw [continuation_cons, hn]
  exact if_pos hin

theorem ite_toNat_le {p : Prop} [Decidable p] {a b : UInt8} {n : Nat} (ha : p → a.toNat ≤ n)
    (hb : b.toNat ≤ n) : (if p then a else b).toNat ≤ n := by
  split
  · next hp => exact ha hp
  · exact hb

theorem le_ite_toNat {p : Prop} [Decidable p] {a b : UInt8} {n : Nat} (ha : p → n ≤ a.toNat)
    (hb : n ≤ b.toNat) : n ≤ (if p then a else b).toNat := by
  split
  · next hp => exact ha hp
  · exact hb

theorem character_of_le_7F {c : Char} (h : c.toNat ≤ 0x7F) (rest : List UInt8) :
    (character (UInt8.ofNat c.toNat) rest).map value = .ok (c, rest) := by
  have ha := UInt8.toNat_ofNat_of_lt' (by omega : c.toNat < 256)
  refine (character_eq_ok_iff (shape?_of_lt_80 (by omega))).mpr ⟨_, ?_, c.ofNat_toNat⟩
  rw [ha, continuation_nil]

theorem character_of_le_7FF {c : Char} (h : 0x7F < c.toNat) (h' : c.toNat ≤ 0x7FF)
    (rest : List UInt8) :
    (character (UInt8.ofNat (c.toNat / 64 % 32 + 0xC0))
      (UInt8.ofNat (c.toNat % 64 + 0x80) :: rest)).map value = .ok (c, rest) := by
  have ha := UInt8.toNat_ofNat_of_lt' (by omega : c.toNat / 64 % 32 + 0xC0 < 256)
  have hx := UInt8.toNat_ofNat_of_lt' (by omega : c.toNat % 64 + 0x80 < 256)
  refine (character_eq_ok_iff (shape?_of_lt_E0 (by omega) (by omega))).mpr ⟨_, ?_, c.ofNat_toNat⟩
  rw [continuation_tail (n := c.toNat) hx (by omega), continuation_nil]

theorem character_of_le_FFFF {c : Char} (h : 0x7FF < c.toNat) (h' : c.toNat ≤ 0xFFFF)
    (rest : List UInt8) :
    (character (UInt8.ofNat (c.toNat / 4096 % 16 + 0xE0))
      (UInt8.ofNat (c.toNat / 64 % 64 + 0x80) :: UInt8.ofNat (c.toNat % 64 + 0x80) ::
        rest)).map value = .ok (c, rest) := by
  have hvalid := isValidChar_toNat c
  have ha := UInt8.toNat_ofNat_of_lt' (by omega : c.toNat / 4096 % 16 + 0xE0 < 256)
  have hx := UInt8.toNat_ofNat_of_lt' (by omega : c.toNat / 64 % 64 + 0x80 < 256)
  have hy := UInt8.toNat_ofNat_of_lt' (by omega : c.toNat % 64 + 0x80 < 256)
  have hcode : (UInt8.ofNat (c.toNat / 4096 % 16 + 0xE0)).toNat - 0xE0 = c.toNat / 4096 := by
    omega
  refine (character_eq_ok_iff (shape?_of_lt_F0 (by omega) (by omega))).mpr ⟨_, ?_, c.ofNat_toNat⟩
  rw [hcode, continuation_cons, if_pos, hx, continuation_tail (n := c.toNat) hy (by omega),
    continuation_nil]
  -- No code below 0x800 and no surrogate is written in three bytes.
  rw [hx]
  refine ⟨ite_toNat_le (fun _ => ?_) ?_, le_ite_toNat (fun _ => ?_) ?_⟩
  · change 0xA0 ≤ _
    omega
  · change 0x80 ≤ _
    omega
  · change _ ≤ 0x9F
    omega
  · change _ ≤ 0xBF
    omega

theorem character_of_FFFF_lt {c : Char} (h : 0xFFFF < c.toNat) (rest : List UInt8) :
    (character (UInt8.ofNat (c.toNat / 262144 % 8 + 0xF0))
      (UInt8.ofNat (c.toNat / 4096 % 64 + 0x80) :: UInt8.ofNat (c.toNat / 64 % 64 + 0x80) ::
        UInt8.ofNat (c.toNat % 64 + 0x80) :: rest)).map value = .ok (c, rest) := by
  have hvalid := isValidChar_toNat c
  have ha := UInt8.toNat_ofNat_of_lt' (by omega : c.toNat / 262144 % 8 + 0xF0 < 256)
  have hx := UInt8.toNat_ofNat_of_lt' (by omega : c.toNat / 4096 % 64 + 0x80 < 256)
  have hy := UInt8.toNat_ofNat_of_lt' (by omega : c.toNat / 64 % 64 + 0x80 < 256)
  have hz := UInt8.toNat_ofNat_of_lt' (by omega : c.toNat % 64 + 0x80 < 256)
  have hcode : (UInt8.ofNat (c.toNat / 262144 % 8 + 0xF0)).toNat - 0xF0 = c.toNat / 262144 := by
    omega
  refine (character_eq_ok_iff (shape?_of_lt_F5 (by omega) (by omega))).mpr ⟨_, ?_, c.ofNat_toNat⟩
  rw [hcode, continuation_cons, if_pos, hx, continuation_tail (n := c.toNat / 64) hy (by omega),
    continuation_tail (n := c.toNat) hz (by omega), continuation_nil]
  -- No code below 0x10000 and none above 0x10FFFF is written in four bytes.
  rw [hx]
  refine ⟨ite_toNat_le (fun _ => ?_) ?_, le_ite_toNat (fun _ => ?_) ?_⟩
  · change 0x90 ≤ _
    omega
  · change 0x80 ≤ _
    omega
  · change _ ≤ 0x8F
    omega
  · change _ ≤ 0xBF
    omega

/-- The encoding of a character decodes to it. -/
theorem character_of_encode {lead : UInt8} {bs rest : List UInt8} {c : Char}
    (h : lead :: bs = String.utf8EncodeChar c ++ rest) :
    (character lead bs).map value = .ok (c, rest) := by
  rcases Nat.lt_or_ge 0x7F c.toNat with h1 | h1
  · rcases Nat.lt_or_ge 0x7FF c.toNat with h2 | h2
    · rcases Nat.lt_or_ge 0xFFFF c.toNat with h3 | h3
      · rw [encodeChar_of_FFFF_lt h3] at h
        obtain ⟨rfl, rfl⟩ := List.cons.inj h
        exact character_of_FFFF_lt h3 rest
      · rw [encodeChar_of_le_FFFF h2 h3] at h
        obtain ⟨rfl, rfl⟩ := List.cons.inj h
        exact character_of_le_FFFF h2 h3 rest
    · rw [encodeChar_of_le_7FF h1 h2] at h
      obtain ⟨rfl, rfl⟩ := List.cons.inj h
      exact character_of_le_7FF h1 h2 rest
  · rw [encodeChar_of_le_7F h1] at h
    obtain ⟨rfl, rfl⟩ := List.cons.inj h
    exact character_of_le_7F h1 _

/-! ## Texts -/

theorem decodeFrom_eq_ok_iff (start : Nat) (done : List Char) (bytes : List UInt8)
    (text : List Char) :
    decodeFrom start done bytes = .ok text ↔
      ∃ cs, text = done.reverse ++ cs ∧ bytes = cs.flatMap String.utf8EncodeChar := by
  induction hn : bytes.length using Nat.strongRecOn generalizing start done bytes with
  | ind n ih =>
      cases bytes with
      | nil =>
          rw [decodeFrom]
          constructor
          · intro h
            exact ⟨[], by simpa using (Except.ok.inj h).symm, rfl⟩
          · rintro ⟨cs, rfl, hcs⟩
            cases cs with
            | nil => simp
            | cons c cs =>
                have hlen := congrArg List.length hcs
                have := c.utf8Size_pos
                simp [String.length_utf8EncodeChar] at hlen
                omega
      | cons lead bs =>
          rw [decodeFrom]
          constructor
          · intro h
            split at h
            · contradiction
            · next c rest hrest hc =>
              obtain ⟨cs, rfl, rfl⟩ := (ih rest.length (by simp at hn; omega) _ _ rest rfl).mp h
              have hlead := encode_of_character (congrArg (Except.map value) hc)
              exact ⟨c :: cs, by simp, hlead⟩
          · rintro ⟨cs, rfl, hcs⟩
            cases cs with
            | nil => contradiction
            | cons c cs =>
                rw [List.flatMap_cons] at hcs
                obtain ⟨⟨c', rest⟩, hc, heq⟩ := map_eq_ok_iff.mp (character_of_encode hcs)
                simp only [value, Prod.mk.injEq] at heq
                obtain ⟨rfl, hrest⟩ := heq
                have hlt : rest.val.length < n := by
                  have := rest.property
                  simp at hn
                  omega
                simp only [hc]
                exact (ih _ hlt _ _ _ rfl).mpr ⟨cs, by simp, hrest⟩

/-- Bytes are a text exactly if they are the encodings of its characters in order. -/
theorem decode_eq_ok_iff (bytes : List UInt8) (text : List Char) :
    decode bytes = .ok text ↔ bytes = text.flatMap String.utf8EncodeChar := by
  rw [decode, decodeFrom_eq_ok_iff]
  simp

end CurrentDrift.Text.Utf8
