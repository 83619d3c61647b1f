import CurrentDrift.Plan.Reader
import CurrentDrift.Proofs.Json.Lexing

/-! # Reading written values

A value that can be written is read back from its text, on one line or on several. Its members are
found under their names, and a whole number keeps its value. -/

namespace CurrentDrift.Json

/-! ## Values from their tokens -/

namespace Reading

/-- Goes through a list of tokens. -/
def run (r : Reading) (ts : List Token) : Option Reading := ts.foldlM step r

theorem run_cons (r : Reading) (t : Token) (ts : List Token) :
    r.run (t :: ts) = (r.step t).bind fun r' => r'.run ts := List.foldlM_cons

/-- The first token of a value does not end the array that it is in. -/
theorem run_valueOrClose {stack : List Frame} (v : Json) (ts : List Token) :
    run (.valueOrClose stack) (v.tokens ++ ts) =
      run (.value (.array [] :: stack)) (v.tokens ++ ts) := by
  match v with
  | .null | .bool _ | .number _ | .string _ | .array [] | .array (_ :: _) | .object []
  | .object (_ :: _) => rfl

mutual

theorem run_tokens {stack : List Frame} {ts : List Token} (v : Json) :
    run (.value stack) (v.tokens ++ ts) = run (push v stack) ts := by
  match v with
  | .null | .bool _ | .number _ | .string _ | .array [] | .object [] => rfl
  | .array (v :: vs) =>
      rw [tokens, List.cons_append, List.cons_append, List.append_assoc, run_cons]
      change run (.valueOrClose stack) _ = _
      rw [run_valueOrClose, run_tokens v]
      exact run_itemTokens vs
  | .object ((k, v) :: ms) =>
      simp only [tokens, List.cons_append, List.append_assoc]
      change run (.value (.member [] k :: stack)) _ = _
      rw [run_tokens v]
      exact run_memberTokens ms

theorem run_itemTokens {items : List Json} {stack : List Frame} {ts : List Token} (vs : List Json) :
    run (.separator (.array items) stack) (itemTokens vs ++ ts) =
      run (push (.array (items.reverse ++ vs)) stack) ts := by
  match vs with
  | [] =>
      rw [List.append_nil]
      rfl
  | v :: vs =>
      simp only [itemTokens, List.cons_append, List.append_assoc]
      change run (.value (.array items :: stack)) _ = _
      rw [run_tokens v]
      refine (run_itemTokens vs).trans ?_
      rw [List.reverse_cons, List.append_assoc]
      rfl

theorem run_memberTokens {members : List (Option (List Char) × Json)} {name : Option (List Char)}
    {stack : List Frame} {ts : List Token} (ms : List (Option (List Char) × Json)) :
    run (.separator (.member members name) stack) (memberTokens ms ++ ts) =
      run (push (.object (members.reverse ++ ms)) stack) ts := by
  match ms with
  | [] =>
      rw [List.append_nil]
      rfl
  | (k, v) :: ms =>
      simp only [memberTokens, List.cons_append, List.append_assoc]
      change run (.value (.member members k :: stack)) _ = _
      rw [run_tokens v]
      refine (run_memberTokens ms).trans ?_
      rw [List.reverse_cons, List.append_assoc]
      rfl

end

end Reading

theorem ofTokens?_tokens (v : Json) : ofTokens? v.tokens = some v := by
  have hrun : (Reading.value []).run (v.tokens ++ []) = (Reading.push v []).run [] :=
    Reading.run_tokens v
  rw [List.append_nil] at hrun
  rw [ofTokens?, ← Reading.run, hrun]
  rfl

theorem parse?_write (level : Option Nat) {v : Json} (h : v.isPlain = true) :
    parse? (v.write level) = some v := by
  rw [parse?, tokens?_write level h, Option.bind_some, ofTokens?_tokens]

/-! ## Members -/

theorem mapM_eq_some_map {α β : Type} {f : α → Option β} {g : α → β} {l : List α}
    (h : ∀ x ∈ l, f x = some (g x)) : l.mapM f = some (l.map g) := by
  induction l with
  | nil => rfl
  | cons x l ih =>
      obtain ⟨hx, hl⟩ := List.forall_mem_cons.mp h
      rw [List.mapM_cons, hx, ih hl]
      rfl

theorem filter_name_eq {ms : List (String × Json)} (h : (ms.map Prod.fst).Nodup)
    {m : String × Json} (hm : m ∈ ms) : ms.filter (fun x => x.1 == m.1) = [m] := by
  induction ms with
  | nil => contradiction
  | cons x ms ih =>
      obtain ⟨hx, hms⟩ := List.nodup_cons.mp h
      rcases List.mem_cons.mp hm with rfl | hm
      · have hnone : ms.filter (fun x => x.1 == m.1) = [] := by
          rw [List.filter_eq_nil_iff]
          intro y hy heq
          exact hx (eq_of_beq heq ▸ List.mem_map_of_mem hy)
        rw [List.filter_cons, if_pos (beq_self_eq_true _), hnone]
      · have hne : ¬ (x.1 == m.1) = true := fun heq =>
          hx (eq_of_beq heq ▸ List.mem_map_of_mem hm)
        rw [List.filter_cons, if_neg hne, ih hms hm]

/-- The members of an object are found under their names if no name occurs twice. -/
theorem members?_ofMembers {ms : List (String × Json)} {names : List String}
    (hnames : ms.map Prod.fst = names) (h : names.Nodup) :
    (ofMembers ms).members? names = some (ms.map fun m => some m.2) := by
  subst hnames
  rw [ofMembers, members?, List.mapM_map, mapM_eq_some_map (g := id) fun m _ => by simp,
    List.map_id, Option.bind_eq_bind, Option.bind_some, List.mapM_map]
  refine mapM_eq_some_map fun m hm => ?_
  simp only [Function.comp_apply, filter_name_eq h hm]

/-! ## Whole numbers -/

theorem head?_digits_ne {n : Nat} (h : 0 < n) : (Decimal.digits n).head? ≠ some '0' := by
  induction n using Nat.strong_induction_on with
  | _ n ih =>
    rw [Decimal.digits]
    by_cases hlt : n < 10
    · rw [Nat.toDigits_of_lt_base hlt]
      have hall : ∀ k : Fin 10, 0 < k.val → [k.val.digitChar].head? ≠ some '0' := by decide
      exact hall ⟨n, hlt⟩ h
    · have hfirst := ih (n / 10) (by omega) (by omega)
      rw [Nat.toDigits_of_base_le (by decide) (Nat.le_of_not_lt hlt)]
      rw [Decimal.digits] at hfirst
      cases hd : Nat.toDigits 10 (n / 10) with
      | nil => exact (Nat.toDigits_ne_nil hd).elim
      | cons c cs =>
          rw [hd] at hfirst
          exact hfirst

theorem ofLiteral?_digits (n : Nat) :
    Number.ofLiteral? (Decimal.digits n) = some ⟨false, Decimal.digits n, none, none⟩ := by
  have hdigits : ∀ c ∈ Decimal.digits n, c.isDigit = true := fun c hc =>
    Nat.isDigit_of_mem_toDigits (by decide) (by decide) hc
  have hspan : Decimal.spanDigits (Decimal.digits n) = (Decimal.digits n, []) := by
    rw [Decimal.spanDigits, List.takeWhile_eq_self_iff.mpr hdigits,
      List.dropWhile_eq_nil_iff.mpr hdigits]
  have hunsigned : Number.unsigned? false (Decimal.digits n) =
      some ⟨false, Decimal.digits n, none, none⟩ := by
    rw [Number.unsigned?, hspan]
    dsimp only
    split
    · next hnil => exact (Nat.toDigits_ne_nil hnil).elim
    · next hzero =>
      -- Only zero begins with a zero, and it has no second digit.
      rcases Nat.eq_zero_or_pos n with rfl | hpos
      · simp [Decimal.digits] at hzero
      · exact (head?_digits_ne hpos (by rw [hzero]; rfl)).elim
    · rfl
  unfold Number.ofLiteral?
  split
  · next hminus =>
    rw [hminus] at hdigits
    exact absurd (hdigits '-' List.mem_cons_self) (by decide)
  · exact hunsigned

theorem word?_ofNat (w : UInt64) : (ofNat w.toNat).word? = some w := by
  have hvalue : Decimal.ofDigits (Decimal.digits w.toNat) = w.toNat :=
    Nat.ofDigitChars_ten_toDigits
  simp only [ofNat, word?, ofLiteral?_digits, Option.bind_some, Number.natural?, hvalue]
  simp [w.toNat_lt]

end CurrentDrift.Json
