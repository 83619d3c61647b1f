import CurrentDrift.Json.Printer
import CurrentDrift.Json.Token
import Mathlib.Data.List.TakeWhile

/-! # The tokens of a written value

However a value is laid out, the lexer finds the same tokens in its text. A bare word has no end of
its own, so that what is written is followed up to the character that ends it. -/

namespace CurrentDrift.Json

/-! ## Values that can be written -/

mutual

/-- Whether all strings and names of a value have a content and all numbers are number literals. -/
def isPlain : Json → Bool
  | .number l => (Number.ofLiteral? l).isSome
  | .string content => content.isSome
  | .array vs => allPlain vs
  | .object ms => allPlainMembers ms
  | _ => true

def allPlain : List Json → Bool
  | [] => true
  | v :: vs => v.isPlain && allPlain vs

def allPlainMembers : List (Option (List Char) × Json) → Bool
  | [] => true
  | (k, v) :: ms => k.isSome && v.isPlain && allPlainMembers ms

end

mutual

/-- The tokens that spell a value out. -/
def tokens : Json → List Token
  | .array [] => [.openArray, .closeArray]
  | .array (v :: vs) => .openArray :: v.tokens ++ itemTokens vs
  | .object [] => [.openObject, .closeObject]
  | .object ((k, v) :: ms) =>
    .openObject :: .scalar (.string k) :: .colon :: v.tokens ++ memberTokens ms
  | v => [.scalar v]

/-- The tokens of an array after its first item. -/
def itemTokens : List Json → List Token
  | [] => [.closeArray]
  | v :: vs => .comma :: v.tokens ++ itemTokens vs

/-- The tokens of an object after its first member. -/
def memberTokens : List (Option (List Char) × Json) → List Token
  | [] => [.closeObject]
  | (k, v) :: ms => .comma :: .scalar (.string k) :: .colon :: v.tokens ++ memberTokens ms

end

/-! ## Number literals -/

/-- Whether a character can occur in a number literal. -/
def isNumeral (c : Char) : Bool := c.isDigit || ['-', '+', '.', 'e', 'E'].contains c

theorem isNumeral_of_isDigit {c : Char} (h : c.isDigit = true) : isNumeral c = true := by
  simp [isNumeral, h]

namespace Number

variable {negative : Bool} {cs : List Char}

theorem isNumeral_of_exponentPart? (h : (exponentPart? negative cs).isSome) :
    ∀ c ∈ cs, isNumeral c = true := by
  intro c hc
  by_cases hdigits : cs.all Char.isDigit = true
  · exact isNumeral_of_isDigit (List.all_eq_true.mp hdigits c hc)
  · simp [exponentPart?, hdigits] at h

theorem isNumeral_of_tail? (h : (tail? cs).isSome) : ∀ c ∈ cs, isNumeral c = true := by
  unfold tail? at h
  split at h
  · simp
  · next c r =>
    split at h
    · next hmark =>
      have hc : isNumeral c = true := by
        rcases (by simpa using hmark : c = 'e' ∨ c = 'E') with rfl | rfl <;> decide
      have hr : ∀ x ∈ r, isNumeral x = true := by
        split at h <;> rw [Option.isSome_map] at h
        · exact List.forall_mem_cons.mpr ⟨by decide, isNumeral_of_exponentPart? h⟩
        · exact List.forall_mem_cons.mpr ⟨by decide, isNumeral_of_exponentPart? h⟩
        · exact isNumeral_of_exponentPart? h
      exact List.forall_mem_cons.mpr ⟨hc, hr⟩
    · contradiction

theorem isNumeral_of_spanDigits (h : ∀ c ∈ (Decimal.spanDigits cs).2, isNumeral c = true) :
    ∀ c ∈ cs, isNumeral c = true := by
  intro c hc
  rw [← List.takeWhile_append_dropWhile (p := Char.isDigit) (l := cs)] at hc
  rcases List.mem_append.mp hc with hdigit | hrest
  · exact isNumeral_of_isDigit (List.mem_takeWhile_imp hdigit)
  · exact h c hrest

theorem isNumeral_of_afterWhole? {whole : List Char} (h : (afterWhole? negative whole cs).isSome) :
    ∀ c ∈ cs, isNumeral c = true := by
  unfold afterWhole? at h
  split at h
  · dsimp only at h
    split at h
    · contradiction
    · rw [Option.isSome_map] at h
      exact List.forall_mem_cons.mpr ⟨by decide, isNumeral_of_spanDigits (isNumeral_of_tail? h)⟩
  · rw [Option.isSome_map] at h
    exact isNumeral_of_tail? h

theorem isNumeral_of_unsigned? (h : (unsigned? negative cs).isSome) :
    cs ≠ [] ∧ ∀ c ∈ cs, isNumeral c = true := by
  constructor
  · rintro rfl
    simp [unsigned?, Decimal.spanDigits] at h
  · apply isNumeral_of_spanDigits
    unfold unsigned? at h
    dsimp only at h
    split at h
    · contradiction
    · contradiction
    · exact isNumeral_of_afterWhole? h

theorem isNumeral_of_ofLiteral? (h : (ofLiteral? cs).isSome) :
    cs ≠ [] ∧ ∀ c ∈ cs, isNumeral c = true := by
  unfold ofLiteral? at h
  split at h
  · exact ⟨by simp, List.forall_mem_cons.mpr ⟨by decide, (isNumeral_of_unsigned? h).2⟩⟩
  · exact isNumeral_of_unsigned? h

end Number

namespace LexState

/-! ## Words -/

theorem isNumeral_eq_false_of_endsWord {c : Char} (h : endsWord c = true) :
    isNumeral c = false := by
  simp only [endsWord, isJsonBlank, Bool.or_eq_true, decide_eq_true_eq] at h
  rcases h with ((((rfl | rfl) | rfl) | rfl) | rfl) | h
  · decide
  · decide
  · decide
  · decide
  · decide
  · unfold punctuation? at h
    split at h <;> first | decide | contradiction

/-- A text that ends a bare word before it: there is nothing more, or a character between tokens. -/
def EndsWord (cs : List Char) : Prop := ∀ c ∈ cs.head?, endsWord c = true

/-- Goes through the rest of a text. -/
def run (s : LexState) (cs : List Char) : Option (List Token) := (cs.foldlM step s).bind finish?

variable {done : List Token} {cs : List Char} {c : Char}

theorem run_cons (s : LexState) : s.run (c :: cs) = (s.step c).bind fun s' => s'.run cs := by
  rw [run, List.foldlM_cons, Option.bind_eq_bind, Option.bind_assoc]
  rfl

theorem step_between : step ⟨.between, done⟩ c = stepBetween done c := rfl

theorem step_word (chars : List Char) : step ⟨.word chars, done⟩ c =
    if endsWord c then (ofWord? chars.reverse).bind fun v => stepBetween (.scalar v :: done) c
    else some ⟨.word (c :: chars), done⟩ := rfl

theorem step_string (b : StringBuffer) : step ⟨.string b, done⟩ c =
    if c = '"' then some ⟨.between, .scalar (.string b.content?) :: done⟩
    else if c = '\\' then some ⟨.escape b, done⟩
    else if c.toNat < 0x20 then none
    else some ⟨.string (b.addChar c), done⟩ := rfl

theorem step_unit (b : StringBuffer) (missing value : Nat) : step ⟨.unit b missing value, done⟩ c =
    (hexDigit? c).bind fun d =>
      if missing = 1 then some ⟨.string (b.addUnit (16 * value + d)), done⟩
      else some ⟨.unit b (missing - 1) (16 * value + d), done⟩ := rfl

theorem run_blank (h : isJsonBlank c = true) :
    run ⟨.between, done⟩ (c :: cs) = run ⟨.between, done⟩ cs := by
  rw [run_cons, step_between, stepBetween, if_pos h, Option.bind_some]

theorem run_blanks {bs : List Char} (h : ∀ b ∈ bs, isJsonBlank b = true) :
    run ⟨.between, done⟩ (bs ++ cs) = run ⟨.between, done⟩ cs := by
  induction bs with
  | nil => rfl
  | cons b bs ih =>
      obtain ⟨hb, hbs⟩ := List.forall_mem_cons.mp h
      rw [List.cons_append, run_blank hb, ih hbs]

theorem isJsonBlank_of_mem_lineAt {level : Option Nat} (h : c ∈ lineAt level) :
    isJsonBlank c = true := by
  cases level with
  | none => contradiction
  | some level =>
      rcases List.mem_cons.mp h with rfl | hc
      · decide
      · rw [List.eq_of_mem_replicate hc]
        decide

theorem run_lineAt (level : Option Nat) :
    run ⟨.between, done⟩ (lineAt level ++ cs) = run ⟨.between, done⟩ cs :=
  run_blanks fun _ => isJsonBlank_of_mem_lineAt

theorem run_punctuation {t : Token} (h : punctuation? c = some t) :
    run ⟨.between, done⟩ (c :: cs) = run ⟨.between, t :: done⟩ cs := by
  have hstep : stepBetween done c = some ⟨.between, t :: done⟩ := by
    unfold punctuation? at h
    split at h <;> first | contradiction | (obtain rfl := Option.some.inj h; rfl)
  rw [run_cons, step_between, hstep, Option.bind_some]

theorem run_word_append {word chars : List Char} (h : ∀ c ∈ chars, endsWord c = false) :
    run ⟨.word word, done⟩ (chars ++ cs) = run ⟨.word (chars.reverse ++ word), done⟩ cs := by
  induction chars generalizing word with
  | nil => rfl
  | cons c chars ih =>
      obtain ⟨hc, hchars⟩ := List.forall_mem_cons.mp h
      rw [List.cons_append, run_cons, step_word, hc, if_neg Bool.false_ne_true, Option.bind_some,
        ih hchars, List.reverse_cons, List.append_assoc]
      rfl

/-- Where a word ends it counts as the value that it names. -/
theorem run_word_end {word : List Char} {v : Json} (hv : ofWord? word.reverse = some v)
    (h : EndsWord cs) : run ⟨.word word, done⟩ cs = run ⟨.between, .scalar v :: done⟩ cs := by
  cases cs with
  | nil => simp [run, finish?, hv]
  | cons c cs =>
      rw [run_cons, run_cons, step_word, if_pos (h c rfl), hv]
      rfl

theorem run_word (word : List Char) {v : Json} (hne : word ≠ [])
    (hword : word.any endsWord = false) (hv : ofWord? word = some v) (h : EndsWord cs) :
    run ⟨.between, done⟩ (word ++ cs) = run ⟨.between, .scalar v :: done⟩ cs := by
  cases word with
  | nil => contradiction
  | cons c chars =>
      obtain ⟨hc, hchars⟩ : endsWord c = false ∧ ∀ x ∈ chars, endsWord x = false := by
        simpa using hword
      have hstep : stepBetween done c = some ⟨.word [c], done⟩ := by
        simp only [endsWord, Bool.or_eq_false_iff, decide_eq_false_iff_not,
          Option.isSome_eq_false_iff, Option.isNone_iff_eq_none] at hc
        rw [stepBetween, hc.1.1, if_neg Bool.false_ne_true, if_neg hc.1.2, hc.2]
      rw [List.cons_append, run_cons, step_between, hstep, Option.bind_some, run_word_append hchars,
        run_word_end (by simpa using hv) h]

theorem ofWord?_of_ofLiteral? {l : List Char} (h : (Number.ofLiteral? l).isSome) :
    ofWord? l = some (.number l) := by
  have hname : ∀ name : List Char, Number.ofLiteral? name = none → l ≠ name := by
    rintro name hnone rfl
    simp [hnone] at h
  have ofList_inj : ∀ {name : List Char}, String.ofList l = String.ofList name → l = name :=
    fun heq => by simpa using congrArg String.toList heq
  obtain ⟨n, hn⟩ := Option.isSome_iff_exists.mp h
  unfold ofWord?
  split
  · next heq => exact (hname "null".toList (by decide) (ofList_inj heq)).elim
  · next heq => exact (hname "true".toList (by decide) (ofList_inj heq)).elim
  · next heq => exact (hname "false".toList (by decide) (ofList_inj heq)).elim
  · simp [hn]

theorem run_number {l : List Char} (hl : (Number.ofLiteral? l).isSome) (h : EndsWord cs) :
    run ⟨.between, done⟩ (l ++ cs) = run ⟨.between, .scalar (.number l) :: done⟩ cs := by
  obtain ⟨hne, hnumeral⟩ := Number.isNumeral_of_ofLiteral? hl
  refine run_word l hne (List.any_eq_false.mpr fun c hc hend => ?_) (ofWord?_of_ofLiteral? hl) h
  have hnot := isNumeral_eq_false_of_endsWord hend
  rw [hnumeral c hc] at hnot
  contradiction

/-! ## Strings -/

theorem hexDigit?_hexDigits {n : Nat} (h : n < 16) : hexDigit? (hexDigits.getD n '0') = some n := by
  have hall : ∀ k : Fin 16, hexDigit? (hexDigits.getD k.val '0') = some k.val := by decide
  exact hall ⟨n, h⟩

theorem run_escape {chars : List Char} :
    run ⟨.string ⟨chars, none, true⟩, done⟩ (escape c ++ cs) =
      run ⟨.string ⟨c :: chars, none, true⟩, done⟩ cs := by
  unfold escape
  split
  · rfl
  · rfl
  · rfl
  · rfl
  · rfl
  · rfl
  · rfl
  · next hquote hbackslash _ _ _ _ _ =>
    split
    · next hcontrol =>
      have hhigh := hexDigit?_hexDigits (n := c.toNat / 16) (by omega)
      have hlow := hexDigit?_hexDigits (n := c.toNat % 16) (by omega)
      have hvalue : 16 * (c.toNat / 16) + c.toNat % 16 = c.toNat := by omega
      have hunit : StringBuffer.addUnit ⟨chars, none, true⟩ c.toNat = ⟨c :: chars, none, true⟩ := by
        have hhalf : ¬ 0xD800 ≤ c.toNat ∧ ¬ 0xDC00 ≤ c.toNat := by omega
        simp [StringBuffer.addUnit, hhalf.1, hhalf.2, Char.ofNat_toNat]
      -- The two zeros are read by evaluation.
      change run ⟨.unit ⟨chars, none, true⟩ 2 0, done⟩ (hexDigits.getD (c.toNat / 16) '0' ::
        hexDigits.getD (c.toNat % 16) '0' :: cs) = _
      rw [run_cons, step_unit, hhigh, Option.bind_some, if_neg (by decide), Option.bind_some,
        run_cons, step_unit, hlow, Option.bind_some, if_pos rfl, Option.bind_some, Nat.zero_add,
        hvalue, hunit]
    · next hcontrol =>
      rw [List.singleton_append, run_cons, step_string, if_neg hquote, if_neg hbackslash,
        if_neg hcontrol]
      rfl

theorem run_quoted (content : List Char) :
    run ⟨.between, done⟩ (quoted content ++ cs) =
      run ⟨.between, .scalar (.string (some content)) :: done⟩ cs := by
  have hchars : ∀ chars,
      run ⟨.string ⟨chars, none, true⟩, done⟩ (content.flatMap escape ++ '"' :: cs) =
        run ⟨.between, .scalar (.string (some (chars.reverse ++ content))) :: done⟩ cs := by
    induction content with
    | nil =>
        intro chars
        simp [run_cons, step, StringBuffer.content?]
    | cons c content ih =>
        intro chars
        rw [List.flatMap_cons, List.append_assoc, run_escape, ih, List.reverse_cons,
          List.append_assoc]
        rfl
  have hstart : run ⟨.between, done⟩ ('"' :: (content.flatMap escape ++ '"' :: cs)) =
      run ⟨.string .empty, done⟩ (content.flatMap escape ++ '"' :: cs) := rfl
  rw [quoted, List.cons_append, List.cons_append, List.append_assoc]
  exact hstart.trans (hchars [])

/-! ## Values -/

theorem endsWord_cons (h : endsWord c = true) : EndsWord (c :: cs) := by
  rintro _ ⟨⟩
  exact h

theorem endsWord_lineAt {level : Option Nat} (h : EndsWord cs) : EndsWord (lineAt level ++ cs) := by
  cases level with
  | none => exact h
  | some level => exact endsWord_cons (by decide)

theorem endsWord_writeItems (level : Option Nat) (vs : List Json) :
    EndsWord (writeItems level vs ++ cs) := by
  cases vs with
  | nil =>
      rw [writeItems, List.append_assoc]
      exact endsWord_lineAt (endsWord_cons (by decide))
  | cons v vs => exact endsWord_cons (by decide)

theorem endsWord_writeMembers (level : Option Nat) (ms : List (Option (List Char) × Json)) :
    EndsWord (writeMembers level ms ++ cs) := by
  cases ms with
  | nil =>
      rw [writeMembers, List.append_assoc]
      exact endsWord_lineAt (endsWord_cons (by decide))
  | cons m ms => exact endsWord_cons (by decide)

/-- A name, the colon behind it and the blank that may follow. -/
theorem run_name {level : Option Nat} {k : Option (List Char)} (h : k.isSome = true) :
    run ⟨.between, done⟩ (quotedContent k ++ (nameSeparator level ++ cs)) =
      run ⟨.between, .colon :: .scalar (.string k) :: done⟩ cs := by
  obtain ⟨name, rfl⟩ := Option.isSome_iff_exists.mp h
  rw [quotedContent, Option.getD_some, run_quoted]
  cases level with
  | none => exact run_punctuation rfl
  | some level => exact (run_punctuation rfl).trans (run_blank (by decide))

mutual

theorem run_write {done : List Token} {cs : List Char} (level : Option Nat) (v : Json)
    (h : v.isPlain = true) (hend : EndsWord cs) :
    run ⟨.between, done⟩ (v.write level ++ cs) = run ⟨.between, v.tokens.reverse ++ done⟩ cs := by
  match v with
  | .null => exact run_word "null".toList (by decide) (by decide) rfl hend
  | .bool true => exact run_word "true".toList (by decide) (by decide) rfl hend
  | .bool false => exact run_word "false".toList (by decide) (by decide) rfl hend
  | .number l =>
      rw [isPlain] at h
      exact run_number h hend
  | .string content =>
      rw [isPlain] at h
      obtain ⟨content, rfl⟩ := Option.isSome_iff_exists.mp h
      exact run_quoted content
  | .array [] => exact (run_punctuation rfl).trans (run_punctuation rfl)
  | .array (v :: vs) =>
      rw [isPlain, allPlain, Bool.and_eq_true] at h
      simp only [write, List.cons_append, List.append_assoc]
      rw [run_punctuation rfl, run_lineAt, run_write _ v h.1 (endsWord_writeItems level vs),
        run_writeItems level vs h.2]
      simp [tokens]
  | .object [] => exact (run_punctuation rfl).trans (run_punctuation rfl)
  | .object ((k, v) :: ms) =>
      rw [isPlain, allPlainMembers, Bool.and_eq_true, Bool.and_eq_true] at h
      simp only [write, List.cons_append, List.append_assoc]
      rw [run_punctuation rfl, run_lineAt, run_name h.1.1,
        run_write _ v h.1.2 (endsWord_writeMembers level ms), run_writeMembers level ms h.2]
      simp [tokens]

theorem run_writeItems {done : List Token} {cs : List Char} (level : Option Nat) (vs : List Json)
    (h : allPlain vs = true) :
    run ⟨.between, done⟩ (writeItems level vs ++ cs) =
      run ⟨.between, (itemTokens vs).reverse ++ done⟩ cs := by
  match vs with
  | [] =>
      rw [writeItems, List.append_assoc, run_lineAt]
      exact run_punctuation rfl
  | v :: vs =>
      rw [allPlain, Bool.and_eq_true] at h
      simp only [writeItems, List.cons_append, List.append_assoc]
      rw [run_punctuation rfl, run_lineAt, run_write _ v h.1 (endsWord_writeItems level vs),
        run_writeItems level vs h.2]
      simp [itemTokens]

theorem run_writeMembers {done : List Token} {cs : List Char} (level : Option Nat)
    (ms : List (Option (List Char) × Json)) (h : allPlainMembers ms = true) :
    run ⟨.between, done⟩ (writeMembers level ms ++ cs) =
      run ⟨.between, (memberTokens ms).reverse ++ done⟩ cs := by
  match ms with
  | [] =>
      rw [writeMembers, List.append_assoc, run_lineAt]
      exact run_punctuation rfl
  | (k, v) :: ms =>
      rw [allPlainMembers, Bool.and_eq_true, Bool.and_eq_true] at h
      simp only [writeMembers, List.cons_append, List.append_assoc]
      rw [run_punctuation rfl, run_lineAt, run_name h.1.1,
        run_write _ v h.1.2 (endsWord_writeMembers level ms), run_writeMembers level ms h.2]
      simp [memberTokens]

end

end LexState

theorem tokens?_write (level : Option Nat) {v : Json} (h : v.isPlain = true) :
    tokens? (v.write level) = some v.tokens := by
  have hrun : LexState.start.run (v.write level ++ []) =
      LexState.run ⟨.between, v.tokens.reverse ++ []⟩ [] :=
    LexState.run_write level v h (by simp [LexState.EndsWord])
  rw [List.append_nil, List.append_nil, LexState.run] at hrun
  rw [tokens?, hrun]
  simp [LexState.run, LexState.finish?]

end CurrentDrift.Json
