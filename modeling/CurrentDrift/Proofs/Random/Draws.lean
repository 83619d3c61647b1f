import Mathlib.Data.Nat.Find
import CurrentDrift.Random.Source

/-! # Streams of draws

A random source is a stream of draws between `-1` and `1`. A point of the square takes the next two
of them. A point of the unit disk takes two draws for each pair that is tried and is the first pair
that lies in the disk, however late it comes. A source of words gives a draw for each word. -/

namespace CurrentDrift

variable {α γ : Type}

namespace Random

/-! ## Pairs of a stream -/

/-- Two draws of a stream that follow each other, pair after pair. -/
def pairOf (u : Nat → α) (k : Nat) : α × α := (u (2 * k), u (2 * k + 1))

/-- The pairs after the first ones are the pairs of the rest of the stream. -/
theorem pairOf_rest (u : Nat → α) (j k : Nat) :
    pairOf (fun n => u (2 * j + n)) k = pairOf u (j + k) := by
  have hfst : 2 * j + 2 * k = 2 * (j + k) := by omega
  have hsnd : 2 * j + (2 * k + 1) = 2 * (j + k) + 1 := by omega
  rw [pairOf, pairOf, hfst, hsnd]

variable [Scalar α]

/-- The first pair of a stream that lies in the unit disk. -/
structure IsFirstInDisk (u : Nat → α) (k : Nat) : Prop where
  inDisk : inUnitDisk (pairOf u k) = true
  before : ∀ j < k, inUnitDisk (pairOf u j) = false

theorem exists_isFirstInDisk {u : Nat → α} (h : ∃ k, inUnitDisk (pairOf u k) = true) :
    ∃ k, IsFirstInDisk u k :=
  ⟨Nat.find h, Nat.find_spec h, fun _ hj => by simpa using Nat.find_min h hj⟩

theorem IsFirstInDisk.unique {u : Nat → α} {k l : Nat} (hk : IsFirstInDisk u k)
    (hl : IsFirstInDisk u l) : k = l := by
  rcases Nat.lt_trichotomy k l with hlt | heq | hgt
  · have := hl.before k hlt
    simp [hk.inDisk] at this
  · exact heq
  · have := hk.before l hgt
    simp [hl.inDisk] at this

theorem IsFirstInDisk.of_succ {u : Nat → α} {k : Nat} (h : IsFirstInDisk u (k + 1)) :
    IsFirstInDisk (fun n => u (2 * 1 + n)) k := by
  constructor
  · rw [pairOf_rest, Nat.add_comm]
    exact h.inDisk
  · intro j hj
    rw [pairOf_rest, Nat.add_comm]
    exact h.before (j + 1) (Nat.succ_lt_succ hj)

/-! ## The draws of a source -/

section Draws

variable [RandomSource α γ]

/-- A draw between `-1` and `1`. -/
def drawUnit (g : γ) : α × γ := RandomSource.draw (-1.0) 1.0 g

/-- A source after so many draws between `-1` and `1`. -/
def skip (α : Type) {γ : Type} [Scalar α] [RandomSource α γ] : Nat → γ → γ
  | 0, g => g
  | n + 1, g => skip α n (drawUnit g : α × γ).2

theorem skip_skip (m n : Nat) (g : γ) : skip α n (skip α m g) = skip α (m + n) g := by
  induction m generalizing g with
  | zero => rw [Nat.zero_add]; rfl
  | succ m ih => rw [Nat.add_right_comm]; exact ih _

/-- The draws between `-1` and `1` that a source has to give, one after the other. -/
def drawAt (g : γ) (n : Nat) : α := (drawUnit (skip α n g)).1

theorem drawAt_skip (g : γ) (m : Nat) :
    drawAt (skip α m g) = fun n => (drawAt g (m + n) : α) := by
  funext n
  rw [drawAt, skip_skip]
  rfl

theorem drawSquare_eq (g : γ) :
    drawSquare g = ((pairOf (drawAt g) 0 : α × α), skip α (2 * 1) g) :=
  rfl

/-- A pair that lies in the disk is taken, any other one is thrown away. -/
theorem drawDisk_eq_ite (g : γ) :
    (drawDisk g : (α × α) × γ) =
      if inUnitDisk (pairOf (drawAt g) 0 : α × α) then
        (pairOf (drawAt g) 0, skip α (2 * 1) g)
      else drawDisk (skip α (2 * 1) g) := by
  have : Nonempty ((α × α) × γ) := ⟨drawSquare g⟩
  have hloop : ∀ g' : γ, (drawDisk g' : (α × α) × γ) = repeatM (m := Id) _ (drawSquare g') :=
    fun _ => rfl
  rw [hloop g, repeatM_eq_of_monadTail, drawSquare_eq]
  cases hp : inUnitDisk (pairOf (drawAt g) 0 : α × α) with
  | true =>
      simp only [repeatM.body, hp]
      rfl
  | false =>
      simp only [repeatM.body, hp]
      exact (hloop _).symm

/-- The induction is on the number of pairs that are thrown away. -/
theorem drawDisk_eq {g : γ} {k : Nat} (h : IsFirstInDisk (drawAt g : Nat → α) k) :
    drawDisk g = ((pairOf (drawAt g) k : α × α), skip α (2 * (k + 1)) g) := by
  induction k generalizing g with
  | zero => rw [drawDisk_eq_ite, if_pos h.inDisk]
  | succ k ih =>
      have hrest : IsFirstInDisk (drawAt (skip α (2 * 1) g) : Nat → α) k := by
        rw [drawAt_skip]
        exact h.of_succ
      have hfirst := h.before 0 (Nat.succ_pos k)
      have hcount : 2 * 1 + 2 * (k + 1) = 2 * (k + 1 + 1) := by omega
      rw [drawDisk_eq_ite, hfirst, if_neg Bool.false_ne_true, ih hrest, drawAt_skip, pairOf_rest,
        skip_skip, hcount, Nat.add_comm 1]

end Draws

end Random

/-! ## Sources of words -/

namespace WordSource

variable [Scalar α] [WordSource γ]

/-- A source of words without its next ones. -/
def skip : Nat → γ → γ
  | 0, g => g
  | n + 1, g => skip n (WordSource.next g).2

theorem skip_eq (n : Nat) (g : γ) : Random.skip α n g = skip n g := by
  induction n generalizing g with
  | zero => rfl
  | succ n ih => exact ih _

end WordSource

end CurrentDrift
