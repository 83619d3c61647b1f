import CurrentDrift.Text.Lines
import Mathlib.Data.List.TakeDrop

/-! # The lines of a text

Main statements: a reader hands out the lines of a text in order, each of them once, and any lines
are those of some text. Lines that are not empty are those of every text in which each of them is
ended in one way or another. -/

namespace CurrentDrift.Text

/-- The lines of a text. What follows the last terminator is a line only if there is something in
it. -/
def linesOf : List Char → List (List Char)
  | [] => []
  | '\r' :: '\n' :: r => [] :: linesOf r
  | c :: r =>
    if isTerminator c then [] :: linesOf r
    else match linesOf r with
      | [] => [[c]]
      | l :: ls => (c :: l) :: ls

theorem length_dropTerminator_lt {cs : List Char} (h : cs ≠ []) :
    (dropTerminator cs).length < cs.length := by
  unfold dropTerminator
  split
  · simp only [List.length_cons]
    omega
  · simp
  · contradiction

theorem linesOf_of_isTerminator {c : Char} (h : isTerminator c = true) (r : List Char) :
    linesOf (c :: r) = [] :: linesOf (dropTerminator (c :: r)) := by
  by_cases hpair : ∃ r', c = '\r' ∧ r = '\n' :: r'
  · obtain ⟨r', rfl, rfl⟩ := hpair
    rw [linesOf, dropTerminator]
  · have hne : ∀ r', c = '\r' → r = '\n' :: r' → False := fun r' hc hr => hpair ⟨r', hc, hr⟩
    rw [linesOf, if_pos h, dropTerminator]
    · exact hne
    · exact hne

theorem linesOf_of_not_isTerminator {c : Char} (h : isTerminator c = false) (r : List Char) :
    linesOf (c :: r) = match linesOf r with
      | [] => [[c]]
      | l :: ls => (c :: l) :: ls := by
  have hne : ∀ r', c = '\r' → r = '\n' :: r' → False := by
    rintro r' rfl -
    simp [isTerminator] at h
  rw [linesOf, if_neg (by simp [h])]
  exact hne

/-- The first line goes up to the first terminator. -/
theorem linesOf_eq_span {cs : List Char} (h : cs ≠ []) :
    linesOf cs = (cs.span fun x => !isTerminator x).1 ::
      linesOf (dropTerminator (cs.span fun x => !isTerminator x).2) := by
  rw [List.span_eq_takeWhile_dropWhile]
  induction cs with
  | nil => contradiction
  | cons c r ih =>
      cases hc : isTerminator c with
      | true =>
          rw [linesOf_of_isTerminator hc]
          simp [hc]
      | false =>
          rw [linesOf_of_not_isTerminator hc]
          simp only [List.takeWhile_cons, List.dropWhile_cons, hc, Bool.not_false, if_true]
          cases r with
          | nil => rfl
          | cons d r => rw [ih (List.cons_ne_nil d r)]

/-! ## Texts of given lines -/

/-- A line holds no terminator. -/
def IsLine (l : List Char) : Prop := ∀ c ∈ l, isTerminator c = false

theorem isLine_of_all {l : List Char} (h : (l.all fun c => !isTerminator c) = true) :
    IsLine l := by
  intro c hc
  simpa using List.all_eq_true.mp h c hc

theorem isLine_of_mem_linesOf {text l : List Char} (h : l ∈ linesOf text) : IsLine l := by
  induction hn : text.length using Nat.strongRecOn generalizing text l with
  | ind n ih =>
      cases text with
      | nil => contradiction
      | cons c r =>
          cases hc : isTerminator c with
          | true =>
              rw [linesOf_of_isTerminator hc] at h
              rcases List.mem_cons.mp h with rfl | h
              · simp [IsLine]
              · refine ih _ ?_ h rfl
                have := length_dropTerminator_lt (List.cons_ne_nil c r)
                omega
          | false =>
              have hr : ∀ l' ∈ linesOf r, IsLine l' := fun l' hl' =>
                ih r.length (by simp at hn; omega) hl' rfl
              rw [linesOf_of_not_isTerminator hc] at h
              split at h
              · obtain rfl := List.mem_singleton.mp h
                simpa [IsLine] using hc
              · next l' ls hls =>
                rw [hls] at hr
                obtain ⟨hl', hrest⟩ := List.forall_mem_cons.mp hr
                rcases List.mem_cons.mp h with rfl | h
                · exact List.forall_mem_cons.mpr ⟨hc, hl'⟩
                · exact hrest l h

/-- What ends a line. -/
inductive LineEnding where
  | lineFeed
  | carriageReturn
  | both
  deriving Repr, DecidableEq

def LineEnding.chars : LineEnding → List Char
  | lineFeed => ['\n']
  | carriageReturn => ['\r']
  | both => ['\r', '\n']

theorem dropTerminator_chars_append {e : LineEnding} {r : List Char}
    (hr : e = .carriageReturn → r.head? ≠ some '\n') : dropTerminator (e.chars ++ r) = r := by
  cases e with
  | lineFeed => rfl
  | both => rfl
  | carriageReturn =>
      cases r with
      | nil => rfl
      | cons c r =>
          have hc : c ≠ '\n' := by simpa using hr rfl
          rw [LineEnding.chars, List.singleton_append, dropTerminator]
          rintro r' - heq
          exact hc (List.cons.inj heq).1

theorem linesOf_chars_append {e : LineEnding} {r : List Char}
    (hr : e = .carriageReturn → r.head? ≠ some '\n') :
    linesOf (e.chars ++ r) = [] :: linesOf r := by
  have hdrop := congrArg linesOf (dropTerminator_chars_append hr)
  cases e with
  | lineFeed => exact linesOf_of_isTerminator rfl r
  | carriageReturn => exact (linesOf_of_isTerminator rfl r).trans (congrArg _ hdrop)
  | both => exact linesOf_of_isTerminator rfl ('\n' :: r)

/-- A line goes up to what ends it. A carriage return that a line feed follows is only a part of
what ends the line. -/
theorem linesOf_line_append {l : List Char} (h : IsLine l) {e : LineEnding} {r : List Char}
    (hr : e = .carriageReturn → r.head? ≠ some '\n') :
    linesOf (l ++ (e.chars ++ r)) = l :: linesOf r := by
  induction l with
  | nil => exact linesOf_chars_append hr
  | cons c l ih =>
      obtain ⟨hc, hl⟩ := List.forall_mem_cons.mp h
      rw [List.cons_append, linesOf_of_not_isTerminator hc, ih hl]

theorem IsLine.head?_append_ne {l : List Char} (h : IsLine l) (hne : l ≠ []) (r : List Char) :
    (l ++ r).head? ≠ some '\n' := by
  obtain ⟨c, l, rfl⟩ := List.exists_cons_of_ne_nil hne
  have hc : isTerminator c = false := h c List.mem_cons_self
  intro heq
  obtain rfl : c = '\n' := by simpa using heq
  contradiction

theorem linesOf_line {l : List Char} (h : IsLine l) (hne : l ≠ []) : linesOf l = [l] := by
  induction l with
  | nil => contradiction
  | cons c l ih =>
      obtain ⟨hc, hl⟩ := List.forall_mem_cons.mp h
      rw [linesOf_of_not_isTerminator hc]
      cases l with
      | nil => rfl
      | cons d l => rw [ih hl (List.cons_ne_nil d l)]

/-- The text of some lines, each of them ended by a line feed. -/
def unlines (ls : List (List Char)) : List Char := ls.flatMap fun l => l ++ ['\n']

theorem linesOf_unlines {ls : List (List Char)} (h : ∀ l ∈ ls, IsLine l) :
    linesOf (unlines ls) = ls := by
  induction ls with
  | nil => rfl
  | cons l ls ih =>
      obtain ⟨hl, hls⟩ := List.forall_mem_cons.mp h
      rw [unlines, List.flatMap_cons, List.append_assoc]
      exact (linesOf_line_append hl (e := .lineFeed) nofun).trans (congrArg _ (ih hls))

/-- A text consists of some lines, each of them ended in a way of its own. The last one may also be
left without an end. -/
inductive IsTextOf : List (List Char) → List Char → Prop where
  | nil : IsTextOf [] []
  | unended (l : List Char) : IsTextOf [l] l
  | cons (l : List Char) (e : LineEnding) {ls : List (List Char)} {text : List Char} :
      IsTextOf ls text → IsTextOf (l :: ls) (l ++ (e.chars ++ text))

namespace IsTextOf

variable {ls : List (List Char)} {text : List Char}

theorem head?_ne (h : IsTextOf ls text) (hls : ∀ l ∈ ls, l ≠ [] ∧ IsLine l) :
    text.head? ≠ some '\n' := by
  cases h with
  | nil => simp
  | unended =>
      obtain ⟨hne, hl⟩ := hls text List.mem_cons_self
      simpa using hl.head?_append_ne hne []
  | cons l e h =>
      obtain ⟨hne, hl⟩ := hls l List.mem_cons_self
      exact hl.head?_append_ne hne _

/-- However they are ended, the lines are read again. An empty line would not be one if it stood
between a carriage return and a line feed. -/
theorem linesOf_eq (h : IsTextOf ls text) (hls : ∀ l ∈ ls, l ≠ [] ∧ IsLine l) :
    linesOf text = ls := by
  induction h with
  | nil => rfl
  | unended l =>
      obtain ⟨hne, hl⟩ := hls l List.mem_cons_self
      exact linesOf_line hl hne
  | cons l e h ih =>
      obtain ⟨⟨-, hl⟩, hls⟩ := List.forall_mem_cons.mp hls
      rw [linesOf_line_append hl fun _ => h.head?_ne hls, ih hls]

end IsTextOf

namespace LineReader

/-! ## Reading -/

theorem next?_of_linesOf_nil {c : LineReader} (h : linesOf c.rest = []) : c.next? = none := by
  unfold next?
  split
  · rfl
  · next hne =>
    rw [linesOf_eq_span (by simpa using hne)] at h
    contradiction

theorem next?_of_linesOf_cons {c : LineReader} {l : List Char} {ls : List (List Char)}
    (h : linesOf c.rest = l :: ls) :
    ∃ c', c.next? = some (⟨c.line + 1, l⟩, c') ∧ c'.line = c.line + 1 ∧
      linesOf c'.rest = ls := by
  unfold next?
  split
  · next hnil =>
    simp only [List.isEmpty_iff] at hnil
    rw [hnil] at h
    contradiction
  · next hne =>
    rw [linesOf_eq_span (by simpa using hne)] at h
    obtain ⟨rfl, rfl⟩ := List.cons.inj h
    exact ⟨_, rfl, rfl, rfl⟩

end LineReader

end CurrentDrift.Text
