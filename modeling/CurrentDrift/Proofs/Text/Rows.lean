import CurrentDrift.Proofs.Text.Lines
import Mathlib.Data.List.Chain
import Mathlib.Data.List.TakeWhile

/-! # A text is its lines and what ends them

Main statements: every text can be split into lines with their ends, in one way only, and a reader
that is asked for a line hands out the first one of this split. -/

namespace CurrentDrift.Text

/-! ## Rows -/

/-- A line with what ends it, if anything does. -/
@[ext]
structure Row where
  line : List Char
  ending : Option LineEnding
  deriving Repr, DecidableEq

/-- What a row takes up in a text. -/
def Row.chars (row : Row) : List Char := row.line ++ row.ending.elim [] LineEnding.chars

/-- A text is made up of rows. Only the last line may have no end, and then it is not empty. A
carriage return is all that ends a line only where no line feed follows it. -/
structure IsSplit (rows : List Row) (text : List Char) : Prop where
  flatMap_chars : rows.flatMap Row.chars = text
  isLine : ∀ row ∈ rows, IsLine row.line
  ended : rows.IsChain fun row _ => row.ending ≠ none
  not_empty : ∀ row ∈ rows, row.ending = none → row.line ≠ []
  apart : rows.IsChain fun row next =>
    row.ending = some .carriageReturn → next.chars.head? ≠ some '\n'

theorem LineEnding.chars_ne_nil (e : LineEnding) : e.chars ≠ [] := by cases e <;> nofun

theorem eq_of_elim_chars_eq {e e' : Option LineEnding}
    (h : e.elim [] LineEnding.chars = e'.elim [] LineEnding.chars) : e = e' := by
  rcases e with _ | _ | _ | _ <;> rcases e' with _ | _ | _ | _ <;>
    first | rfl | simp [LineEnding.chars] at h

theorem Row.chars_ne_nil {row : Row} (h : row.ending = none → row.line ≠ []) :
    row.chars ≠ [] := by
  intro hnil
  obtain ⟨hline, hending⟩ := List.append_eq_nil_iff.mp hnil
  cases he : row.ending with
  | none => exact h he hline
  | some e => exact e.chars_ne_nil (by simpa [he] using hending)

/-- Only the empty text has no rows. -/
theorem IsSplit.eq_nil_iff {rows : List Row} {text : List Char} (h : IsSplit rows text) :
    rows = [] ↔ text = [] := by
  obtain ⟨rfl, -, -, hempty, -⟩ := h
  cases rows with
  | nil => simp
  | cons row rows =>
      have hchars := Row.chars_ne_nil (hempty row List.mem_cons_self)
      simp [hchars]

theorem isSplit_nil : IsSplit [] [] := ⟨rfl, by simp, .nil, by simp, .nil⟩

/-- The first row of a split is a line that the text goes on after, if it does not end there. -/
theorem isSplit_cons_iff {row : Row} {rows : List Row} {text : List Char} :
    IsSplit (row :: rows) text ↔ ∃ rest, text = row.chars ++ rest ∧ IsLine row.line ∧
      (row.ending = none → row.line ≠ [] ∧ rest = []) ∧
      (row.ending = some .carriageReturn → rest.head? ≠ some '\n') ∧ IsSplit rows rest := by
  constructor
  · rintro ⟨rfl, hline, hended, hempty, hapart⟩
    obtain ⟨hrow, hline⟩ := List.forall_mem_cons.mp hline
    obtain ⟨hrowEmpty, hempty⟩ := List.forall_mem_cons.mp hempty
    obtain ⟨hrowEnded, hended⟩ := List.isChain_cons.mp hended
    obtain ⟨hrowApart, hapart⟩ := List.isChain_cons.mp hapart
    refine ⟨rows.flatMap Row.chars, List.flatMap_cons .., hrow, fun hnone => ⟨hrowEmpty hnone, ?_⟩,
      fun hreturn => ?_, rfl, hline, hended, hempty, hapart⟩
    · cases rows with
      | nil => rfl
      | cons next rows => exact absurd hnone (hrowEnded next rfl)
    · cases rows with
      | nil => simp
      | cons next rows =>
          have hnext := Row.chars_ne_nil (hempty next List.mem_cons_self)
          rw [List.flatMap_cons, List.head?_append_of_ne_nil _ hnext]
          exact hrowApart next rfl hreturn
  · rintro ⟨rest, rfl, hrow, hnone, hreturn, hrows⟩
    refine ⟨congrArg _ hrows.flatMap_chars, List.forall_mem_cons.mpr ⟨hrow, hrows.isLine⟩,
      List.isChain_cons.mpr ⟨fun next hnext h => ?_, hrows.ended⟩,
      List.forall_mem_cons.mpr ⟨fun h => (hnone h).1, hrows.not_empty⟩,
      List.isChain_cons.mpr ⟨fun next hnext h => ?_, hrows.apart⟩⟩
    · rw [hrows.eq_nil_iff.mpr (hnone h).2] at hnext
      contradiction
    · obtain ⟨rows, rfl⟩ := List.head?_eq_some_iff.mp hnext
      have hchars := Row.chars_ne_nil (hrows.not_empty next List.mem_cons_self)
      have hhead := hreturn h
      rwa [← hrows.flatMap_chars, List.flatMap_cons, List.head?_append_of_ne_nil _ hchars] at hhead

/-! ## Splitting a text -/

theorem span_of_isLine {l e : List Char} (hl : IsLine l)
    (he : ∀ c ∈ e.head?, isTerminator c = true) :
    (l ++ e).span (fun c => !isTerminator c) = (l, e) := by
  have hall : ∀ c ∈ l, (!isTerminator c) = true := by simpa [IsLine] using hl
  rw [List.span_eq_takeWhile_dropWhile, List.takeWhile_append_of_pos hall,
    List.dropWhile_append_of_pos hall]
  cases e with
  | nil => simp
  | cons c e => simp [he c rfl]

theorem isTerminator_of_mem_head?_chars {e : LineEnding} {r : List Char} :
    ∀ c ∈ (e.chars ++ r).head?, isTerminator c = true := by
  cases e <;> simp [LineEnding.chars, isTerminator]

/-- What follows a line and is not the end of the text ends the line. -/
theorem exists_ending {c : Char} (hc : isTerminator c = true) (r : List Char) :
    ∃ e : LineEnding, c :: r = e.chars ++ dropTerminator (c :: r) ∧
      (e = .carriageReturn → (dropTerminator (c :: r)).head? ≠ some '\n') := by
  have hor : c = '\n' ∨ c = '\r' := by simpa [isTerminator] using hc
  rcases hor with rfl | rfl
  · exact ⟨.lineFeed, rfl, fun h => by contradiction⟩
  · cases r with
    | nil => exact ⟨.carriageReturn, rfl, by simp [dropTerminator]⟩
    | cons d r =>
        by_cases hd : d = '\n'
        · subst hd
          exact ⟨.both, rfl, fun h => by contradiction⟩
        · have hdrop := dropTerminator_chars_append (e := .carriageReturn) (r := d :: r)
            fun _ => by simpa using hd
          have heq : '\r' :: d :: r = LineEnding.carriageReturn.chars ++ d :: r := rfl
          rw [heq, hdrop]
          exact ⟨.carriageReturn, rfl, fun _ => by simpa using hd⟩

theorem exists_isSplit (text : List Char) : ∃ rows, IsSplit rows text := by
  induction hn : text.length using Nat.strongRecOn generalizing text with
  | ind n ih =>
      let line := text.takeWhile fun c => !isTerminator c
      have htext : text = line ++ text.dropWhile fun c => !isTerminator c :=
        (List.takeWhile_append_dropWhile ..).symm
      have hline : IsLine line := fun c hc => by simpa using List.mem_takeWhile_imp hc
      cases hrest : text.dropWhile fun c => !isTerminator c with
      | nil =>
          rw [hrest, List.append_nil] at htext
          by_cases hempty : line = []
          · rw [htext, hempty]
            exact ⟨[], isSplit_nil⟩
          · refine ⟨[⟨line, none⟩], isSplit_cons_iff.mpr
              ⟨[], ?_, hline, fun _ => ⟨hempty, rfl⟩, nofun, isSplit_nil⟩⟩
            simpa [Row.chars] using htext
      | cons c r =>
          have hc : isTerminator c = true := by
            have hhead := List.head?_dropWhile_not (fun c => !isTerminator c) text
            simpa [hrest] using hhead
          obtain ⟨e, heq, hreturn⟩ := exists_ending hc r
          have hlt := length_dropTerminator_lt (List.cons_ne_nil c r)
          have hlength : (c :: r).length ≤ n := by
            rw [← hn, htext, hrest, List.length_append]
            omega
          obtain ⟨rows, hrows⟩ := ih _ (by omega) (dropTerminator (c :: r)) rfl
          refine ⟨⟨line, some e⟩ :: rows, isSplit_cons_iff.mpr
            ⟨_, ?_, hline, nofun, fun h => hreturn (Option.some.inj h), hrows⟩⟩
          rw [htext, hrest, Row.chars, List.append_assoc]
          exact congrArg _ heq

/-! ## Reading a row -/

section

variable {row : Row} {rest : List Char}

/-- The first terminator ends the line of a row, if the text does not end before. -/
theorem span_row (hline : IsLine row.line)
    (hnone : row.ending = none → row.line ≠ [] ∧ rest = []) :
    (row.chars ++ rest).span (fun c => !isTerminator c) =
      (row.line, row.ending.elim [] LineEnding.chars ++ rest) := by
  rw [Row.chars, List.append_assoc]
  apply span_of_isLine hline
  cases he : row.ending with
  | none => simp [(hnone he).2]
  | some e => exact isTerminator_of_mem_head?_chars

theorem dropTerminator_row (hnone : row.ending = none → row.line ≠ [] ∧ rest = [])
    (hreturn : row.ending = some .carriageReturn → rest.head? ≠ some '\n') :
    dropTerminator (row.ending.elim [] LineEnding.chars ++ rest) = rest := by
  cases he : row.ending with
  | none =>
      obtain ⟨-, rfl⟩ := hnone he
      rfl
  | some e => exact dropTerminator_chars_append fun h => hreturn (h ▸ he)

namespace LineReader

/-- The answer to a call for the next line, and the reader after it. At the end of the text the
reader stays where it is. -/
def call (c : LineReader) : Option Line × LineReader :=
  match c.next? with
  | some (line, c') => (some line, c')
  | none => (none, c)

theorem call_nil (n : Nat) : call ⟨[], n⟩ = (none, ⟨[], n⟩) := rfl

/-- A call hands out the line of the first row and goes behind what ends it. -/
theorem call_row (n : Nat) (hline : IsLine row.line)
    (hnone : row.ending = none → row.line ≠ [] ∧ rest = [])
    (hreturn : row.ending = some .carriageReturn → rest.head? ≠ some '\n') :
    call ⟨row.chars ++ rest, n⟩ = (some ⟨n + 1, row.line⟩, ⟨rest, n + 1⟩) := by
  have hchars := Row.chars_ne_nil fun h => (hnone h).1
  have hne : (row.chars ++ rest).isEmpty = false := by simp [hchars]
  simp only [call, next?, hne, Bool.false_eq_true, if_false, span_row hline hnone,
    dropTerminator_row hnone hreturn]

end LineReader

end

/-- Two splits of a text begin with the same row, since a call hands out the line of both. -/
theorem IsSplit.unique {rows rows' : List Row} {text : List Char} (h : IsSplit rows text)
    (h' : IsSplit rows' text) : rows = rows' := by
  induction rows generalizing rows' text with
  | nil => exact (h'.eq_nil_iff.mpr (h.eq_nil_iff.mp rfl)).symm
  | cons row rows ih =>
      cases rows' with
      | nil => exact h.eq_nil_iff.mpr (h'.eq_nil_iff.mp rfl)
      | cons row' rows' =>
          obtain ⟨rest, rfl, hline, hnone, hreturn, hrows⟩ := isSplit_cons_iff.mp h
          obtain ⟨rest', heq, hline', hnone', hreturn', hrows'⟩ := isSplit_cons_iff.mp h'
          have hcall := LineReader.call_row 0 hline hnone hreturn
          rw [heq, LineReader.call_row 0 hline' hnone' hreturn'] at hcall
          obtain ⟨hlines, hrests⟩ := Prod.mk.inj hcall
          obtain ⟨-, hlines⟩ := Line.mk.inj (Option.some.inj hlines)
          obtain ⟨rfl, -⟩ := LineReader.mk.inj hrests
          have hchars := List.append_cancel_right heq
          rw [Row.chars, Row.chars, hlines] at hchars
          have hendings := eq_of_elim_chars_eq (List.append_cancel_left hchars)
          rw [ih hrows hrows', Row.ext hlines.symm hendings]

theorem IsSplit.linesOf_eq {rows : List Row} {text : List Char} (h : IsSplit rows text) :
    linesOf text = rows.map Row.line := by
  induction rows generalizing text with
  | nil =>
      rw [h.eq_nil_iff.mp rfl]
      rfl
  | cons row rows ih =>
      obtain ⟨rest, rfl, hline, hnone, hreturn, hrows⟩ := isSplit_cons_iff.mp h
      rw [List.map_cons, ← ih hrows, Row.chars, List.append_assoc]
      cases he : row.ending with
      | none =>
          obtain ⟨hne, rfl⟩ := hnone he
          have hnil : linesOf [] = [] := rfl
          simpa [hnil] using linesOf_line hline hne
      | some e => exact linesOf_line_append hline fun h => hreturn (h ▸ he)

/-- What is read in a call is a row, and only the last row may have no end. -/
theorem LineReader.exists_row_of_next? {c c' : LineReader} {line : Line}
    (h : c.next? = some (line, c')) :
    ∃ row : Row, c.rest = row.chars ++ c'.rest ∧ row.line = line.chars ∧
      (row.ending = none → c'.rest = []) := by
  obtain ⟨text, n⟩ := c
  obtain ⟨rows, hsplit⟩ := exists_isSplit text
  cases rows with
  | nil =>
      obtain rfl := hsplit.eq_nil_iff.mp rfl
      contradiction
  | cons row rows =>
      obtain ⟨rest, rfl, hline, hnone, hreturn, -⟩ := isSplit_cons_iff.mp hsplit
      have hcall := call_row n hline hnone hreturn
      rw [call, h] at hcall
      obtain ⟨hanswer, rfl⟩ := Prod.mk.inj hcall
      obtain rfl := Option.some.inj hanswer
      exact ⟨row, rfl, rfl, fun h => (hnone h).2⟩

end CurrentDrift.Text
