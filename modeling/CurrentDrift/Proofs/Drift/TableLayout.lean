import Mathlib.Algebra.Ring.Nat
import Mathlib.Data.Set.Function
import Mathlib.Order.Interval.Set.Defs
import CurrentDrift.Drift.SpreadTable

/-! # The layout of a table of velocity errors

The records of a table lie one after the other, while its particles are numbered set by set. Main
statement: as long as the number of particles is a word, a table is made exactly if there are as
many records as particles, and then particles and positions correspond to each other one to one,
whatever the sizes of the sets are. -/

namespace CurrentDrift.SpreadTable

variable {α : Type}

/-! ## Sums of words -/

theorem add_eq {x y : Nat} (h : x + y < 2 ^ 64) : add x y = x + y := Nat.mod_eq_of_lt h

theorem foldl_add {n : Nat} {sets : List Nat} (h : n + sets.sum < 2 ^ 64) :
    sets.foldl add n = n + sets.sum := by
  induction sets generalizing n with
  | nil => rfl
  | cons size sets ih =>
      rw [List.sum_cons] at h
      rw [List.foldl_cons, add_eq (by omega), ih (by omega), List.sum_cons, Nat.add_assoc]

/-- As long as the number of particles is a word, nothing wraps around. -/
theorem count_eq_sum {sets : List Nat} (h : sets.sum < 2 ^ 64) : count sets = sets.sum := by
  rw [count, foldl_add (by omega), Nat.zero_add]

/-- The loop over the sets puts down where each of them begins: by induction on the sets, from a
position on. -/
theorem toList_foldl_place {sets : List Nat} {places : Array Nat × Nat}
    (h : places.2 + sets.sum < 2 ^ 64) :
    (sets.foldl place places).1.toList =
      places.1.toList ++
        (List.range sets.length).map fun set => places.2 + (sets.take set).sum := by
  induction sets generalizing places with
  | nil => simp
  | cons size sets ih =>
      rw [List.sum_cons] at h
      have hend : add places.2 size = places.2 + size := add_eq (by omega)
      have hplace : place places size = (places.1.push places.2, places.2 + size) := by
        rw [place, hend]
      rw [List.foldl_cons, hplace, ih (by rw [Nat.add_assoc]; exact h), Array.toList_push,
        List.append_assoc, List.length_cons, List.range_succ_eq_map, List.map_cons, List.map_map]
      simp [Function.comp_def, Nat.add_assoc]

theorem toList_offsetsOf {sets : List Nat} (h : sets.sum < 2 ^ 64) :
    (offsetsOf sets).toList = (List.range sets.length).map fun set => (sets.take set).sum := by
  rw [offsetsOf, toList_foldl_place (by omega)]
  simp

/-! ## Particles and positions -/

/-- There is a particle of this number in the set of this number. -/
def HasParticle (sets : List Nat) (set index : Nat) : Prop :=
  ∃ size, sets[set]? = some size ∧ index < size

/-- All particles of the sets before come first, and then those before it in its own set. -/
def position (sets : List Nat) (set index : Nat) : Nat := (sets.take set).sum + index

section Particles

variable {size : Nat} {sets : List Nat} {set index : Nat}

@[simp] theorem not_hasParticle_nil : ¬ HasParticle [] set index := by
  simp [HasParticle]

@[simp] theorem hasParticle_cons_zero : HasParticle (size :: sets) 0 index ↔ index < size := by
  simp [HasParticle]

@[simp] theorem hasParticle_cons_succ :
    HasParticle (size :: sets) (set + 1) index ↔ HasParticle sets set index := by
  simp [HasParticle]

@[simp] theorem position_zero : position sets 0 index = index := by
  simp [position]

@[simp] theorem position_cons_succ :
    position (size :: sets) (set + 1) index = size + position sets set index := by
  simp [position, Nat.add_assoc]

theorem position_lt (h : HasParticle sets set index) : position sets set index < sets.sum := by
  induction sets generalizing set with
  | nil => exact absurd h not_hasParticle_nil
  | cons size sets ih =>
      rw [List.sum_cons]
      cases set with
      | zero =>
          rw [hasParticle_cons_zero] at h
          rw [position_zero]
          exact Nat.lt_add_right _ h
      | succ set =>
          rw [position_cons_succ]
          exact Nat.add_lt_add_left (ih (hasParticle_cons_succ.mp h)) size

/-- A position in the first set is less than its size, and any other position is not. -/
theorem eq_of_position_eq {set' index' : Nat} (h : HasParticle sets set index)
    (h' : HasParticle sets set' index')
    (heq : position sets set index = position sets set' index') : set = set' ∧ index = index' := by
  induction sets generalizing set set' with
  | nil => exact absurd h not_hasParticle_nil
  | cons size sets ih =>
      cases set with
      | zero =>
          cases set' with
          | zero => exact ⟨rfl, by simpa using heq⟩
          | succ set' =>
              rw [hasParticle_cons_zero] at h
              rw [position_zero, position_cons_succ] at heq
              omega
      | succ set =>
          cases set' with
          | zero =>
              rw [hasParticle_cons_zero] at h'
              rw [position_zero, position_cons_succ] at heq
              omega
          | succ set' =>
              rw [position_cons_succ, position_cons_succ, Nat.add_left_cancel_iff] at heq
              rw [hasParticle_cons_succ] at h h'
              obtain ⟨hset, hindex⟩ := ih h h' heq
              exact ⟨congrArg Nat.succ hset, hindex⟩

theorem exists_position_eq {k : Nat} (h : k < sets.sum) :
    ∃ set index, HasParticle sets set index ∧ position sets set index = k := by
  induction sets generalizing k with
  | nil => simp at h
  | cons size sets ih =>
      by_cases hk : k < size
      · exact ⟨0, k, hasParticle_cons_zero.mpr hk, position_zero⟩
      · rw [List.sum_cons] at h
        obtain ⟨set, index, hparticle, hposition⟩ := ih (k := k - size) (by omega)
        refine ⟨set + 1, index, hasParticle_cons_succ.mpr hparticle, ?_⟩
        rw [position_cons_succ, hposition]
        omega

theorem bijOn_position (sets : List Nat) :
    Set.BijOn (fun p : Nat × Nat => position sets p.1 p.2) {p | HasParticle sets p.1 p.2}
      (Set.Iio sets.sum) := by
  refine ⟨fun p hp => position_lt hp, ?_, ?_⟩
  · intro p hp q hq heq
    exact Prod.ext_iff.mpr (eq_of_position_eq hp hq heq)
  · intro k hk
    obtain ⟨set, index, hparticle, hposition⟩ := exists_position_eq hk
    exact ⟨(set, index), hparticle, hposition⟩

end Particles

/-! ## Records -/

theorem ofRecords_eq_ok_iff {sets : List Nat} {records : Array (SpreadRecord α)}
    {t : SpreadTable α} :
    ofRecords sets records = .ok t ↔ t.sets = sets ∧ t.records = records := by
  unfold ofRecords
  constructor
  · intro h
    split at h
    · cases Except.ok.inj h
      exact ⟨rfl, rfl⟩
    · contradiction
  · rintro ⟨rfl, rfl⟩
    obtain ⟨sets, -, records, rfl, hsize⟩ := t
    exact dif_pos hsize

/-- Every set begins where the ones before it end. -/
theorem getElem_offsets (t : SpreadTable α) (h : t.sets.sum < 2 ^ 64) {set : Nat}
    (hset : set < t.sets.length) : t.offsets[set]? = some (t.sets.take set).sum := by
  rw [t.offsets_eq, ← Array.getElem?_toList, toList_offsetsOf h, List.getElem?_map,
    List.getElem?_range hset]
  rfl

theorem record?_of_hasParticle {t : SpreadTable α} (hsum : t.sets.sum < 2 ^ 64) {set index : Nat}
    (h : HasParticle t.sets set index) :
    t.record? set index = t.records[position t.sets set index]? := by
  have hposition := position_lt h
  obtain ⟨size, hsize, hlt⟩ := h
  obtain ⟨hset, rfl⟩ := List.getElem?_eq_some_iff.mp hsize
  obtain ⟨_, hoffset⟩ := Array.getElem?_eq_some_iff.mp (t.getElem_offsets hsum hset)
  rw [position] at hposition ⊢
  simp only [record?, dif_pos hset, if_pos hlt, hoffset]
  rw [add_eq (by omega)]

theorem record?_of_not_hasParticle {t : SpreadTable α} {set index : Nat}
    (h : ¬ HasParticle t.sets set index) : t.record? set index = none := by
  unfold record?
  split
  · next hset => exact if_neg fun hlt => h ⟨t.sets[set], List.getElem?_eq_getElem hset, hlt⟩
  · rfl

theorem position_lt_size (t : SpreadTable α) (hsum : t.sets.sum < 2 ^ 64) {set index : Nat}
    (h : HasParticle t.sets set index) : position t.sets set index < t.records.size := by
  rw [t.records_size, count_eq_sum hsum]
  exact position_lt h

theorem isSome_record?_iff (t : SpreadTable α) (hsum : t.sets.sum < 2 ^ 64) (set index : Nat) :
    (t.record? set index).isSome = true ↔ HasParticle t.sets set index := by
  by_cases h : HasParticle t.sets set index
  · rw [record?_of_hasParticle hsum h, Array.getElem?_eq_getElem (t.position_lt_size hsum h)]
    exact iff_of_true rfl h
  · rw [record?_of_not_hasParticle h]
    exact iff_of_false Bool.false_ne_true h

/-- As long as the number of particles is a word, a table is made exactly if there are as many
records as particles. In a table every set begins where the ones before it end; every particle has a
record, which is the one at the particle's position, and nothing else has one; particles and
positions correspond to each other one to one, and no position is out of range. The uniform table is
the one that is made of the same record as often as there are particles. -/
theorem ofRecords_spec (sets : List Nat) (hsum : sets.sum < 2 ^ 64)
    (records : Array (SpreadRecord α)) :
    ((∃ t, ofRecords sets records = .ok t) ↔ records.size = sets.sum) ∧
    (records.size ≠ sets.sum →
      ofRecords sets records = .error (.recordCount records.size sets.sum)) ∧
    (∀ t, ofRecords sets records = .ok t →
      t.offsets.toList = ((List.range sets.length).map fun set => (sets.take set).sum) ∧
      (∀ set index, (t.record? set index).isSome = true ↔ HasParticle sets set index) ∧
      (∀ set index, HasParticle sets set index →
        t.record? set index = records[position sets set index]?) ∧
      Set.BijOn (fun p : Nat × Nat => position sets p.1 p.2) {p | HasParticle sets p.1 p.2}
        (Set.Iio records.size)) ∧
    ∀ record : SpreadRecord α,
      ofRecords sets (Array.replicate sets.sum record) = .ok (uniform sets record) := by
  have hcount := count_eq_sum hsum
  refine ⟨?_, fun hne => ?_, ?_, fun record => ?_⟩
  · constructor
    · rintro ⟨t, ht⟩
      obtain ⟨rfl, rfl⟩ := ofRecords_eq_ok_iff.mp ht
      rw [t.records_size, hcount]
    · intro hsize
      exact ⟨⟨sets, offsetsOf sets, records, rfl, by rw [hsize, hcount]⟩,
        ofRecords_eq_ok_iff.mpr ⟨rfl, rfl⟩⟩
  · rw [← hcount] at hne ⊢
    exact dif_neg hne
  · intro t ht
    obtain ⟨rfl, rfl⟩ := ofRecords_eq_ok_iff.mp ht
    refine ⟨by rw [t.offsets_eq, toList_offsetsOf hsum], t.isSome_record?_iff hsum,
      fun _ _ => record?_of_hasParticle hsum, ?_⟩
    rw [t.records_size, hcount]
    exact bijOn_position t.sets
  · rw [← hcount]
    exact ofRecords_eq_ok_iff.mpr ⟨rfl, rfl⟩

/-- Five particles in three sets, of which the one in the middle is empty. -/
theorem ofRecords_spec_emptySet :
    ∃ t, ofRecords [2, 0, 3] #[⟨0, 1⟩, ⟨2, 3⟩, ⟨4, 5⟩, ⟨6, 7⟩, (⟨8, 9⟩ : SpreadRecord Nat)] = .ok t ∧
      t.offsets.toList = [0, 2, 2] ∧ t.record? 1 0 = none ∧ t.record? 2 1 = some ⟨6, 7⟩ := by
  obtain ⟨hmade, -, htable, -⟩ := ofRecords_spec [2, 0, 3] (by decide)
    #[⟨0, 1⟩, ⟨2, 3⟩, ⟨4, 5⟩, ⟨6, 7⟩, (⟨8, 9⟩ : SpreadRecord Nat)]
  obtain ⟨t, ht⟩ := hmade.mpr rfl
  obtain ⟨hoffsets, hsome, hrecord, -⟩ := htable t ht
  refine ⟨t, ht, hoffsets, ?_, ?_⟩
  · have hnone : ¬ HasParticle [2, 0, 3] 1 0 := by simp
    rw [← hsome] at hnone
    simpa using hnone
  · exact hrecord 2 1 (by simp)

end CurrentDrift.SpreadTable
