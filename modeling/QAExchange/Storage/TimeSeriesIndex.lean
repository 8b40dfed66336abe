import Mathlib.Data.List.Perm.Basic
import QAExchange.Foundation.KeyedRows

/-! # Offsets by time

The three secondary indexes keep offsets in a tree by timestamp, beside the range of the
timestamps. A query returns early where its range has nothing of that one in it.
-/

namespace QAExchange

open Foundation

structure TimeRange where
  start : ℤ
  last : ℤ

structure TimeSlot where
  timestamp : ℤ
  offsets : List ℕ

/-- `TimeSeriesIndex`, and likewise `InstrumentData` and the part of `TypeData` that is not
the set of its offsets. -/
structure TimeSeriesIndex where
  entries : KeyedRows TimeSlot.timestamp
  timeRange : Option TimeRange

namespace TimeSeriesIndex

def new : TimeSeriesIndex where
  entries := .empty
  timeRange := none

def extend (timestamp : ℤ) : Option TimeRange → TimeRange
  | some range =>
    { start := if timestamp < range.start then timestamp else range.start
      last := if range.last < timestamp then timestamp else range.last }
  | none => ⟨timestamp, timestamp⟩

/-- `entries.entry(timestamp).or_default()` -/
def offsetsAt (timestamp : ℤ) (rows : List TimeSlot) : List ℕ :=
  ((rows.find? fun slot => slot.timestamp = timestamp).map TimeSlot.offsets).getD []

def add (timestamp : ℤ) (offset : ℕ) (index : TimeSeriesIndex) : TimeSeriesIndex where
  entries := index.entries.insert ⟨timestamp, offsetsAt timestamp index.entries.rows ++ [offset]⟩
  timeRange := some (extend timestamp index.timeRange)

/-- `entries.range(start_ts..=end_ts)`, which panics where the start is behind the end. A
tree without a root is not searched. -/
def range (startTs endTs : ℤ) (entries : KeyedRows TimeSlot.timestamp) : Option (List TimeSlot) :=
  if endTs < startTs ∧ entries.rows ≠ [] then none
  else some (entries.rows.filter fun slot => startTs ≤ slot.timestamp ∧ slot.timestamp ≤ endTs)

def queryRange (startTs endTs : ℤ) (index : TimeSeriesIndex) : Option (List ℕ) :=
  if index.timeRange.any fun range => endTs < range.start ∨ range.last < startTs then some []
  else (range startTs endTs index.entries).map (List.flatMap TimeSlot.offsets)

end TimeSeriesIndex

abbrev TimedOffset := ℤ × ℕ

namespace TimeSeriesIndex

def of (added : List TimedOffset) : TimeSeriesIndex :=
  added.foldl (fun index entry => index.add entry.1 entry.2) new

/-! ## What an index has -/

def places (rows : List TimeSlot) : List TimedOffset :=
  rows.flatMap fun slot => slot.offsets.map fun offset => (slot.timestamp, offset)

theorem offsetsAt_cons (timestamp : ℤ) (slot : TimeSlot) (rows : List TimeSlot) :
    offsetsAt timestamp (slot :: rows) =
      if slot.timestamp = timestamp then slot.offsets else offsetsAt timestamp rows := by
  rw [offsetsAt, List.find?_cons]
  split_ifs with same
  · rw [decide_eq_true same]
    rfl
  · rw [decide_eq_false same]
    rfl

theorem offsetsAt_of_lt (later : ∀ slot ∈ rows, timestamp < slot.timestamp) :
    offsetsAt timestamp rows = [] := by
  have absent : rows.find? (fun slot => slot.timestamp = timestamp) = none := by
    apply List.find?_eq_none.mpr
    intro slot member
    simpa using (later slot member).ne'
  rw [offsetsAt, absent]
  rfl

theorem places_insertRow {rows : List TimeSlot} (timestamp : ℤ) (offset : ℕ)
    (sorted : rows.Pairwise fun left right => left.timestamp < right.timestamp) :
    (places (KeyedRows.insertRow TimeSlot.timestamp
      ⟨timestamp, offsetsAt timestamp rows ++ [offset]⟩ rows)).Perm
        (places rows ++ [(timestamp, offset)]) := by
  induction rows with
  | nil => exact List.Perm.refl _
  | cons slot rows induction =>
    have parts := List.pairwise_cons.mp sorted
    rw [KeyedRows.insertRow]
    dsimp only
    split_ifs with before same
    · have later : ∀ other ∈ slot :: rows, timestamp < other.timestamp := by
        intro other member
        rcases List.mem_cons.mp member with rfl | member
        · exact before
        · exact before.trans (parts.1 other member)
      rw [offsetsAt_of_lt later]
      have swapped : ([(timestamp, offset)] ++ places (slot :: rows)).Perm
          (places (slot :: rows) ++ [(timestamp, offset)]) := List.perm_append_comm
      exact swapped
    · subst same
      rw [offsetsAt_cons, if_pos rfl, places, places, List.flatMap_cons, List.flatMap_cons]
      simp only [List.map_append, List.map_cons, List.map_nil, List.append_assoc]
      exact List.perm_append_comm.append_left _
    · have others := induction parts.2
      rw [offsetsAt_cons, if_neg fun equal => same equal.symm]
      rw [places, places, List.flatMap_cons, List.flatMap_cons, List.append_assoc]
      exact others.append_left _

theorem filter_places (startTs endTs : ℤ) (rows : List TimeSlot) :
    ((places rows).filter fun entry => startTs ≤ entry.1 ∧ entry.1 ≤ endTs).map Prod.snd =
      (rows.filter fun slot => startTs ≤ slot.timestamp ∧ slot.timestamp ≤ endTs).flatMap
        TimeSlot.offsets := by
  induction rows with
  | nil => rfl
  | cons slot rows induction =>
    rw [places, List.flatMap_cons, List.filter_append, List.map_append, List.filter_map]
    by_cases inside : startTs ≤ slot.timestamp ∧ slot.timestamp ≤ endTs
    · rw [List.filter_cons_of_pos (by simpa using inside), List.flatMap_cons, ← induction]
      simp [Function.comp_def, inside, places]
    · rw [List.filter_cons_of_neg (by simpa using inside), ← induction]
      simp [Function.comp_def, inside, places]

structure RangeOf (range : TimeRange) (added : List TimedOffset) : Prop where
  start : ∃ entry ∈ added, entry.1 = range.start
  last : ∃ entry ∈ added, entry.1 = range.last
  within : ∀ entry ∈ added, range.start ≤ entry.1 ∧ entry.1 ≤ range.last

structure Holds (index : TimeSeriesIndex) (added : List TimedOffset) : Prop where
  stored : (places index.entries.rows).Perm added
  filled : ∀ slot ∈ index.entries.rows, slot.offsets ≠ []
  spans : ∀ range ∈ index.timeRange, RangeOf range added
  ranged : index.timeRange = none → added = []

theorem holds_new : Holds new [] where
  stored := List.Perm.refl _
  filled := by
    intro slot member
    cases member
  spans := by
    intro range isRange
    cases isRange
  ranged := fun _ => rfl

variable {index : TimeSeriesIndex} {added : List TimedOffset}

theorem Holds.rangeOf_extend (holds : index.Holds added) (timestamp : ℤ) (offset : ℕ) :
    RangeOf (extend timestamp index.timeRange) (added ++ [(timestamp, offset)]) := by
  have isLast : (timestamp, offset) ∈ added ++ [(timestamp, offset)] := by simp
  cases isRange : index.timeRange with
  | none =>
    rw [holds.ranged isRange]
    refine ⟨⟨_, List.mem_singleton_self _, rfl⟩, ⟨_, List.mem_singleton_self _, rfl⟩, ?_⟩
    intro entry member
    rw [List.mem_singleton.mp member]
    exact ⟨le_refl _, le_refl _⟩
  | some range =>
    obtain ⟨⟨first, inFirst, isStart⟩, ⟨final, inFinal, isEnd⟩, within⟩ := holds.spans range isRange
    refine ⟨?_, ?_, ?_⟩
    · dsimp only [extend]
      split_ifs
      · exact ⟨_, isLast, rfl⟩
      · exact ⟨first, List.mem_append_left _ inFirst, isStart⟩
    · dsimp only [extend]
      split_ifs
      · exact ⟨_, isLast, rfl⟩
      · exact ⟨final, List.mem_append_left _ inFinal, isEnd⟩
    · intro entry member
      dsimp only [extend]
      rcases List.mem_append.mp member with old | isNew
      · have bounds := within entry old
        split_ifs <;> omega
      · rw [List.mem_singleton.mp isNew]
        dsimp only
        split_ifs <;> omega

theorem Holds.add (holds : index.Holds added) (timestamp : ℤ) (offset : ℕ) :
    (index.add timestamp offset).Holds (added ++ [(timestamp, offset)]) where
  stored :=
    (places_insertRow timestamp offset index.entries.sorted).trans (holds.stored.append_right _)
  filled := by
    intro slot member
    rcases KeyedRows.mem_insert.mp member with isNew | old
    · rw [isNew]
      simp
    · exact holds.filled slot old.1
  spans := by
    intro range isRange
    cases isRange
    exact holds.rangeOf_extend timestamp offset
  ranged := by
    intro noRange
    cases noRange

theorem holds_foldl (added : List TimedOffset) (holds : index.Holds before) :
    (added.foldl (fun index entry => index.add entry.1 entry.2) index).Holds (before ++ added) := by
  induction added generalizing index before with
  | nil => simpa using holds
  | cons entry added induction =>
    have next := induction (holds.add entry.1 entry.2)
    rwa [List.append_assoc] at next

theorem holds_of (added : List TimedOffset) : (of added).Holds added :=
  holds_foldl added holds_new

theorem of_append_singleton (added : List TimedOffset) (timestamp : ℤ) (offset : ℕ) :
    of (added ++ [(timestamp, offset)]) = (of added).add timestamp offset := by
  rw [of, List.foldl_append]
  rfl

def Crosses (startTs endTs : ℤ) (added : List TimedOffset) : Prop :=
  endTs < startTs ∧ (∃ entry ∈ added, entry.1 ≤ endTs) ∧ ∃ entry ∈ added, startTs ≤ entry.1

instance (startTs endTs : ℤ) (added : List TimedOffset) : Decidable (Crosses startTs endTs added) :=
  inferInstanceAs (Decidable (_ ∧ _ ∧ _))

def inRange (startTs endTs : ℤ) (added : List TimedOffset) : List TimedOffset :=
  added.filter fun entry => startTs ≤ entry.1 ∧ entry.1 ≤ endTs

theorem queryRange_new (startTs endTs : ℤ) : new.queryRange startTs endTs = some [] := by
  simp [queryRange, new, range]

theorem Holds.rows_eq_nil (holds : index.Holds []) : index.entries.rows = [] := by
  cases isRows : index.entries.rows with
  | nil => rfl
  | cons slot rows =>
    have stored := holds.stored.eq_nil
    rw [isRows, places, List.flatMap_cons, List.append_eq_nil_iff, List.map_eq_nil_iff] at stored
    exact absurd stored.1 (holds.filled slot (isRows ▸ List.mem_cons_self))

theorem Holds.queryRange (holds : index.Holds added) (startTs endTs : ℤ) :
    if Crosses startTs endTs added then index.queryRange startTs endTs = none
    else ∃ result, index.queryRange startTs endTs = some result ∧
      result.Perm ((inRange startTs endTs added).map Prod.snd) := by
  rw [TimeSeriesIndex.queryRange]
  have found := (holds.stored.filter fun entry => startTs ≤ entry.1 ∧ entry.1 ≤ endTs).map Prod.snd
  rw [filter_places] at found
  cases isRange : index.timeRange with
  | none =>
    have nothing := holds.ranged isRange
    subst nothing
    have noRows := holds.rows_eq_nil
    have notCrosses : ¬Crosses startTs endTs [] := by
      intro crosses
      obtain ⟨_, member, _⟩ := crosses.2.1
      cases member
    rw [if_neg notCrosses, Option.any_none, if_neg Bool.false_ne_true, range, noRows,
      if_neg fun reversed => reversed.2 rfl]
    exact ⟨[], rfl, List.Perm.refl _⟩
  | some range =>
    obtain ⟨⟨first, inFirst, isStart⟩, ⟨final, inFinal, isEnd⟩, within⟩ := holds.spans range isRange
    rw [Option.any_some]
    by_cases outside : endTs < range.start ∨ range.last < startTs
    · have notCrosses : ¬Crosses startTs endTs added := by
        intro crosses
        obtain ⟨_, ⟨early, inEarly, isEarly⟩, ⟨late, inLate, isLate⟩⟩ := crosses
        have one := within early inEarly
        have other := within late inLate
        omega
      have nothing : inRange startTs endTs added = [] := by
        apply List.filter_eq_nil_iff.mpr
        intro entry member
        have bounds := within entry member
        have apart : ¬(startTs ≤ entry.1 ∧ entry.1 ≤ endTs) := by omega
        simpa using apart
      rw [if_neg notCrosses, if_pos (decide_eq_true outside), nothing]
      exact ⟨[], rfl, List.Perm.refl _⟩
    · have notOutside : ¬decide (endTs < range.start ∨ range.last < startTs) = true := by
        simpa using outside
      rw [if_neg notOutside, TimeSeriesIndex.range]
      have someRows : index.entries.rows ≠ [] := by
        intro noRows
        have stored := holds.stored
        rw [noRows] at stored
        rw [stored.nil_eq.symm] at inFirst
        cases inFirst
      by_cases reversed : endTs < startTs
      · have crosses : Crosses startTs endTs added :=
          ⟨reversed, ⟨first, inFirst, by omega⟩, ⟨final, inFinal, by omega⟩⟩
        rw [if_pos crosses, if_pos ⟨reversed, someRows⟩]
        rfl
      · have notCrosses : ¬Crosses startTs endTs added := fun crosses => reversed crosses.1
        rw [if_neg notCrosses, if_neg fun panics => reversed panics.1]
        exact ⟨_, rfl, found⟩

end TimeSeriesIndex

end QAExchange
