import QAExchange.Query.HybridQueryEngine

/-! # Merge strategies

What a merge of stream and batch records has of each time. The records have their values
here, so that the versions of the two inputs can be told apart.
-/

namespace QAExchange

open Foundation

inductive RecordValue
  | Null
  | Int (value : ℤ)
  | Float (value : ℚ)
  | String (value : String)
  | Bool (value : Bool)

structure Record where
  key : String
  timestamp : ℤ
  values : String → Option RecordValue

namespace MergeStrategy

/-- `merge_results`, on records of any kind with a key and a timestamp. -/
def merge {α : Type} (key : α → String) (timestamp : α → ℤ) (strategy : MergeStrategy)
    (stream batch : List α) : List α :=
  match strategy with
  | .StreamFirst =>
    let streamMinTs := (stream.map timestamp).min?.getD (2 ^ 63 - 1)
    sortByKey timestamp (stream ++ batch.filter fun record => timestamp record < streamMinTs)
  | .BatchFirst =>
    let batchMaxTs := (batch.map timestamp).max?.getD (-2 ^ 63)
    sortByKey timestamp (batch ++ stream.filter fun record => batchMaxTs < timestamp record)
  | .ByTimestamp =>
    dedupBy (fun record kept => key record = key kept ∧ timestamp record = timestamp kept)
      (sortByKey timestamp (batch ++ stream))
  | .Latest => sortByKey (fun record => -timestamp record) (batch ++ stream)

open Record

def mergeResults (strategy : MergeStrategy) (stream batch : List Record) : List Record :=
  strategy.merge key timestamp stream batch

end MergeStrategy

namespace Record

def atTime (time : ℤ) (records : List Record) : List Record :=
  records.filter fun record => record.timestamp = time

/-- The time lies between the first and the last of the records. -/
def Covers (time : ℤ) (records : List Record) : Prop :=
  (∃ record ∈ records, record.timestamp ≤ time) ∧ ∃ record ∈ records, time ≤ record.timestamp

theorem atTime_append (time : ℤ) (first second : List Record) :
    atTime time (first ++ second) = atTime time first ++ atTime time second :=
  List.filter_append ..

theorem atTime_filter (time : ℤ) (records : List Record) (passes : ℤ → Bool) :
    atTime time (records.filter fun record => passes record.timestamp) =
      if passes time then atTime time records else [] := by
  rw [atTime, List.filter_filter]
  split_ifs with isPassed
  · apply List.filter_congr
    intro record _
    by_cases same : record.timestamp = time
    · simp only [same, decide_true, isPassed, Bool.and_self]
    · simp only [same, decide_false, Bool.false_and]
  · apply List.filter_eq_nil_iff.mpr
    intro record _ both
    simp only [Bool.and_eq_true, decide_eq_true_eq] at both
    exact isPassed (both.1 ▸ both.2)

theorem atTime_eq_nil {time : ℤ} {records : List Record}
    (absent : ∀ record ∈ records, record.timestamp ≠ time) : atTime time records = [] := by
  apply List.filter_eq_nil_iff.mpr
  intro record member found
  exact absent record member (of_decide_eq_true found)

end Record

namespace MergeStrategy

open Record

/-- What a merge has of each time. The preferred input is taken as it is in its time range,
and the other one before (or behind) it. By timestamp, every time of an input occurs once. -/
def Merges (strategy : MergeStrategy) (stream batch merged : List Record) : Prop :=
  match strategy with
  | .StreamFirst => ∀ time,
      (Covers time stream → atTime time merged = atTime time stream) ∧
      ((∀ record ∈ stream, time < record.timestamp) → time < 2 ^ 63 - 1 →
        atTime time merged = atTime time batch)
  | .BatchFirst => ∀ time,
      (Covers time batch → atTime time merged = atTime time batch) ∧
      ((∀ record ∈ batch, record.timestamp < time) → -2 ^ 63 < time →
        atTime time merged = atTime time stream)
  | .ByTimestamp => ∀ time,
      (∀ record ∈ atTime time merged, record ∈ stream ++ batch) ∧
      (atTime time merged).length = if atTime time (stream ++ batch) = [] then 0 else 1
  | .Latest => True

/-- A time is smaller than the minimum, or the default, if it is smaller than all of them. -/
theorem lt_min?_getD_iff {default time : ℤ} {times : List ℤ} :
    time < times.min?.getD default ↔
      (∀ each ∈ times, time < each) ∧ (times = [] → time < default) := by
  cases found : times.min? with
  | none =>
    obtain rfl := List.min?_eq_none_iff.mp found
    simp
  | some least =>
    have isLeast := List.min?_eq_some_iff.mp found
    have nonempty : times ≠ [] := List.ne_nil_of_mem isLeast.1
    rw [Option.getD_some]
    constructor
    · intro smaller
      exact ⟨fun each member => smaller.trans_le (isLeast.2 each member),
        fun empty => absurd empty nonempty⟩
    · intro all
      exact all.1 least isLeast.1

theorem max?_getD_lt_iff {default time : ℤ} {times : List ℤ} :
    times.max?.getD default < time ↔
      (∀ each ∈ times, each < time) ∧ (times = [] → default < time) := by
  cases found : times.max? with
  | none =>
    obtain rfl := List.max?_eq_none_iff.mp found
    simp
  | some greatest =>
    have isGreatest := List.max?_eq_some_iff.mp found
    have nonempty : times ≠ [] := List.ne_nil_of_mem isGreatest.1
    rw [Option.getD_some]
    constructor
    · intro greater
      exact ⟨fun each member => (isGreatest.2 each member).trans_lt greater,
        fun empty => absurd empty nonempty⟩
    · intro all
      exact all.1 greatest isGreatest.1

/-! ## The strategies -/

theorem merges_streamFirst (stream batch : List Record) :
    Merges .StreamFirst stream batch (mergeResults .StreamFirst stream batch) := by
  intro time
  have merged : atTime time (mergeResults .StreamFirst stream batch) =
      atTime time stream ++
        if decide (time < ((stream.map timestamp).min?.getD (2 ^ 63 - 1))) then
          atTime time batch else [] := by
    have sorted := filter_sortByKey timestamp
      (stream ++ batch.filter fun record =>
        decide (record.timestamp < (stream.map timestamp).min?.getD (2 ^ 63 - 1))) time
    have early := atTime_filter time batch fun each =>
      decide (each < (stream.map timestamp).min?.getD (2 ^ 63 - 1))
    rw [← early, ← atTime_append]
    exact sorted
  rw [merged]
  constructor
  · rintro ⟨⟨first, member, notLater⟩, _⟩
    have notEarly : ¬time < (stream.map timestamp).min?.getD (2 ^ 63 - 1) := by
      intro early
      have smaller := (lt_min?_getD_iff.mp early).1 _ (List.mem_map_of_mem member)
      omega
    rw [decide_eq_false notEarly, if_neg Bool.false_ne_true, List.append_nil]
  · intro before inRange
    have early : time < (stream.map timestamp).min?.getD (2 ^ 63 - 1) := by
      apply lt_min?_getD_iff.mpr
      constructor
      · intro each isTime
        obtain ⟨record, member, rfl⟩ := List.mem_map.mp isTime
        exact before record member
      · intro _
        exact inRange
    have absent : atTime time stream = [] := by
      apply atTime_eq_nil
      intro record member same
      have later := before record member
      omega
    rw [decide_eq_true early, if_pos rfl, absent, List.nil_append]

theorem merges_batchFirst (stream batch : List Record) :
    Merges .BatchFirst stream batch (mergeResults .BatchFirst stream batch) := by
  intro time
  have merged : atTime time (mergeResults .BatchFirst stream batch) =
      atTime time batch ++
        if decide ((batch.map timestamp).max?.getD (-2 ^ 63) < time) then
          atTime time stream else [] := by
    have sorted := filter_sortByKey timestamp
      (batch ++ stream.filter fun record =>
        decide ((batch.map timestamp).max?.getD (-2 ^ 63) < record.timestamp)) time
    have late := atTime_filter time stream fun each =>
      decide ((batch.map timestamp).max?.getD (-2 ^ 63) < each)
    rw [← late, ← atTime_append]
    exact sorted
  rw [merged]
  constructor
  · rintro ⟨_, last, member, notEarlier⟩
    have notLate : ¬(batch.map timestamp).max?.getD (-2 ^ 63) < time := by
      intro late
      have greater := (max?_getD_lt_iff.mp late).1 _ (List.mem_map_of_mem member)
      omega
    rw [decide_eq_false notLate, if_neg Bool.false_ne_true, List.append_nil]
  · intro after inRange
    have late : (batch.map timestamp).max?.getD (-2 ^ 63) < time := by
      apply max?_getD_lt_iff.mpr
      constructor
      · intro each isTime
        obtain ⟨record, member, rfl⟩ := List.mem_map.mp isTime
        exact after record member
      · intro _
        exact inRange
    have absent : atTime time batch = [] := by
      apply atTime_eq_nil
      intro record member same
      have earlier := after record member
      omega
    rw [decide_eq_true late, if_pos rfl, absent, List.nil_append]

theorem merges_byTimestamp (oneKey : ∀ record ∈ stream ++ batch, record.key = wanted) :
    Merges .ByTimestamp stream batch (mergeResults .ByTimestamp stream batch) := by
  intro time
  have perm : (sortByKey timestamp (batch ++ stream)).Perm (batch ++ stream) :=
    List.perm_insertionSort _ _
  have isKey (record : Record) (member : record ∈ sortByKey timestamp (batch ++ stream)) :
      record.key = wanted := by
    apply oneKey
    have inEither := List.mem_append.mp (perm.mem_iff.mp member)
    exact List.mem_append.mpr inEither.symm
  have merged : atTime time (mergeResults .ByTimestamp stream batch) =
      (atTime time (batch ++ stream)).take 1 := by
    have sorted := filter_sortByKey timestamp (batch ++ stream) time
    have first := filter_dedupBy timestamp
      (fun record kept => decide (record.key = kept.key ∧ record.timestamp = kept.timestamp))
      (pairwise_sortByKey timestamp (batch ++ stream))
      (fun left isLeft right isRight => by
        rw [decide_eq_true_eq, isKey left isLeft, isKey right isRight, eq_self, true_and])
      time
    rw [sorted] at first
    exact first
  have sameEmpty : atTime time (stream ++ batch) = [] ↔ atTime time (batch ++ stream) = [] := by
    rw [atTime_append, atTime_append, List.append_eq_nil_iff, List.append_eq_nil_iff, and_comm]
  rw [merged]
  constructor
  · intro record member
    have inEither := List.mem_append.mp (List.mem_filter.mp (List.mem_of_mem_take member)).1
    exact List.mem_append.mpr inEither.symm
  · rw [List.length_take]
    split_ifs with empty
    · rw [sameEmpty.mp empty]
      rfl
    · have nonempty := List.length_pos_iff.mpr (fun none => empty (sameEmpty.mpr none))
      omega

theorem mergeResults_sorted (inTime : strategy ≠ .Latest) (stream batch : List Record) :
    (mergeResults strategy stream batch).Pairwise fun left right =>
      left.timestamp ≤ right.timestamp := by
  cases strategy with
  | StreamFirst => exact pairwise_sortByKey timestamp _
  | BatchFirst => exact pairwise_sortByKey timestamp _
  | ByTimestamp => exact (pairwise_sortByKey timestamp _).sublist (dedupBy_sublist _ _)
  | Latest => exact absurd rfl inTime

/-- What the three strategies that merge in the order of time make of records of one key. -/
theorem mergeResults_merges {strategy : MergeStrategy} (inTime : strategy ≠ .Latest)
    {stream batch : List Record} {wanted : String}
    (oneKey : ∀ record ∈ stream ++ batch, record.key = wanted) :
    ((mergeResults strategy stream batch).Pairwise fun left right =>
      left.timestamp ≤ right.timestamp) ∧
      Merges strategy stream batch (mergeResults strategy stream batch) := by
  apply And.intro (mergeResults_sorted inTime stream batch)
  cases strategy with
  | StreamFirst => exact merges_streamFirst stream batch
  | BatchFirst => exact merges_batchFirst stream batch
  | ByTimestamp => exact merges_byTimestamp oneKey
  | Latest => trivial

def priceAt (price : ℚ) (timestamp : ℤ) : Record where
  key := "IF2501"
  timestamp := timestamp
  values := fun field => if field = "price" then some (.Float price) else none

/-- A batch record between two stream records is left out. -/
theorem betweenStream_lost :
    ¬∀ record ∈ [priceAt 2 2], ∃ merged ∈ mergeResults .StreamFirst [priceAt 1 1, priceAt 1 3]
      [priceAt 2 2], merged.timestamp = record.timestamp := by
  decide

theorem interleaved_merges :
    ((mergeResults .ByTimestamp [priceAt 1 2, priceAt 1 3] [priceAt 2 1, priceAt 2 2]).Pairwise
      fun left right => left.timestamp ≤ right.timestamp) ∧
      Merges .ByTimestamp [priceAt 1 2, priceAt 1 3] [priceAt 2 1, priceAt 2 2]
        (mergeResults .ByTimestamp [priceAt 1 2, priceAt 1 3] [priceAt 2 1, priceAt 2 2]) := by
  have oneKey : ∀ record ∈ [priceAt 1 2, priceAt 1 3] ++ [priceAt 2 1, priceAt 2 2],
      record.key = "IF2501" := by
    decide
  exact mergeResults_merges (by decide) oneKey

end MergeStrategy

end QAExchange
