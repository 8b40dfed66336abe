import QAExchange.Foundation.SuccessiveRemoval
import QAExchange.Storage.Conversion

/-! # Cleaning up the records of conversions

`cleanup_success_records` is to keep the most recent records of successful conversions. It
removes the others one by one, from the oldest to the most recent, by the positions that
they had before the first removal.
-/

namespace QAExchange

open Foundation

namespace ConversionMetadata

/-- The successful records with their positions, the most recent ones first. The sort is
stable. -/
def successRecords (records : List ConversionRecord) : List (ConversionRecord × ℕ) :=
  (records.zipIdx.filter fun place => place.1.status = .Success).insertionSort
    fun a b => b.1.createdAt ≤ a.1.createdAt

/-- `cleanup_success_records`, without the save. A removal behind the end panics. -/
def cleanupSuccessRecords (keepRecent : ℕ) (metadata : ConversionMetadata) :
    Option ConversionMetadata :=
  let successRecords := successRecords metadata.records
  if keepRecent < successRecords.length then
    let indicesToRemove := (successRecords.drop keepRecent).map Prod.snd
    (removeEach indicesToRemove.reverse metadata.records).map fun records =>
      { metadata with records := records }
  else some metadata

end ConversionMetadata

/-- What is left of the records: all that are not successful and, of the successful ones, as
many of the most recent as are to be kept, in the order of before. -/
structure KeepsRecent (keepRecent : ℕ) (records left : List ConversionRecord) : Prop where
  inOrder : left.Sublist records
  others : (left.filter fun record => record.status ≠ .Success) =
    records.filter fun record => record.status ≠ .Success
  recent : ((left.filter fun record => record.status = .Success).map
      ConversionRecord.createdAt).Perm
    ((((records.filter fun record => record.status = .Success).map
      ConversionRecord.createdAt).insertionSort (· ≥ ·)).take keepRecent)

/-- The place is before the other one from the most recent record on: it was created later,
or in the same second and stands earlier in the list. -/
def MoreRecent (place other : ConversionRecord × ℕ) : Prop :=
  other.1.createdAt < place.1.createdAt ∨
    other.1.createdAt = place.1.createdAt ∧ place.2 < other.2

instance (place other : ConversionRecord × ℕ) : Decidable (MoreRecent place other) :=
  inferInstanceAs (Decidable (_ ∨ _))

def Outdated (keepRecent : ℕ) (records : List ConversionRecord) (place : ConversionRecord × ℕ) :
    Prop :=
  place.1.status = .Success ∧
    keepRecent ≤ records.zipIdx.countP fun other =>
      other.1.status = .Success ∧ MoreRecent other place

instance (keepRecent : ℕ) (records : List ConversionRecord) (place : ConversionRecord × ℕ) :
    Decidable (Outdated keepRecent records place) :=
  inferInstanceAs (Decidable (_ ∧ _))

/-- Of two outdated records, the earlier one in the list was not created first. -/
def OutdatedNewestFirst (keepRecent : ℕ) (records : List ConversionRecord) : Prop :=
  ∀ first ∈ records.zipIdx, ∀ second ∈ records.zipIdx, Outdated keepRecent records first →
    Outdated keepRecent records second → first.2 < second.2 →
      second.1.createdAt ≤ first.1.createdAt

/-! ## The order of the sort -/

theorem MoreRecent.asymm {a b : ConversionRecord × ℕ} (first : MoreRecent a b) :
    ¬MoreRecent b a := by
  unfold MoreRecent at *
  omega

theorem moreRecent_orderedInsert {place : ConversionRecord × ℕ}
    {sorted : List (ConversionRecord × ℕ)} (isSorted : sorted.Pairwise MoreRecent)
    (earlier : ∀ other ∈ sorted, place.2 < other.2) :
    (sorted.orderedInsert (fun a b => b.1.createdAt ≤ a.1.createdAt) place).Pairwise
      MoreRecent := by
  induction sorted with
  | nil => exact List.pairwise_singleton _ _
  | cons head sorted induction =>
    have parts := List.pairwise_cons.mp isSorted
    rw [List.orderedInsert_cons]
    split_ifs with notLater
    · apply List.pairwise_cons.mpr
      refine ⟨?_, isSorted⟩
      intro other member
      have isEarlier := earlier other member
      have notBefore : other.1.createdAt ≤ head.1.createdAt := by
        rcases List.mem_cons.mp member with rfl | later
        · exact le_refl _
        · have before := parts.1 other later
          unfold MoreRecent at before
          omega
      unfold MoreRecent
      omega
    · have inserted := induction parts.2 fun other member =>
        earlier other (List.mem_cons_of_mem _ member)
      apply List.pairwise_cons.mpr
      refine ⟨?_, inserted⟩
      intro other member
      rcases (List.mem_orderedInsert _).mp member with rfl | later
      · exact .inl (not_le.mp notLater)
      · exact parts.1 other later

theorem moreRecent_insertionSort {places : List (ConversionRecord × ℕ)}
    (ascending : places.Pairwise fun a b => a.2 < b.2) :
    (places.insertionSort fun a b => b.1.createdAt ≤ a.1.createdAt).Pairwise MoreRecent := by
  induction places with
  | nil => exact .nil
  | cons place places induction =>
    have parts := List.pairwise_cons.mp ascending
    apply moreRecent_orderedInsert (induction parts.2)
    intro other member
    exact parts.1 other ((List.perm_insertionSort _ _).mem_iff.mp member)

theorem zipIdx_ascending (records : List ConversionRecord) :
    records.zipIdx.Pairwise fun a b => a.2 < b.2 := by
  have positions : (records.zipIdx.map Prod.snd).Pairwise (· < ·) := by
    rw [List.zipIdx_map_snd]
    exact List.pairwise_lt_range'
  exact List.pairwise_map.mp positions

namespace ConversionMetadata

theorem successRecords_moreRecent (records : List ConversionRecord) :
    (successRecords records).Pairwise MoreRecent :=
  moreRecent_insertionSort ((zipIdx_ascending records).filter _)

theorem successRecords_perm (records : List ConversionRecord) : (successRecords records).Perm
      (records.zipIdx.filter fun place => place.1.status = .Success) :=
  List.perm_insertionSort _ _

theorem mem_successRecords {records : List ConversionRecord} {place : ConversionRecord × ℕ} :
    place ∈ successRecords records ↔ place ∈ records.zipIdx ∧ place.1.status = .Success := by
  rw [(successRecords_perm records).mem_iff, List.mem_filter, decide_eq_true_iff]

end ConversionMetadata

/-- In a strictly sorted list, an item is among the last ones exactly if there are enough
before it. -/
theorem mem_drop_iff_le_countP {sorted : List (ConversionRecord × ℕ)}
    (isSorted : sorted.Pairwise MoreRecent) (count : ℕ) (member : place ∈ sorted) :
    place ∈ sorted.drop count ↔ count ≤ sorted.countP fun other => MoreRecent other place := by
  induction sorted generalizing count with
  | nil => cases member
  | cons head sorted induction =>
    have parts := List.pairwise_cons.mp isSorted
    cases count with
    | zero => exact iff_of_true member (Nat.zero_le _)
    | succ count =>
      rw [List.drop_succ_cons]
      by_cases isHead : place = head
      · subst isHead
        have noneBefore : (place :: sorted).countP (fun other => MoreRecent other place) = 0 := by
          apply List.countP_eq_zero.mpr
          intro other member
          rcases List.mem_cons.mp member with rfl | later
          · simp [MoreRecent]
          · simpa using (parts.1 other later).asymm
        have notLater : place ∉ sorted.drop count := by
          intro later
          have before := parts.1 place (List.mem_of_mem_drop later)
          exact before.asymm before
        rw [noneBefore]
        exact iff_of_false notLater (by omega)
      · have later : place ∈ sorted := (List.mem_cons.mp member).resolve_left isHead
        have headBefore : decide (MoreRecent head place) = true :=
          decide_eq_true (parts.1 place later)
        rw [induction parts.2 count later, List.countP_cons, if_pos headBefore,
          Nat.add_le_add_iff_right]

namespace ConversionMetadata

variable {keepRecent : ℕ} {records : List ConversionRecord}

theorem cleanupSuccessRecords_eq (keepRecent : ℕ) (metadata : ConversionMetadata) :
    cleanupSuccessRecords keepRecent metadata =
      (removeEach (((successRecords metadata.records).drop keepRecent).map Prod.snd).reverse
        metadata.records).map fun records => { metadata with records := records } := by
  rw [cleanupSuccessRecords]
  dsimp only
  split_ifs with tooMany
  · rfl
  · rw [List.drop_of_length_le (Nat.le_of_not_lt tooMany)]
    rfl

theorem mem_drop_iff_outdated {place : ConversionRecord × ℕ} (member : place ∈ records.zipIdx) :
    place ∈ (successRecords records).drop keepRecent ↔ Outdated keepRecent records place := by
  have sorted := successRecords_moreRecent records
  have sameCount : (successRecords records).countP (fun other => MoreRecent other place) =
      records.zipIdx.countP fun other =>
        decide (other.1.status = .Success ∧ MoreRecent other place) := by
    rw [(successRecords_perm records).countP_eq, List.countP_filter]
    apply List.countP_congr
    intro other _
    simp [and_comm]
  rw [Outdated, ← sameCount]
  constructor
  · intro dropped
    have inSorted := List.mem_of_mem_drop dropped
    exact ⟨(mem_successRecords.mp inSorted).2,
      (mem_drop_iff_le_countP sorted keepRecent inSorted).mp dropped⟩
  · intro outdated
    have inSorted := mem_successRecords.mpr ⟨member, outdated.1⟩
    exact (mem_drop_iff_le_countP sorted keepRecent inSorted).mpr outdated.2

theorem eq_of_position {first second : ConversionRecord × ℕ} (inFirst : first ∈ records.zipIdx)
    (inSecond : second ∈ records.zipIdx) (same : first.2 = second.2) : first = second := by
  have distinct : (records.zipIdx.map Prod.snd).Nodup := by
    rw [List.zipIdx_map_snd]
    exact List.nodup_range'
  exact List.inj_on_of_nodup_map distinct inFirst inSecond same

/-- The removals go to the front exactly if the outdated records have the newest first. -/
theorem ascending_iff_outdatedNewestFirst :
    (((successRecords records).drop keepRecent).map Prod.snd).Pairwise (· < ·) ↔
      OutdatedNewestFirst keepRecent records := by
  have sorted : ((successRecords records).drop keepRecent).Pairwise MoreRecent :=
    (successRecords_moreRecent records).sublist (List.drop_sublist _ _)
  have inRecords : ∀ place ∈ (successRecords records).drop keepRecent, place ∈ records.zipIdx := by
    intro place dropped
    exact (mem_successRecords.mp (List.mem_of_mem_drop dropped)).1
  rw [List.pairwise_map]
  constructor
  · intro ascending first inFirst second inSecond firstOutdated secondOutdated isEarlier
    have inOrder : ((successRecords records).drop keepRecent).Pairwise fun a b =>
        a.2 < b.2 → b.1.createdAt ≤ a.1.createdAt := by
      apply sorted.imp
      intro a b moreRecent _
      unfold MoreRecent at moreRecent
      omega
    have backwards : ((successRecords records).drop keepRecent).Pairwise fun a b =>
        b.2 < a.2 → a.1.createdAt ≤ b.1.createdAt := by
      apply ascending.imp
      intro a b isBefore isBehind
      exact absurd isBefore isBehind.asymm
    exact List.Pairwise.forall_of_forall_of_flip
      (fun place _ isBefore => absurd isBefore (lt_irrefl _)) inOrder backwards
      ((mem_drop_iff_outdated inFirst).mpr firstOutdated)
      ((mem_drop_iff_outdated inSecond).mpr secondOutdated) isEarlier
  · intro newestFirst
    apply sorted.imp_of_mem
    intro a b inA inB moreRecent
    by_contra notBefore
    have isEarlier : b.2 < a.2 := by
      apply lt_of_le_of_ne (not_lt.mp notBefore)
      intro same
      have equal := eq_of_position (inRecords b inB) (inRecords a inA) same
      rw [equal] at moreRecent
      exact moreRecent.asymm moreRecent
    have notLater := newestFirst b (inRecords b inB) a (inRecords a inA)
      ((mem_drop_iff_outdated (inRecords b inB)).mp inB)
      ((mem_drop_iff_outdated (inRecords a inA)).mp inA) isEarlier
    unfold MoreRecent at moreRecent
    omega

/-! ## What is left -/

theorem sum_le_of_notAfter (notAfter : List.Forall₂ (fun a b => a = b ∨ MoreRecent a b) left right)
    (sameTimes : left.map (fun place => place.1.createdAt) =
      right.map fun place => place.1.createdAt) :
    (left.map Prod.snd).sum ≤ (right.map Prod.snd).sum := by
  induction notAfter with
  | nil => exact le_refl _
  | @cons a b left right before notAfter induction =>
    have times := List.cons.inj sameTimes
    have others := induction times.2
    have first : a.2 ≤ b.2 := by
      rcases before with same | moreRecent
      · rw [same]
      · have sameTime : a.1.createdAt = b.1.createdAt := times.1
        unfold MoreRecent at moreRecent
        omega
    rw [List.map_cons, List.map_cons, List.sum_cons, List.sum_cons]
    omega

theorem createdAt_sorted (records : List ConversionRecord) :
    ((successRecords records).map fun place => place.1.createdAt).Pairwise (· ≥ ·) := by
  rw [List.pairwise_map]
  apply (successRecords_moreRecent records).imp
  intro a b moreRecent
  unfold MoreRecent at moreRecent
  omega

theorem map_createdAt_successRecords (records : List ConversionRecord) :
    ((records.filter fun record => record.status = .Success).map
      ConversionRecord.createdAt).insertionSort (· ≥ ·) =
        (successRecords records).map fun place => place.1.createdAt := by
  have sameTimes : ((successRecords records).map fun place => place.1.createdAt).Perm
      ((records.filter fun record => record.status = .Success).map
        ConversionRecord.createdAt) := by
    have fromPlaces : records = records.zipIdx.map Prod.fst := (List.zipIdx_map_fst 0 records).symm
    conv_rhs => rw [fromPlaces, List.filter_map, List.map_map]
    exact (successRecords_perm records).map _
  apply List.Perm.eq_of_pairwise _ (List.pairwise_insertionSort _ _) (createdAt_sorted records)
  · exact (List.perm_insertionSort _ _).trans sameTimes.symm
  · intro a b _ _ ge le
    exact le_antisymm le ge

theorem positions_zipIdx (records : List ConversionRecord) :
    records.zipIdx.map Prod.snd = List.range records.zipIdx.length := by
  rw [List.zipIdx_map_snd, List.length_zipIdx, List.range_eq_range']

theorem nodup_zipIdx (records : List ConversionRecord) : records.zipIdx.Nodup :=
  (zipIdx_ascending records).imp fun isBefore same => by
    rw [same] at isBefore
    exact lt_irrefl _ isBefore

theorem removedPositions_lt (keepRecent : ℕ) (records : List ConversionRecord) :
    ∀ index ∈ (((successRecords records).drop keepRecent).map Prod.snd).reverse,
      index < records.zipIdx.length := by
  intro index member
  obtain ⟨place, dropped, rfl⟩ := List.mem_map.mp (List.mem_reverse.mp member)
  have inRecords := (mem_successRecords.mp (List.mem_of_mem_drop dropped)).1
  rw [List.length_zipIdx]
  simpa using List.snd_lt_of_mem_zipIdx inRecords

theorem nodup_successRecords (records : List ConversionRecord) : (successRecords records).Nodup :=
  (successRecords_perm records).nodup_iff.mpr ((nodup_zipIdx records).filter _)

theorem mem_take_iff {place : ConversionRecord × ℕ} :
    place ∈ (successRecords records).take keepRecent ↔
      place ∈ successRecords records ∧ place ∉ (successRecords records).drop keepRecent := by
  have distinct := nodup_successRecords records
  have whole := List.take_append_drop keepRecent (successRecords records)
  rw [← whole] at distinct
  have apart := List.disjoint_of_nodup_append distinct
  constructor
  · intro taken
    exact ⟨List.mem_of_mem_take taken, apart taken⟩
  · intro kept
    have inEither := kept.1
    rw [← whole] at inEither
    exact (List.mem_append.mp inEither).resolve_right kept.2

theorem keepsRecent_of_ascending
    (ascending : (((successRecords records).drop keepRecent).map Prod.snd).Pairwise (· < ·)) :
    ∃ left, removeEach (((successRecords records).drop keepRecent).map Prod.snd).reverse records =
      some left ∧ KeepsRecent keepRecent records left := by
  have fromPlaces : records = records.zipIdx.map Prod.fst := (List.zipIdx_map_fst 0 records).symm
  have removedPlaces := removeEach_of_descending (positions_zipIdx records)
    (removedPositions_lt keepRecent records) (List.pairwise_reverse.mpr ascending)
  have isKept : ∀ place ∈ records.zipIdx,
      (place.2 ∉ (((successRecords records).drop keepRecent).map Prod.snd).reverse ↔
        place ∉ (successRecords records).drop keepRecent) := by
    intro place inRecords
    apply not_congr
    rw [List.mem_reverse, List.mem_map]
    constructor
    · intro found
      obtain ⟨other, dropped, same⟩ := found
      have inOther := (mem_successRecords.mp (List.mem_of_mem_drop dropped)).1
      rw [← eq_of_position inOther inRecords same]
      exact dropped
    · intro dropped
      exact ⟨place, dropped, rfl⟩
  generalize isIndices : (((successRecords records).drop keepRecent).map Prod.snd).reverse =
    indices at removedPlaces isKept ⊢
  let leftPlaces := records.zipIdx.filter fun place => place.2 ∉ indices
  have removed : removeEach indices records = some (leftPlaces.map Prod.fst) := by
    conv_lhs => rw [fromPlaces, removeEach_map, removedPlaces]
    rfl
  refine ⟨leftPlaces.map Prod.fst, removed, ?_, ?_, ?_⟩
  · conv_rhs => rw [fromPlaces]
    exact List.filter_sublist.map _
  · conv_rhs => rw [fromPlaces]
    rw [List.filter_map, List.filter_map, List.filter_filter]
    congr 1
    apply List.filter_congr
    intro place inRecords
    by_cases isSuccess : place.1.status = .Success
    · simp [isSuccess]
    · have kept : place.2 ∉ indices := by
        apply (isKept place inRecords).mpr
        intro dropped
        exact isSuccess (mem_successRecords.mp (List.mem_of_mem_drop dropped)).2
      simp [isSuccess, kept]
  · rw [map_createdAt_successRecords, ← List.map_take, List.filter_map, List.map_map]
    apply List.Perm.map
    apply (List.perm_ext_iff_of_nodup (((nodup_zipIdx records).filter _).filter _)
      ((nodup_successRecords records).sublist (List.take_sublist _ _))).mpr
    intro place
    rw [mem_take_iff, mem_successRecords, List.mem_filter, List.mem_filter]
    simp only [Function.comp, decide_eq_true_iff]
    constructor
    · intro found
      exact ⟨⟨found.1.1, found.2⟩, (isKept place found.1.1).mp found.1.2⟩
    · intro found
      exact ⟨⟨found.1.1, (isKept place found.1.1).mpr found.2⟩, found.1.2⟩

section Gone

variable {rest : List (ConversionRecord × ℕ)} (isPart : rest.Sublist records.zipIdx)
  (keeps : KeepsRecent keepRecent records (rest.map Prod.fst))

include isPart keeps

theorem success_of_gone {place : ConversionRecord × ℕ} (inRecords : place ∈ records.zipIdx)
    (gone : place ∉ rest) : place.1.status = .Success := by
  by_contra notSuccess
  let isOther (place : ConversionRecord × ℕ) : Bool := decide (place.1.status ≠ .Success)
  have sameLength : (rest.filter isOther).length = (records.zipIdx.filter isOther).length := by
    have lengths := congrArg List.length keeps.others
    conv_rhs at lengths => rw [← List.zipIdx_map_fst 0 records]
    rw [List.filter_map, List.filter_map, List.length_map, List.length_map] at lengths
    exact lengths
  have sameOthers := (isPart.filter isOther).eq_of_length sameLength
  have kept : place ∈ rest.filter isOther := by
    rw [sameOthers]
    exact List.mem_filter.mpr ⟨inRecords, decide_eq_true notSuccess⟩
  exact gone (List.mem_of_mem_filter kept)

theorem perm_gone :
    records.zipIdx.Perm (rest ++ (successRecords records).filter fun place => place ∉ rest) := by
  have distinct : (rest ++ (successRecords records).filter fun place => place ∉ rest).Nodup := by
    apply ((nodup_zipIdx records).sublist isPart).append ((nodup_successRecords records).filter _)
    intro place inRest inGone
    have gone := (List.mem_filter.mp inGone).2
    exact absurd inRest (of_decide_eq_true gone)
  apply (List.perm_ext_iff_of_nodup (nodup_zipIdx records) distinct).mpr
  intro place
  rw [List.mem_append, List.mem_filter, mem_successRecords, decide_eq_true_iff]
  constructor
  · intro inRecords
    by_cases inRest : place ∈ rest
    · exact .inl inRest
    · exact .inr ⟨⟨inRecords, success_of_gone isPart keeps inRecords inRest⟩, inRest⟩
  · intro inEither
    rcases inEither with inRest | gone
    · exact isPart.subset inRest
    · exact gone.1.1

theorem map_createdAt_gone :
    ((successRecords records).filter fun place => place ∉ rest).map
        (fun place => place.1.createdAt) =
      ((successRecords records).drop keepRecent).map fun place => place.1.createdAt := by
  let time (place : ConversionRecord × ℕ) : ℤ := place.1.createdAt
  let kept := rest.filter fun place => place.1.status = .Success
  let gone := (successRecords records).filter fun place => place ∉ rest
  have keptTimes : (kept.map time).Perm (((successRecords records).take keepRecent).map time) := by
    have recent := keeps.recent
    rw [map_createdAt_successRecords, List.filter_map, List.map_map, ← List.map_take] at recent
    exact recent
  have allGone : gone.filter (fun place => place.1.status = .Success) = gone := by
    apply List.filter_eq_self.mpr
    intro place inGone
    exact decide_eq_true (mem_successRecords.mp (List.mem_of_mem_filter inGone)).2
  have parts : (successRecords records).Perm (kept ++ gone) := by
    have filtered := (perm_gone isPart keeps).filter fun place => place.1.status = .Success
    rw [List.filter_append, allGone] at filtered
    exact (successRecords_perm records).trans filtered
  have times : (((successRecords records).take keepRecent).map time ++ gone.map time).Perm
      (((successRecords records).take keepRecent).map time ++
        ((successRecords records).drop keepRecent).map time) := by
    have whole := congrArg (List.map time)
      (List.take_append_drop keepRecent (successRecords records))
    have mapped := parts.map time
    rw [List.map_append] at whole mapped
    rw [whole]
    exact (keptTimes.symm.append_right _).trans mapped.symm
  have sorted := createdAt_sorted records
  apply List.Perm.eq_of_pairwise _ (sorted.sublist (List.filter_sublist.map _))
    (sorted.sublist ((List.drop_sublist _ _).map _))
  · exact (List.perm_append_left_iff _).mp times
  · intro a b _ _ ge le
    exact le_antisymm le ge

end Gone

theorem ascending_of_keepsRecent {left : List ConversionRecord}
    (removed : removeEach (((successRecords records).drop keepRecent).map Prod.snd).reverse
      records = some left) (keeps : KeepsRecent keepRecent records left) :
    (((successRecords records).drop keepRecent).map Prod.snd).Pairwise (· < ·) := by
  by_contra notAscending
  rw [← List.zipIdx_map_fst 0 records, removeEach_map, Option.map_eq_some_iff,
    List.zipIdx_map_fst] at removed
  obtain ⟨rest, removed, rfl⟩ := removed
  have isPart := removeEach_sublist removed
  have lost := sum_removeEach_lt (positions_zipIdx records)
    (removedPositions_lt keepRecent records) removed
    (fun descending => notAscending (List.pairwise_reverse.mp descending))
  have total := ((perm_gone isPart keeps).map Prod.snd).sum_eq
  have sameTimes := map_createdAt_gone isPart keeps
  have lengths := congrArg List.length sameTimes
  rw [List.length_map, List.length_map, List.length_drop] at lengths
  have outdated : (successRecords records).drop ((successRecords records).length -
      ((successRecords records).filter fun place => place ∉ rest).length) =
        (successRecords records).drop keepRecent := by
    rw [lengths]
    by_cases enough : keepRecent ≤ (successRecords records).length
    · rw [Nat.sub_sub_self enough]
    · rw [List.drop_of_length_le (by omega), List.drop_of_length_le (by omega)]
  have sorted : (successRecords records).Pairwise fun a b => a = b ∨ MoreRecent a b :=
    (successRecords_moreRecent records).imp fun moreRecent => .inr moreRecent
  have isSublist : ((successRecords records).filter fun place => place ∉ rest).Sublist
      (successRecords records) := List.filter_sublist
  have notAfter := forall₂_drop_of_sublist (fun _ => .inl rfl) isSublist sorted
  rw [outdated] at notAfter
  have fewer := sum_le_of_notAfter notAfter sameTimes
  rw [List.map_append, List.sum_append] at total
  rw [List.sum_reverse] at lost
  omega

/-- The clean-up keeps what it is to keep exactly if it removes the outdated records from
the back to the front, and otherwise it panics or removes others. -/
theorem cleanupSuccessRecords_keepsRecent_iff (keepRecent : ℕ) (metadata : ConversionMetadata) :
    (∃ done, cleanupSuccessRecords keepRecent metadata = some done ∧
        KeepsRecent keepRecent metadata.records done.records) ↔
      OutdatedNewestFirst keepRecent metadata.records := by
  rw [← ascending_iff_outdatedNewestFirst, cleanupSuccessRecords_eq]
  constructor
  · intro cleaned
    obtain ⟨done, cleaned, keeps⟩ := cleaned
    obtain ⟨left, removed, rfl⟩ := Option.map_eq_some_iff.mp cleaned
    exact ascending_of_keepsRecent removed keeps
  · intro ascending
    obtain ⟨left, removed, keeps⟩ := keepsRecent_of_ascending ascending
    rw [removed]
    exact ⟨_, rfl, keeps⟩

def successAt (id : ℕ) (createdAt : ℤ) : ConversionRecord :=
  (ConversionRecord.new createdAt id "cu2501" [] ⟨"cu2501", false, createdAt⟩).markSuccess
    createdAt 1 0 0

/-- Of three records, created one second after the other, the second one is kept instead of
the last one. -/
theorem threeRecords_keep_the_second :
    (cleanupSuccessRecords 1 ⟨[successAt 1 1, successAt 2 2, successAt 3 3], 4⟩ =
        some ⟨[successAt 2 2], 4⟩) ∧
      ¬∃ done, cleanupSuccessRecords 1 ⟨[successAt 1 1, successAt 2 2, successAt 3 3], 4⟩ =
        some done ∧ KeepsRecent 1 [successAt 1 1, successAt 2 2, successAt 3 3] done.records := by
  have cleaned : cleanupSuccessRecords 1 ⟨[successAt 1 1, successAt 2 2, successAt 3 3], 4⟩ =
      some ⟨[successAt 2 2], 4⟩ := by
    decide
  apply And.intro cleaned
  intro keptRecent
  obtain ⟨done, isDone, keeps⟩ := keptRecent
  rw [cleaned] at isDone
  cases isDone
  exact absurd keeps.recent (by decide)

/-- Without a record to keep, the second removal is already behind the end. -/
example : cleanupSuccessRecords 0 ⟨[successAt 1 1, successAt 2 2], 3⟩ = none := by decide

end ConversionMetadata

end QAExchange
