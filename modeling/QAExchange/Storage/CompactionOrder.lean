import Mathlib.Data.List.Pairwise
import QAExchange.Storage.CompactionRounds

/-! # The order of a merged file

A compaction orders entries by the bytes of their keys. A timestamp goes into them in two's
complement, the highest byte first, so that negative timestamps stand behind the others.
-/

namespace QAExchange

open Foundation Action LeveledCompaction SSTableFile

variable {Record : Type}

namespace MemTableKey

variable {left right : MemTableKey}

theorem Fits.unsigned_lt (fits : left.Fits) : (left.timestamp % 2 ^ 64).toNat < 256 ^ 8 := by
  have low := fits.timestamp.1
  have high := fits.timestamp.2
  omega

theorem Fits.sequence_lt (fits : left.Fits) : left.sequence < 256 ^ 8 := by
  have high := fits.sequence
  omega

theorem toBytes_lt_iff (leftFits : left.Fits) (rightFits : right.Fits) :
    left.toBytes < right.toBytes ↔
      (left.timestamp % 2 ^ 64).toNat < (right.timestamp % 2 ^ 64).toNat ∨
        (left.timestamp % 2 ^ 64).toNat = (right.timestamp % 2 ^ 64).toNat ∧
          left.sequence < right.sequence := by
  rw [toBytes, toBytes, append_lt_append_iff (by rw [length_beBytes, length_beBytes]),
    beBytes_lt_iff leftFits.unsigned_lt rightFits.unsigned_lt,
    beBytes_inj leftFits.unsigned_lt rightFits.unsigned_lt,
    beBytes_lt_iff leftFits.sequence_lt rightFits.sequence_lt]

theorem toBytes_lt_iff_of_sign (leftFits : left.Fits) (rightFits : right.Fits)
    (sign : left.timestamp < 0 ↔ right.timestamp < 0) :
    left.toBytes < right.toBytes ↔ left < right := by
  rw [toBytes_lt_iff leftFits rightFits, lt_iff]
  have leftTime := leftFits.timestamp
  have rightTime := rightFits.timestamp
  omega

theorem toBytes_lt_of_signs (leftFits : left.Fits) (rightFits : right.Fits)
    (negative : left.timestamp < 0) (nonnegative : 0 ≤ right.timestamp) :
    right.toBytes < left.toBytes := by
  rw [toBytes_lt_iff rightFits leftFits]
  have leftTime := leftFits.timestamp
  have rightTime := rightFits.timestamp
  omega

theorem toBytes_inj (leftFits : left.Fits) (rightFits : right.Fits)
    (same : left.toBytes = right.toBytes) : left = right := by
  have notBelow := mt (toBytes_lt_iff leftFits rightFits).mpr (same ▸ lt_irrefl _)
  have notAbove := mt (toBytes_lt_iff rightFits leftFits).mpr (same ▸ lt_irrefl _)
  have leftTime := leftFits.timestamp
  have rightTime := rightFits.timestamp
  apply le_antisymm
  · rw [le_iff]
    omega
  · rw [le_iff]
    omega

end MemTableKey

/-! ## What a compaction should leave -/

/-- Every key of the inputs once and in order, with the record of an input, and an info with the
bounds of the keys and the timestamps. -/
structure MergesInputs (inputs : List (MemTableEntry Record)) (output : SSTableFile Record)
    (info : SSTableInfo) : Prop where
  keys : ∀ key, (∃ entry ∈ output.entries, entry.key = key) ↔ ∃ entry ∈ inputs, entry.key = key
  records : output.entries ⊆ inputs
  increasing : output.entries.Pairwise fun left right => left.key < right.key
  entryCount : info.entryCount = output.entries.length
  least : ∀ entry ∈ output.entries, (∀ other ∈ output.entries, entry.key ≤ other.key) →
    info.minKey = entry.key.toBytes ∧ info.minTimestamp = entry.key.timestamp
  greatest : ∀ entry ∈ output.entries, (∀ other ∈ output.entries, other.key ≤ entry.key) →
    info.maxKey = entry.key.toBytes ∧ info.maxTimestamp = entry.key.timestamp

def Compacts (fileLength : SSTableFile Record → ℕ) (readsMetadata : ReadsMetadata Record)
    (files : SSTableFiles Record) (task : CompactionTask) : Prop :=
  ∃ result after output,
    exec (executeCompaction fileLength readsMetadata task) files = (.ok result, after) ∧
      RkyvSSTable.findFile task.outputPath after = some output ∧
      MergesInputs (task.sstables.flatMap fun info => (fileAt files info.filePath).entries) output
        result.newSstable

def MixedSigns (inputs : List (MemTableEntry Record)) : Prop :=
  ∃ early ∈ inputs, ∃ late ∈ inputs, early.key.timestamp < 0 ∧ 0 ≤ late.key.timestamp

section Merging

variable {inputs : List (MemTableEntry Record)} (fits : ∀ entry ∈ inputs, entry.key.Fits)

include fits

theorem exists_key_mergeEntries (key : MemTableKey) :
    (∃ entry ∈ mergeEntries inputs, entry.key = key) ↔ ∃ entry ∈ inputs, entry.key = key := by
  constructor
  · intro merged
    obtain ⟨entry, member, isKey⟩ := merged
    exact ⟨entry, mergeEntries_subset inputs member, isKey⟩
  · intro input
    obtain ⟨entry, member, isKey⟩ := input
    obtain ⟨other, isMerged, isBytes⟩ :=
      (mem_mergeEntries inputs key.toBytes).mpr ⟨entry, member, congrArg _ isKey⟩
    have otherFits := fits other (mergeEntries_subset inputs isMerged)
    exact ⟨other, isMerged, MemTableKey.toBytes_inj otherFits (isKey ▸ fits entry member) isBytes⟩

omit fits in
theorem sign_of_not_mixed (oneSign : ¬MixedSigns inputs) (isLeft : left ∈ inputs)
    (isRight : right ∈ inputs) : left.key.timestamp < 0 ↔ right.key.timestamp < 0 := by
  have notLeft : ¬(left.key.timestamp < 0 ∧ 0 ≤ right.key.timestamp) := fun mixed =>
    oneSign ⟨left, isLeft, right, isRight, mixed⟩
  have notRight : ¬(right.key.timestamp < 0 ∧ 0 ≤ left.key.timestamp) := fun mixed =>
    oneSign ⟨right, isRight, left, isLeft, mixed⟩
  omega

theorem toBytes_le_of_not_mixed (oneSign : ¬MixedSigns inputs) (isLeft : left ∈ mergeEntries inputs)
    (isRight : right ∈ mergeEntries inputs) (inOrder : left.key ≤ right.key) :
    left.key.toBytes ≤ right.key.toBytes := by
  have leftInput := mergeEntries_subset inputs isLeft
  have rightInput := mergeEntries_subset inputs isRight
  apply not_lt.mp
  intro reversed
  have below := (MemTableKey.toBytes_lt_iff_of_sign (fits right rightInput) (fits left leftInput)
    (sign_of_not_mixed oneSign rightInput leftInput)).mp reversed
  exact not_lt.mpr inOrder below

theorem increasing_of_not_mixed (oneSign : ¬MixedSigns inputs) :
    (mergeEntries inputs).Pairwise fun left right => left.key < right.key := by
  apply (mergeEntries_increasing inputs).imp_of_mem
  intro left right isLeft isRight inOrder
  have leftInput := mergeEntries_subset inputs isLeft
  have rightInput := mergeEntries_subset inputs isRight
  exact (MemTableKey.toBytes_lt_iff_of_sign (fits left leftInput) (fits right rightInput)
    (sign_of_not_mixed oneSign leftInput rightInput)).mp inOrder

theorem not_increasing_of_mixed (mixed : MixedSigns inputs) :
    ¬(mergeEntries inputs).Pairwise fun left right => left.key < right.key := by
  intro increasing
  obtain ⟨early, isEarly, late, isLate, negative, nonnegative⟩ := mixed
  obtain ⟨first, isFirst, sameEarly⟩ :=
    (exists_key_mergeEntries fits early.key).mpr ⟨early, isEarly, rfl⟩
  obtain ⟨second, isSecond, sameLate⟩ :=
    (exists_key_mergeEntries fits late.key).mpr ⟨late, isLate, rfl⟩
  have different : first ≠ second := by
    intro same
    have sameTime : early.key.timestamp = late.key.timestamp := by
      rw [← sameEarly, ← sameLate, same]
    omega
  let InOrder (left right : MemTableEntry Record) : Prop :=
    left.key < right.key ∧ left.key.toBytes < right.key.toBytes
  have ordered : (mergeEntries inputs).Pairwise fun left right =>
      InOrder left right ∨ InOrder right left :=
    (increasing.and (mergeEntries_increasing inputs)).imp Or.inl
  have symmetric : Std.Symm fun left right => InOrder left right ∨ InOrder right left :=
    ⟨fun _ _ => Or.symm⟩
  have behind := MemTableKey.toBytes_lt_of_signs (fits early isEarly) (fits late isLate) negative
    nonnegative
  have before : early.key < late.key := by
    rw [MemTableKey.lt_iff]
    omega
  cases ordered.forall isFirst isSecond different with
  | inl inOrder =>
    have bytes := inOrder.2
    rw [sameEarly, sameLate] at bytes
    exact lt_asymm bytes behind
  | inr reversed =>
    have keys := reversed.1
    rw [sameEarly, sameLate] at keys
    exact lt_asymm keys before

theorem mergesInputs_of_not_mixed (fileLength : SSTableFile Record → ℕ) (level number : ℕ)
    (oneSign : ¬MixedSigns inputs) :
    MergesInputs inputs (.of number (mergeEntries inputs))
      (.ofFile fileLength level (.of number (mergeEntries inputs))) where
  keys := by
    rw [of_entries]
    exact exists_key_mergeEntries fits
  records := by
    rw [of_entries]
    exact mergeEntries_subset inputs
  increasing := by
    rw [of_entries]
    exact increasing_of_not_mixed fits oneSign
  entryCount := (sound_of number (mergeEntries inputs)).count
  least := by
    rw [of_entries]
    intro entry member least
    have someEntries : mergeEntries inputs ≠ [] := List.ne_nil_of_mem member
    obtain ⟨keyRange, keySpans, isLow, -⟩ := exists_keyRange number someEntries
    obtain ⟨timeRange, timeSpans, isStart, -⟩ :=
      exists_timestampRange number someEntries
    rw [keys, of_entries] at keySpans
    rw [timestamps, of_entries] at timeSpans
    obtain ⟨other, isOther, isKey⟩ := List.mem_map.mp keySpans.low
    obtain ⟨early, isEarly, isTime⟩ := List.mem_map.mp timeSpans.low
    constructor
    · apply isLow.symm.trans
      apply le_antisymm (keySpans.within _ (List.mem_map_of_mem member)).1
      rw [← isKey]
      exact toBytes_le_of_not_mixed fits oneSign member isOther (least other isOther)
    · apply isStart.symm.trans
      apply le_antisymm (timeSpans.within _ (List.mem_map_of_mem member)).1
      have before := (MemTableKey.le_iff _ _).mp (least early isEarly)
      omega
  greatest := by
    rw [of_entries]
    intro entry member greatest
    have someEntries : mergeEntries inputs ≠ [] := List.ne_nil_of_mem member
    obtain ⟨keyRange, keySpans, -, isHigh⟩ := exists_keyRange number someEntries
    obtain ⟨timeRange, timeSpans, -, isEnd⟩ :=
      exists_timestampRange number someEntries
    rw [keys, of_entries] at keySpans
    rw [timestamps, of_entries] at timeSpans
    obtain ⟨other, isOther, isKey⟩ := List.mem_map.mp keySpans.high
    obtain ⟨late, isLate, isTime⟩ := List.mem_map.mp timeSpans.high
    constructor
    · apply isHigh.symm.trans
      apply le_antisymm _ (keySpans.within _ (List.mem_map_of_mem member)).2
      rw [← isKey]
      exact toBytes_le_of_not_mixed fits oneSign isOther member (greatest other isOther)
    · apply isEnd.symm.trans
      apply le_antisymm _ (timeSpans.within _ (List.mem_map_of_mem member)).2
      have behind := (MemTableKey.le_iff _ _).mp (greatest late isLate)
      omega

end Merging

/-- A compaction of files that writers have left does what it should exactly if the timestamps
do not lie on both sides of the epoch. -/
theorem compacts_iff_not_mixed (fileLength : SSTableFile Record → ℕ)
    (readsMetadata : ReadsMetadata Record) (files : SSTableFiles Record) (task : CompactionTask)
    (readable : ∀ info ∈ task.sstables, Readable files info)
    (fits : ∀ info ∈ task.sstables, ∀ entry ∈ (fileAt files info.filePath).entries,
      entry.key.Fits) :
    Compacts fileLength readsMetadata files task ↔
      ¬MixedSigns (task.sstables.flatMap fun info => (fileAt files info.filePath).entries) := by
  have inputsFit : ∀ entry ∈ task.sstables.flatMap fun info =>
      (fileAt files info.filePath).entries, entry.key.Fits := by
    intro entry member
    obtain ⟨info, isInfo, inside⟩ := List.mem_flatMap.mp member
    exact fits info isInfo entry inside
  have executes : exec (executeCompaction fileLength readsMetadata task) files =
      (.ok (outcome fileLength files task), files.insert (output files task)) :=
    exec_executeCompaction_of_readable readsMetadata readable
  have isWritten : output files task ∈ (files.insert (output files task)).rows :=
    KeyedRows.mem_insert.mpr (Or.inl rfl)
  have isFound := RkyvSSTable.findFile_of_mem isWritten
  rw [output, of_number, ← output] at isFound
  constructor
  · intro compacts mixed
    obtain ⟨result, after, found, isResult, isOutput, merges⟩ := compacts
    rw [executes] at isResult
    cases isResult
    rw [isFound] at isOutput
    cases isOutput
    have increasing := merges.increasing
    rw [output, of_entries] at increasing
    exact not_increasing_of_mixed inputsFit mixed increasing
  · intro oneSign
    exact ⟨_, _, _, executes, isFound,
      mergesInputs_of_not_mixed inputsFit fileLength task.targetLevel task.outputPath oneSign⟩

/-- A file with a key of each of two timestamps, and a file with the first one again. -/
def twoFiles (first second : ℤ) : SSTableFiles ℕ :=
  (KeyedRows.empty.insert (.of 1 [⟨⟨first, 1⟩, 10⟩, ⟨⟨second, 2⟩, 20⟩])).insert
    (.of 2 [⟨⟨first, 1⟩, 30⟩])

def mergeBoth (first second : ℤ) : CompactionTask where
  sourceLevel := 0
  targetLevel := 1
  sstables := [1, 2].map fun path =>
    .ofFile (fun _ => 0) 0 (fileAt (twoFiles first second) path)
  outputPath := 3

theorem twoFiles_readable (member : info ∈ (mergeBoth first second).sstables)
    (low : -2 ^ 63 ≤ first ∧ -2 ^ 63 ≤ second) (high : first < 2 ^ 63 ∧ second < 2 ^ 63) :
    Readable (twoFiles first second) info ∧
      ∀ entry ∈ (fileAt (twoFiles first second) info.filePath).entries, entry.key.Fits := by
  have isInfo : info.filePath = 1 ∨ info.filePath = 2 := by
    obtain ⟨path, isPath, isInfo⟩ := List.mem_map.mp member
    rw [← isInfo]
    simp only [List.mem_cons, List.not_mem_nil, or_false] at isPath
    cases isPath with
    | inl isFirst =>
      subst isFirst
      exact Or.inl rfl
    | inr isSecond =>
      subst isSecond
      exact Or.inr rfl
  have oneFits : 1 < 2 ^ 64 := by decide
  have twoFits : 2 < 2 ^ 64 := by decide
  cases isInfo with
  | inl isFirst =>
    have isFile : fileAt (twoFiles first second) info.filePath =
        .of 1 [⟨⟨first, 1⟩, 10⟩, ⟨⟨second, 2⟩, 20⟩] := by
      rw [isFirst]
      rfl
    constructor
    · constructor
      · rw [isFile]
        exact List.mem_cons_self
      · rw [isFile, isFirst]
        rfl
      · rw [isFile]
        rfl
      · rw [isFile, of_entries]
        simp only [List.mem_cons, List.not_mem_nil, or_false, forall_eq_or_imp, forall_eq]
        omega
    · rw [isFile, of_entries]
      simp only [List.mem_cons, List.not_mem_nil, or_false, forall_eq_or_imp, forall_eq]
      exact ⟨⟨⟨low.1, high.1⟩, oneFits⟩, ⟨low.2, high.2⟩, twoFits⟩
  | inr isSecond =>
    have isFile : fileAt (twoFiles first second) info.filePath = .of 2 [⟨⟨first, 1⟩, 30⟩] := by
      rw [isSecond]
      rfl
    constructor
    · constructor
      · rw [isFile]
        exact List.mem_cons_of_mem _ List.mem_cons_self
      · rw [isFile, isSecond]
        rfl
      · rw [isFile]
        rfl
      · rw [isFile, of_entries]
        simp only [List.mem_singleton, forall_eq]
        omega
    · rw [isFile, of_entries]
      simp only [List.mem_singleton, forall_eq]
      exact ⟨⟨low.1, high.1⟩, oneFits⟩

/-- Two timestamps behind the epoch. -/
theorem laterTimes_compact :
    Compacts (fun _ => 0) (fun _ _ => .ok []) (twoFiles 4 7) (mergeBoth 4 7) :=
  (compacts_iff_not_mixed (fun _ => 0) (fun _ _ => .ok []) (twoFiles 4 7) (mergeBoth 4 7)
    (fun _ member => (twoFiles_readable member (by decide) (by decide)).1)
    (fun _ member => (twoFiles_readable member (by decide) (by decide)).2)).mpr (by
      unfold MixedSigns
      decide)

/-- The merged file starts with the timestamp behind the epoch. -/
theorem aroundEpoch_not_compacts :
    (∀ info ∈ (mergeBoth (-4) 7).sstables, Readable (twoFiles (-4) 7) info ∧
      ∀ entry ∈ (fileAt (twoFiles (-4) 7) info.filePath).entries, entry.key.Fits) ∧
    ¬Compacts (fun _ => 0) (fun _ _ => .ok []) (twoFiles (-4) 7) (mergeBoth (-4) 7) := by
  have readable : ∀ info ∈ (mergeBoth (-4) 7).sstables, Readable (twoFiles (-4) 7) info ∧
      ∀ entry ∈ (fileAt (twoFiles (-4) 7) info.filePath).entries, entry.key.Fits :=
    fun _ member => twoFiles_readable member (by decide) (by decide)
  apply And.intro readable
  intro compacts
  obtain ⟨result, after, found, isResult, isOutput, merges⟩ := compacts
  rw [exec_executeCompaction_of_readable _ fun info member => (readable info member).1] at isResult
  cases isResult
  have isMerged : RkyvSSTable.findFile 3 ((twoFiles (-4) 7).insert
      (output (twoFiles (-4) 7) (mergeBoth (-4) 7))) =
        some (.of 3 [⟨⟨7, 2⟩, 20⟩, ⟨⟨-4, 1⟩, 10⟩]) := by decide
  cases isMerged.symm.trans isOutput
  have increasing := merges.increasing
  rw [of_entries] at increasing
  exact absurd increasing (by decide)

end QAExchange
