import QAExchange.Storage.BlockIndex

/-! # Searching the blocks

Keys in order, cut into blocks, and an index with an entry for each of the blocks. A search by
key finds the first block that does not end before it, and a search by time the blocks between
which the range lies.
-/

namespace QAExchange

open Foundation BlockIndexBuilder BlockIndexEntry

def SortedBlocks (blocks : List KeyBlock) : Prop :=
  (blocks.flatMap KeyBlock.keys).Pairwise (· ≤ ·)

namespace KeyBlock

theorem first_mem (block : KeyBlock) : block.first ∈ block.keys :=
  List.mem_map_of_mem (List.head_mem block.nonempty)

theorem last_mem (block : KeyBlock) : block.last ∈ block.keys :=
  List.mem_map_of_mem (List.getLast_mem block.nonempty)

theorem between {block : KeyBlock} (sorted : block.keys.Pairwise (· ≤ ·)) {key : MemTableKey}
    (member : key ∈ block.keys) : block.first ≤ key ∧ key ≤ block.last := by
  constructor
  · have isCons : block.keys = block.first :: block.keyed.tail.map Prod.fst := by
      rw [keys, ← List.cons_head_tail block.nonempty, List.map_cons]
      rfl
    rw [isCons] at sorted member
    cases List.mem_cons.mp member with
    | inl isFirst => exact isFirst ▸ le_refl _
    | inr later => exact (List.pairwise_cons.mp sorted).1 key later
  · have isConcat : block.keys = block.keyed.dropLast.map Prod.fst ++ [block.last] := by
      calc
        block.keys = (block.keyed.dropLast ++ [block.keyed.getLast block.nonempty]).map Prod.fst := by
          rw [List.dropLast_append_getLast block.nonempty, keys]
        _ = block.keyed.dropLast.map Prod.fst ++ [block.last] := by
          rw [List.map_append]
          rfl
    rw [isConcat] at sorted member
    cases List.mem_append.mp member with
    | inl earlier =>
      exact (List.pairwise_append.mp sorted).2.2 key earlier _ (List.mem_singleton_self _)
    | inr isLast => exact List.mem_singleton.mp isLast ▸ le_refl _

end KeyBlock

section Sorted

variable {blocks : List KeyBlock} (sorted : SortedBlocks blocks)

include sorted

theorem sorted_keys {block : KeyBlock} (member : block ∈ blocks) : block.keys.Pairwise (· ≤ ·) :=
  (List.pairwise_flatMap.mp sorted).1 block member

theorem ends_before : blocks.Pairwise fun left right => left.last ≤ right.first :=
  (List.pairwise_flatMap.mp sorted).2.imp fun inOrder =>
    inOrder _ (KeyBlock.last_mem _) _ (KeyBlock.first_mem _)

end Sorted

theorem getElem?_partitionPoint (test : BlockIndexEntry → Bool) (entries : List BlockIndexEntry) :
    entries[partitionPoint test entries]? = entries.find? fun entry => !test entry := by
  rw [partitionPoint]
  induction entries with
  | nil => rfl
  | cons entry entries induction =>
    rw [List.find?_cons, List.takeWhile_cons]
    cases test entry with
    | false => rfl
    | true => exact induction

structure CoversBlocks (index : BlockIndex) (blocks : List KeyBlock) : Prop where
  entries : index.entries = blocks.map KeyBlock.entry
  timestamps : ∀ block ∈ blocks, index.minTimestamp ≤ block.first.timestamp ∧
    block.last.timestamp ≤ index.maxTimestamp

section Search

variable {blocks : List KeyBlock} (sorted : SortedBlocks blocks) {index : BlockIndex}
  (covers : CoversBlocks index blocks)

include sorted covers

theorem findBlock_of_mem (member : block ∈ blocks) (inside : key ∈ block.keys) :
    ∃ found ∈ blocks, key ∈ found.keys ∧
      index.findBlock key.timestamp key.sequence = some found.entry := by
  have bounds := KeyBlock.between (sorted_keys sorted member) inside
  have isBlock : ∃ other ∈ blocks, (!decide (other.last < key)) = true :=
    ⟨block, member, by simpa using bounds.2⟩
  obtain ⟨found, isFound⟩ := Option.isSome_iff_exists.mp (List.find?_isSome.mpr isBlock)
  obtain ⟨notBefore, front, back, isSplit, before⟩ := List.find?_eq_some_iff_append.mp isFound
  have isLate : key ≤ found.last := by simpa using notBefore
  have foundMember : found ∈ blocks := by
    rw [isSplit]
    exact List.mem_append_right _ List.mem_cons_self
  have foundInside : key ∈ found.keys := by
    rw [isSplit] at member
    cases List.mem_append.mp member with
    | inl early =>
      have isBefore : block.last < key := by simpa using before block early
      exact absurd bounds.2 (not_le.mpr isBefore)
    | inr later =>
      cases List.mem_cons.mp later with
      | inl same => exact same ▸ inside
      | inr behind =>
        -- A key on both sides of a boundary is also the last one in front of it.
        have ends := ends_before sorted
        rw [isSplit] at ends
        have inOrder := (List.pairwise_cons.mp (List.pairwise_append.mp ends).2.1).1
          block behind
        have isLast : key = found.last := le_antisymm isLate (inOrder.trans bounds.1)
        exact isLast ▸ found.last_mem
  have foundBounds := KeyBlock.between (sorted_keys sorted foundMember) foundInside
  have start := (MemTableKey.le_iff _ _).mp foundBounds.1
  have stop := (MemTableKey.le_iff _ _).mp foundBounds.2
  have times := covers.timestamps found foundMember
  have isTest : (fun entry : BlockIndexEntry =>
      !decide (entry.endTimestamp < key.timestamp ∨
        entry.endTimestamp = key.timestamp ∧ entry.endSequence < key.sequence)) ∘
          KeyBlock.entry = fun block => !decide (block.last < key) := by
    funext other
    simp only [Function.comp_apply, MemTableKey.lt_iff]
    rfl
  refine ⟨found, foundMember, foundInside, ?_⟩
  rw [BlockIndex.findBlock, if_neg (by omega)]
  dsimp only
  rw [getElem?_partitionPoint, covers.entries, List.find?_map, isTest, isFound, Option.map_some, Option.filter_some, if_pos]
  rw [mayContainTimestamp, decide_eq_true_eq]
  change found.first.timestamp ≤ _ ∧ _ ≤ found.last.timestamp
  omega

end Search

/-- A block with a timestamp of the range, or with both ends of the range between its own. -/
def KeyBlock.Meets (startTs endTs : ℤ) (block : KeyBlock) : Prop :=
  (∃ key ∈ block.keys, startTs ≤ key.timestamp ∧ key.timestamp ≤ endTs) ∨
    (block.first.timestamp ≤ startTs ∧ block.first.timestamp ≤ endTs ∧
      startTs ≤ block.last.timestamp ∧ endTs ≤ block.last.timestamp)

instance (startTs endTs : ℤ) (block : KeyBlock) : Decidable (block.Meets startTs endTs) :=
  inferInstanceAs (Decidable (_ ∨ _))

theorem overlapsRange_iff {block : KeyBlock} (sorted : block.keys.Pairwise (· ≤ ·))
    (startTs endTs : ℤ) :
    block.entry.overlapsRange startTs endTs = true ↔ block.Meets startTs endTs := by
  have overlaps : block.entry.overlapsRange startTs endTs = true ↔
      block.first.timestamp ≤ endTs ∧ startTs ≤ block.last.timestamp := by
    rw [overlapsRange, Bool.not_eq_true', decide_eq_false_iff_not, not_or, not_lt,
      not_lt]
    rfl
  rw [overlaps]
  constructor
  · intro both
    by_cases isFirst : startTs ≤ block.first.timestamp
    · exact Or.inl ⟨block.first, block.first_mem, isFirst, both.1⟩
    · by_cases isLast : block.last.timestamp ≤ endTs
      · exact Or.inl ⟨block.last, block.last_mem, both.2, isLast⟩
      · exact Or.inr ⟨by omega, both.1, both.2, by omega⟩
  · intro meets
    cases meets with
    | inl inRange =>
      obtain ⟨key, member, after, before⟩ := inRange
      have bounds := KeyBlock.between sorted member
      have start := (MemTableKey.le_iff _ _).mp bounds.1
      have stop := (MemTableKey.le_iff _ _).mp bounds.2
      omega
    | inr spans => exact ⟨spans.2.1, spans.2.2.1⟩

theorem collect_eq_filter (startTs endTs : ℤ) {entries : List BlockIndexEntry}
    (sorted : entries.Pairwise fun left right => left.startTimestamp ≤ right.startTimestamp) :
    BlockIndex.collect startTs endTs entries =
      entries.filter (overlapsRange startTs endTs) := by
  induction entries with
  | nil => rfl
  | cons entry entries induction =>
    have parts := List.pairwise_cons.mp sorted
    rw [BlockIndex.collect]
    split_ifs with behind overlaps
    · symm
      apply List.filter_eq_nil_iff.mpr
      intro other member
      have later : endTs < other.startTimestamp := by
        cases List.mem_cons.mp member with
        | inl same => exact same ▸ behind
        | inr among => exact behind.trans_le (parts.1 other among)
      simp [overlapsRange, later]
    · rw [List.filter_cons_of_pos overlaps, induction parts.2]
    · rw [List.filter_cons_of_neg overlaps, induction parts.2]

theorem filter_drop_partitionPoint (startTs endTs : ℤ) (entries : List BlockIndexEntry) :
    (entries.drop (partitionPoint (fun entry => entry.endTimestamp < startTs) entries)).filter
        (overlapsRange startTs endTs) =
      entries.filter (overlapsRange startTs endTs) := by
  rw [partitionPoint]
  induction entries with
  | nil => rfl
  | cons entry entries induction =>
    rw [List.takeWhile_cons]
    by_cases ended : entry.endTimestamp < startTs
    · have apart : ¬entry.overlapsRange startTs endTs = true := by
        simp [overlapsRange, ended]
      rw [decide_eq_true ended, List.filter_cons_of_neg apart]
      exact induction
    · rw [decide_eq_false ended]
      rfl

section Search

variable {blocks : List KeyBlock} (sorted : SortedBlocks blocks) {index : BlockIndex}
  (covers : CoversBlocks index blocks)

include sorted covers

theorem findBlocksInRange_eq (startTs endTs : ℤ) :
    index.findBlocksInRange startTs endTs =
      (blocks.filter fun block => block.Meets startTs endTs).map KeyBlock.entry := by
  have starts : (blocks.map KeyBlock.entry).Pairwise fun left right =>
      left.startTimestamp ≤ right.startTimestamp := by
    apply List.pairwise_map.mpr
    apply (ends_before sorted).imp_of_mem
    intro left right isLeft isRight inOrder
    have bounds := KeyBlock.between (sorted_keys sorted isLeft) left.last_mem
    have times := (MemTableKey.le_iff _ _).mp (bounds.1.trans inOrder)
    change left.first.timestamp ≤ right.first.timestamp
    omega
  have filtered : (blocks.map KeyBlock.entry).filter (overlapsRange startTs endTs) =
      (blocks.filter fun block => block.Meets startTs endTs).map KeyBlock.entry := by
    rw [List.filter_map]
    congr 1
    apply List.filter_congr
    intro block member
    rw [Bool.eq_iff_iff, Function.comp_apply, decide_eq_true_eq]
    exact overlapsRange_iff (sorted_keys sorted member) startTs endTs
  rw [BlockIndex.findBlocksInRange]
  split_ifs with outside
  · rw [← filtered]
    symm
    apply List.filter_eq_nil_iff.mpr
    intro entry member
    obtain ⟨block, isBlock, isEntry⟩ := List.mem_map.mp member
    have times := covers.timestamps block isBlock
    rw [← isEntry, overlapsRange, Bool.not_eq_true', decide_eq_false_iff_not,
      not_not]
    change endTs < block.first.timestamp ∨ block.last.timestamp < startTs
    omega
  · have dropped := starts.drop
      (i := partitionPoint (fun entry => entry.endTimestamp < startTs)
        (blocks.map KeyBlock.entry))
    rw [covers.entries, collect_eq_filter startTs endTs dropped, filter_drop_partitionPoint,
      filtered]

end Search

/-- Every key is found in a block that has it, ranges give the blocks that they meet, and all
keys are counted. -/
structure FindsBlocks (index : BlockIndex) (blocks : List KeyBlock) : Prop where
  byKey : ∀ block ∈ blocks, ∀ key ∈ block.keys, ∃ found ∈ blocks, key ∈ found.keys ∧
    index.findBlock key.timestamp key.sequence = some found.entry
  byRange : ∀ startTs endTs, index.findBlocksInRange startTs endTs =
    (blocks.filter fun block => block.Meets startTs endTs).map KeyBlock.entry
  total : index.totalEntries = keyCount blocks

theorem coversBlocks_of_regular {config : BlockIndexConfig}
    (regular : Regular config.indexInterval blocks) (fits : keyCount blocks < 2 ^ 64) :
    CoversBlocks (indexOf config blocks) blocks := by
  have complete := (counts_foldl config blocks).complete (total_of_regular regular fits)
  exact ⟨complete.entries, complete.timestamps⟩

/-- The index of sorted blocks is complete exactly if each of them gets an entry. -/
theorem findsBlocks_iff_regular (config : BlockIndexConfig) (blocks : List KeyBlock)
    (sorted : SortedBlocks blocks) :
    FindsBlocks (indexOf config blocks) blocks ↔
      Regular config.indexInterval blocks ∧ keyCount blocks < 2 ^ 64 := by
  constructor
  · intro finds
    exact (totalEntries_eq_iff config blocks).mp finds.total
  · intro regular
    have covers := coversBlocks_of_regular regular.1 regular.2
    exact
      { byKey := fun block member key inside => findBlock_of_mem sorted covers member inside
        byRange := findBlocksInRange_eq sorted covers
        total := (totalEntries_eq_iff config blocks).mpr regular }

def oneKey (timestamp : ℤ) (offset : ℕ) : KeyBlock where
  offset := offset
  checksum := 0
  keyed := [({ timestamp := timestamp, sequence := 1 }, 40)]
  nonempty := List.cons_ne_nil _ _

theorem oneKeys_sorted : SortedBlocks [oneKey 1000 0, oneKey 2000 40] := by
  rw [SortedBlocks]
  decide

/-- With an entry for every key both blocks are found. -/
theorem oneKeys_found :
    FindsBlocks (indexOf { BlockIndexConfig.default with indexInterval := 1 }
      [oneKey 1000 0, oneKey 2000 40]) [oneKey 1000 0, oneKey 2000 40] := by
  apply (findsBlocks_iff_regular _ _ oneKeys_sorted).mpr
  constructor
  · exact ⟨by decide, by decide⟩
  · change 2 < 2 ^ 64
    decide

/-- The default takes sixty-four keys to an entry: the second block has none. -/
theorem oneKeys_lost :
    SortedBlocks [oneKey 1000 0, oneKey 2000 40] ∧
      (indexOf .default [oneKey 1000 0, oneKey 2000 40]).findBlock 2000 1 = none ∧
      (indexOf .default [oneKey 1000 0, oneKey 2000 40]).findBlocksInRange 1500 2500 = [] ∧
      (indexOf .default [oneKey 1000 0, oneKey 2000 40]).totalEntries = 1 ∧
      ¬FindsBlocks (indexOf .default [oneKey 1000 0, oneKey 2000 40])
        [oneKey 1000 0, oneKey 2000 40] := by
  have total : (indexOf .default [oneKey 1000 0, oneKey 2000 40]).totalEntries = 1 := by decide
  refine ⟨oneKeys_sorted, by decide, by decide, total, ?_⟩
  intro finds
  have all := finds.total
  rw [total] at all
  exact absurd all (by decide)

end QAExchange
