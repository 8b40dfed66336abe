import QAExchange.Storage.OltpMemTable

/-! # The index of the blocks

A builder is told where blocks start and end, and keeps an entry for a block once it has seen
enough keys since the last entry. A search takes the entries for the blocks.
-/

namespace QAExchange

open Foundation

structure BlockIndexConfig where
  blockSize : ℕ
  prefixCompression : Bool
  restartInterval : ℕ
  indexInterval : ℕ

def BlockIndexConfig.default : BlockIndexConfig where
  blockSize := 4096
  prefixCompression := true
  restartInterval := 16
  indexInterval := 64

structure BlockIndexEntry where
  startTimestamp : ℤ
  startSequence : ℕ
  endTimestamp : ℤ
  endSequence : ℕ
  offset : ℕ
  size : ℕ
  entryCount : ℕ
  checksum : ℕ

namespace BlockIndexEntry

def mayContainTimestamp (timestamp : ℤ) (entry : BlockIndexEntry) : Bool :=
  entry.startTimestamp ≤ timestamp ∧ timestamp ≤ entry.endTimestamp

def overlapsRange (startTs endTs : ℤ) (entry : BlockIndexEntry) : Bool :=
  !(endTs < entry.startTimestamp ∨ entry.endTimestamp < startTs)

end BlockIndexEntry

/-- `partition_point` of entries that a test divides into a front and a back. -/
def partitionPoint (test : BlockIndexEntry → Bool) (entries : List BlockIndexEntry) : ℕ :=
  (entries.takeWhile test).length

structure BlockIndex where
  entries : List BlockIndexEntry
  totalEntries : ℕ
  minTimestamp : ℤ
  maxTimestamp : ℤ

namespace BlockIndex

/-- From `i64::MAX` to `i64::MIN`. -/
def new : BlockIndex where
  entries := []
  totalEntries := 0
  minTimestamp := 2 ^ 63 - 1
  maxTimestamp := -2 ^ 63

def addEntry (entry : BlockIndexEntry) (index : BlockIndex) : BlockIndex where
  entries := index.entries ++ [entry]
  totalEntries := (index.totalEntries + entry.entryCount) % 2 ^ 64
  minTimestamp := min index.minTimestamp entry.startTimestamp
  maxTimestamp := max index.maxTimestamp entry.endTimestamp

def findBlock (timestamp : ℤ) (sequence : ℕ) (index : BlockIndex) : Option BlockIndexEntry :=
  if timestamp < index.minTimestamp ∨ index.maxTimestamp < timestamp then none
  else
    let idx := partitionPoint (fun entry => entry.endTimestamp < timestamp ∨
      entry.endTimestamp = timestamp ∧ entry.endSequence < sequence) index.entries
    index.entries[idx]?.filter (BlockIndexEntry.mayContainTimestamp timestamp)

/-- The entries up to the first one behind the range. -/
def collect (startTs endTs : ℤ) : List BlockIndexEntry → List BlockIndexEntry
  | [] => []
  | entry :: entries =>
    if endTs < entry.startTimestamp then []
    else if entry.overlapsRange startTs endTs then entry :: collect startTs endTs entries
    else collect startTs endTs entries

def findBlocksInRange (startTs endTs : ℤ) (index : BlockIndex) : List BlockIndexEntry :=
  if endTs < index.minTimestamp ∨ index.maxTimestamp < startTs then []
  else
    let startIdx := partitionPoint (fun entry => entry.endTimestamp < startTs) index.entries
    collect startTs endTs (index.entries.drop startIdx)

end BlockIndex

/-! ## The builder -/

structure BlockIndexBuilder where
  config : BlockIndexConfig
  index : BlockIndex
  currentBlockStartTs : ℤ
  currentBlockStartSeq : ℕ
  currentBlockOffset : ℕ
  currentBlockSize : ℕ
  currentBlockEntries : ℕ
  entriesSinceLastIndex : ℕ

namespace BlockIndexBuilder

def new (config : BlockIndexConfig) : BlockIndexBuilder where
  config := config
  index := .new
  currentBlockStartTs := 0
  currentBlockStartSeq := 0
  currentBlockOffset := 0
  currentBlockSize := 0
  currentBlockEntries := 0
  entriesSinceLastIndex := 0

def startBlock (offset : ℕ) (firstTimestamp : ℤ) (firstSequence : ℕ)
    (builder : BlockIndexBuilder) : BlockIndexBuilder :=
  { builder with
    currentBlockOffset := offset
    currentBlockStartTs := firstTimestamp
    currentBlockStartSeq := firstSequence
    currentBlockSize := 0
    currentBlockEntries := 0 }

/-- The counters of a block are `u32`. -/
def addEntry (entrySize : ℕ) (builder : BlockIndexBuilder) : BlockIndexBuilder :=
  { builder with
    currentBlockSize := (builder.currentBlockSize + entrySize) % 2 ^ 32
    currentBlockEntries := (builder.currentBlockEntries + 1) % 2 ^ 32
    entriesSinceLastIndex := (builder.entriesSinceLastIndex + 1) % 2 ^ 64 }

def finishBlock (endTimestamp : ℤ) (endSequence checksum : ℕ) (builder : BlockIndexBuilder) :
    BlockIndexBuilder :=
  if builder.currentBlockEntries = 0 then builder
  else if builder.config.indexInterval ≤ builder.entriesSinceLastIndex ∨
      builder.index.entries = [] then
    { builder with
      index := builder.index.addEntry
        { startTimestamp := builder.currentBlockStartTs
          startSequence := builder.currentBlockStartSeq
          endTimestamp := endTimestamp
          endSequence := endSequence
          offset := builder.currentBlockOffset
          size := builder.currentBlockSize
          entryCount := builder.currentBlockEntries
          checksum := checksum }
      entriesSinceLastIndex := 0 }
  else builder

def build (builder : BlockIndexBuilder) : BlockIndex := builder.index

end BlockIndexBuilder

structure KeyBlock where
  offset : ℕ
  checksum : ℕ
  keyed : List (MemTableKey × ℕ)
  nonempty : keyed ≠ []

namespace KeyBlock

def keys (block : KeyBlock) : List MemTableKey := block.keyed.map Prod.fst

def first (block : KeyBlock) : MemTableKey := (block.keyed.head block.nonempty).1

def last (block : KeyBlock) : MemTableKey := (block.keyed.getLast block.nonempty).1

def entry (block : KeyBlock) : BlockIndexEntry where
  startTimestamp := block.first.timestamp
  startSequence := block.first.sequence
  endTimestamp := block.last.timestamp
  endSequence := block.last.sequence
  offset := block.offset
  size := (block.keyed.map Prod.snd).sum % 2 ^ 32
  entryCount := block.keyed.length % 2 ^ 32
  checksum := block.checksum

end KeyBlock

namespace BlockIndexBuilder

def addBlock (builder : BlockIndexBuilder) (block : KeyBlock) : BlockIndexBuilder :=
  (block.keyed.foldl (fun builder keyed => builder.addEntry keyed.2)
    (builder.startBlock block.offset block.first.timestamp block.first.sequence)).finishBlock
      block.last.timestamp block.last.sequence block.checksum

def indexOf (config : BlockIndexConfig) (blocks : List KeyBlock) : BlockIndex :=
  (blocks.foldl addBlock (new config)).build

/-! ## What the builder keeps -/

variable {builder : BlockIndexBuilder}

theorem foldl_addEntry (keyed : List (MemTableKey × ℕ))
    (small : builder.currentBlockSize < 2 ^ 32 ∧ builder.currentBlockEntries < 2 ^ 32 ∧
      builder.entriesSinceLastIndex < 2 ^ 64) :
    keyed.foldl (fun builder keyed => builder.addEntry keyed.2) builder =
      { builder with
        currentBlockSize := (builder.currentBlockSize + (keyed.map Prod.snd).sum) % 2 ^ 32
        currentBlockEntries := (builder.currentBlockEntries + keyed.length) % 2 ^ 32
        entriesSinceLastIndex := (builder.entriesSinceLastIndex + keyed.length) % 2 ^ 64 } := by
  induction keyed generalizing builder with
  | nil =>
    rw [List.foldl_nil, List.map_nil, List.sum_nil, List.length_nil, Nat.add_zero, Nat.add_zero,
      Nat.add_zero, Nat.mod_eq_of_lt small.1, Nat.mod_eq_of_lt small.2.1,
      Nat.mod_eq_of_lt small.2.2]
  | cons entry keyed induction =>
    rw [List.foldl_cons, induction]
    · simp only [addEntry, List.map_cons, List.sum_cons, List.length_cons, Nat.mod_add_mod,
        Nat.add_assoc, Nat.add_comm 1]
    · refine ⟨Nat.mod_lt _ (by decide), Nat.mod_lt _ (by decide), Nat.mod_lt _ (by decide)⟩

theorem addBlock_eq (block : KeyBlock) (small : builder.entriesSinceLastIndex < 2 ^ 64) :
    builder.addBlock block =
      ({ builder with
        currentBlockStartTs := block.entry.startTimestamp
        currentBlockStartSeq := block.entry.startSequence
        currentBlockOffset := block.entry.offset
        currentBlockSize := block.entry.size
        currentBlockEntries := block.entry.entryCount
        entriesSinceLastIndex :=
          (builder.entriesSinceLastIndex + block.keyed.length) % 2 ^ 64 } :
        BlockIndexBuilder).finishBlock block.last.timestamp block.last.sequence block.checksum := by
  have started : (builder.startBlock block.offset block.first.timestamp
      block.first.sequence).currentBlockSize < 2 ^ 32 ∧
      (builder.startBlock block.offset block.first.timestamp
        block.first.sequence).currentBlockEntries < 2 ^ 32 ∧
      (builder.startBlock block.offset block.first.timestamp
        block.first.sequence).entriesSinceLastIndex < 2 ^ 64 :=
    ⟨Nat.two_pow_pos 32, Nat.two_pow_pos 32, small⟩
  rw [addBlock, foldl_addEntry block.keyed started]
  simp only [startBlock, Nat.zero_add]
  rfl

def keyCount (blocks : List KeyBlock) : ℕ := (blocks.map fun block => block.keyed.length).sum

theorem keyCount_append_singleton (blocks : List KeyBlock) (block : KeyBlock) :
    keyCount (blocks ++ [block]) = keyCount blocks + block.keyed.length := by
  rw [keyCount, List.map_append, List.sum_append, List.map_singleton, List.sum_singleton]
  rfl

/-- Every block gets an entry of its own: the counters hold its keys, and a block behind the
first one has as many keys as an entry takes. -/
structure Regular (interval : ℕ) (blocks : List KeyBlock) : Prop where
  counted : ∀ block ∈ blocks, block.keyed.length < 2 ^ 32
  sampled : ∀ block ∈ blocks.tail, interval ≤ block.keyed.length

structure Complete (builder : BlockIndexBuilder) (blocks : List KeyBlock) : Prop where
  entries : builder.index.entries = blocks.map KeyBlock.entry
  timestamps : ∀ block ∈ blocks, builder.index.minTimestamp ≤ block.first.timestamp ∧
    block.last.timestamp ≤ builder.index.maxTimestamp
  sinceLast : builder.entriesSinceLastIndex = 0
  regular : Regular builder.config.indexInterval blocks

/-- The index never counts too much. It counts all keys only if it has all blocks. -/
structure Counts (config : BlockIndexConfig) (builder : BlockIndexBuilder)
    (blocks : List KeyBlock) : Prop where
  config : builder.config = config
  small : builder.entriesSinceLastIndex < 2 ^ 64
  bounded : builder.index.totalEntries < 2 ^ 64
  total : builder.index.totalEntries ≤ keyCount blocks
  complete : builder.index.totalEntries = keyCount blocks → builder.Complete blocks

variable {block : KeyBlock}

theorem Regular.append_singleton (regular : Regular interval blocks)
    (counted : block.keyed.length < 2 ^ 32)
    (sampled : blocks = [] ∨ interval ≤ block.keyed.length) :
    Regular interval (blocks ++ [block]) where
  counted := by
    intro other member
    cases List.mem_append.mp member with
    | inl old => exact regular.counted other old
    | inr isBlock => exact List.mem_singleton.mp isBlock ▸ counted
  sampled := by
    intro other member
    cases isBlocks : blocks with
    | nil =>
      rw [isBlocks] at member
      cases member
    | cons first rest =>
      have some : blocks ≠ [] := isBlocks ▸ List.cons_ne_nil _ _
      rw [List.tail_append_of_ne_nil some] at member
      cases List.mem_append.mp member with
      | inl old => exact regular.sampled other old
      | inr isBlock => exact List.mem_singleton.mp isBlock ▸ sampled.resolve_left some

theorem counts_new (config : BlockIndexConfig) : Counts config (new config) [] where
  config := rfl
  small := by
    change 0 < 2 ^ 64
    decide
  bounded := by
    change 0 < 2 ^ 64
    decide
  total := le_refl 0
  complete _ :=
    { entries := rfl
      timestamps := by simp
      sinceLast := rfl
      regular := ⟨by simp, by simp⟩ }

theorem Counts.addBlock {config : BlockIndexConfig} (counts : Counts config builder blocks)
    (block : KeyBlock) : Counts config (builder.addBlock block) (blocks ++ [block]) := by
  have some : 0 < block.keyed.length := List.length_pos_of_ne_nil block.nonempty
  have total := counts.total
  have since : (builder.entriesSinceLastIndex + block.keyed.length) % 2 ^ 64 < 2 ^ 64 :=
    Nat.mod_lt _ (by decide)
  have fewer : block.entry.entryCount ≤ block.keyed.length := Nat.mod_le _ _
  rw [addBlock_eq block counts.small, finishBlock]
  dsimp only
  split_ifs with noKeys isDue
  · exact
      { config := counts.config
        small := since
        bounded := counts.bounded
        total := by
          rw [keyCount_append_singleton]
          exact total.trans (Nat.le_add_right _ _)
        complete := by
          intro all
          rw [keyCount_append_singleton] at all
          dsimp only at all
          omega }
  · exact
      { config := counts.config
        small := by
          change 0 < 2 ^ 64
          decide
        bounded := Nat.mod_lt _ (by decide)
        total := by
          rw [keyCount_append_singleton]
          exact (Nat.mod_le _ _).trans (Nat.add_le_add total fewer)
        complete := by
          intro all
          rw [keyCount_append_singleton] at all
          change (builder.index.totalEntries + block.entry.entryCount) % 2 ^ 64 = _ at all
          have bounded := Nat.mod_le (builder.index.totalEntries + block.entry.entryCount) (2 ^ 64)
          have before := counts.complete (by omega)
          have counted : block.keyed.length < 2 ^ 32 := by
            have isAll : block.entry.entryCount = block.keyed.length := by omega
            rw [← isAll]
            exact Nat.mod_lt _ (by decide)
          have entryOf : ({ startTimestamp := block.entry.startTimestamp
                            startSequence := block.entry.startSequence
                            endTimestamp := block.last.timestamp
                            endSequence := block.last.sequence
                            offset := block.entry.offset
                            size := block.entry.size
                            entryCount := block.entry.entryCount
                            checksum := block.checksum } : BlockIndexEntry) = block.entry := rfl
          exact
            { entries := by
                change builder.index.entries ++ [_] = _
                rw [before.entries, entryOf, List.map_append, List.map_singleton]
              timestamps := by
                intro other member
                change min builder.index.minTimestamp block.first.timestamp ≤ _ ∧
                  _ ≤ max builder.index.maxTimestamp block.last.timestamp
                cases List.mem_append.mp member with
                | inl old =>
                  have bounds := before.timestamps other old
                  exact ⟨(min_le_left _ _).trans bounds.1, bounds.2.trans (le_max_left _ _)⟩
                | inr isBlock =>
                  rw [List.mem_singleton.mp isBlock]
                  exact ⟨min_le_right _ _, le_max_right _ _⟩
              sinceLast := rfl
              regular := by
                apply before.regular.append_singleton counted
                cases isDue with
                | inl due =>
                  rw [before.sinceLast, Nat.zero_add, Nat.mod_eq_of_lt (by omega)] at due
                  exact Or.inr due
                | inr nothing =>
                  rw [before.entries, List.map_eq_nil_iff] at nothing
                  exact Or.inl nothing } }
  · exact
      { config := counts.config
        small := since
        bounded := counts.bounded
        total := by
          rw [keyCount_append_singleton]
          exact total.trans (Nat.le_add_right _ _)
        complete := by
          intro all
          rw [keyCount_append_singleton] at all
          dsimp only at all
          omega }

theorem counts_foldl (config : BlockIndexConfig) (blocks : List KeyBlock) :
    Counts config (blocks.foldl addBlock (new config)) blocks := by
  induction blocks using List.reverseRecOn with
  | nil => exact counts_new config
  | append_singleton blocks block induction =>
    rw [List.foldl_append]
    exact induction.addBlock block

theorem Regular.of_append_singleton (regular : Regular interval (blocks ++ [block])) :
    Regular interval blocks where
  counted other member := regular.counted other (List.mem_append_left _ member)
  sampled other member := by
    have some : blocks ≠ [] := by
      intro isNil
      rw [isNil] at member
      cases member
    apply regular.sampled other
    rw [List.tail_append_of_ne_nil some]
    exact List.mem_append_left _ member

theorem Regular.last_sampled (regular : Regular interval (blocks ++ [block])) :
    interval ≤ block.keyed.length ∨ blocks = [] := by
  by_cases isNil : blocks = []
  · exact Or.inr isNil
  · apply Or.inl
    apply regular.sampled block
    rw [List.tail_append_of_ne_nil isNil]
    exact List.mem_append_right _ (List.mem_singleton_self block)

theorem total_of_regular {config : BlockIndexConfig} (regular : Regular config.indexInterval blocks)
    (fits : keyCount blocks < 2 ^ 64) :
    (blocks.foldl addBlock (new config)).index.totalEntries = keyCount blocks := by
  induction blocks using List.reverseRecOn with
  | nil => rfl
  | append_singleton blocks block induction =>
    rw [keyCount_append_singleton] at fits
    have counts := counts_foldl config blocks
    have total := induction regular.of_append_singleton (by omega)
    have before := counts.complete total
    have counted := regular.counted block
      (List.mem_append_right _ (List.mem_singleton_self block))
    have isAll : block.entry.entryCount = block.keyed.length := Nat.mod_eq_of_lt counted
    have some : 0 < block.keyed.length := List.length_pos_of_ne_nil block.nonempty
    have isDue : (blocks.foldl addBlock (new config)).config.indexInterval ≤
        ((blocks.foldl addBlock (new config)).entriesSinceLastIndex +
          block.keyed.length) % 2 ^ 64 ∨
        (blocks.foldl addBlock (new config)).index.entries = [] := by
      rw [counts.config, before.sinceLast, Nat.zero_add, Nat.mod_eq_of_lt (by omega),
        before.entries, List.map_eq_nil_iff]
      exact regular.last_sampled
    rw [List.foldl_append, List.foldl_cons, List.foldl_nil, addBlock_eq block counts.small,
      finishBlock, if_neg (by dsimp only; omega), if_pos isDue, keyCount_append_singleton]
    change (_ + block.entry.entryCount) % 2 ^ 64 = _
    rw [total, isAll, Nat.mod_eq_of_lt fits]

/-- The index has all keys exactly if every block gets an entry. -/
theorem totalEntries_eq_iff (config : BlockIndexConfig) (blocks : List KeyBlock) :
    (indexOf config blocks).totalEntries = keyCount blocks ↔
      Regular config.indexInterval blocks ∧ keyCount blocks < 2 ^ 64 := by
  have counts := counts_foldl config blocks
  constructor
  · intro all
    have regular := (counts.complete all).regular
    rw [counts.config] at regular
    exact ⟨regular, all ▸ counts.bounded⟩
  · intro regular
    exact total_of_regular regular.1 regular.2

end BlockIndexBuilder

end QAExchange
