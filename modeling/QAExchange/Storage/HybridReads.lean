import QAExchange.Foundation.SortedPages
import QAExchange.Storage.OltpBatchAdapter
import QAExchange.Storage.OltpHoldings

/-! # Agreement of the two stores

A query over converted and stored records should return what the filter accepts in all of
them. It returns rows that the filter rejects, because Parquet files are not asked for
kinds and instruments, and it misses records that neither part asks for.
-/

namespace QAExchange

open Foundation StorageRecord

variable {Price : Type}

namespace ParquetSSTable

variable {row : OlapRow Price}

theorem statistics_bounds (member : row ∈ rows) :
    (extractTimestampStatistics rows).minTimestamp ≤ row.timestamp ∧
      row.timestamp ≤ (extractTimestampStatistics rows).maxTimestamp :=
  ⟨minimum_le (List.mem_map_of_mem member) _, le_maximum (List.mem_map_of_mem member) _⟩

def rows (parquet : ParquetSSTable Price) : List (OlapRow Price) := parquet.rowGroups.flatten

theorem le_maxTimestamp {parquet : ParquetSSTable Price} (member : row ∈ parquet.rows) :
    row.timestamp ≤ parquet.maxTimestamp := by
  rcases List.mem_flatten.mp member with ⟨group, isGroup, inGroup⟩
  have inStatistics := (statistics_bounds inGroup).2
  have inFile := le_foldl_max (List.mem_map_of_mem (f := RowGroupTimeRange.maxTimestamp)
    (List.mem_map_of_mem (f := extractTimestampStatistics) isGroup)) (-2 ^ 63)
  rw [maxTimestamp, rowGroupRanges]
  split_ifs with none
  · rw [none] at inFile
    omega
  · omega

theorem minTimestamp_le {parquet : ParquetSSTable Price} (member : row ∈ parquet.rows) :
    parquet.minTimestamp ≤ row.timestamp := by
  rcases List.mem_flatten.mp member with ⟨group, isGroup, inGroup⟩
  have inStatistics := (statistics_bounds inGroup).1
  have inFile := foldl_min_le (List.mem_map_of_mem (f := RowGroupTimeRange.minTimestamp)
    (List.mem_map_of_mem (f := extractTimestampStatistics) isGroup)) (2 ^ 63 - 1)
  rw [minTimestamp, rowGroupRanges]
  split_ifs with none
  · rw [none] at inFile
    omega
  · omega

theorem rangeQuery_eq (startTs endTs : ℤ) (parquet : ParquetSSTable Price) :
    parquet.rangeQuery startTs endTs =
      parquet.rows.filter fun row => startTs ≤ row.timestamp ∧ row.timestamp ≤ endTs := by
  rw [rangeQuery]
  split_ifs with skipped
  · symm
    apply List.filter_eq_nil_iff.mpr
    intro row member
    have least := minTimestamp_le member
    have greatest := le_maxTimestamp member
    simp only [decide_eq_true_iff]
    omega
  · dsimp only
    rw [rows, List.filter_flatten, ← List.flatMap_def]
    generalize parquet.rowGroups = groups
    induction groups with
    | nil => rfl
    | cons group groups induction =>
      rw [List.flatMap_cons, List.filter_cons]
      split_ifs with relevant
      · rw [List.flatMap_cons, induction]
      · have nothing : group.filter (fun row =>
            startTs ≤ row.timestamp ∧ row.timestamp ≤ endTs) = [] := by
          apply List.filter_eq_nil_iff.mpr
          intro row member
          have bounds := statistics_bounds member
          simp only [decide_eq_true_iff] at relevant ⊢
          omega
        rw [nothing, List.nil_append, induction]

theorem rows_writeChunk (entries : List (MemTableEntry (StorageRecord Price))) :
    (writeChunk entries).rows = entries.map OlapRow.of := by
  cases entries with
  | nil => rfl
  | cons first rest => simp [writeChunk, rows]

end ParquetSSTable

theorem le_calculateOlapCutoff {olapFiles : List (ParquetSSTable Price)}
    {parquet : ParquetSSTable Price} (member : parquet ∈ olapFiles) {row : OlapRow Price}
    (inFile : row ∈ parquet.rows) : row.timestamp ≤ calculateOlapCutoff olapFiles :=
  le_trans (ParquetSSTable.le_maxTimestamp inFile) (le_maximum (List.mem_map_of_mem member) 0)

/-! ## What a query should return -/

theorem StorageRecord.extractPrice_of_olapPrice {record : StorageRecord Price}
    (column : record.olapPrice = some price) : record.extractPrice = some price := by
  rw [olapPrice] at column
  rw [extractPrice]
  split at column
  · rename_i isOrder
    rw [isOrder]
    exact column
  · rename_i isTrade
    rw [isTrade]
    exact column
  · cases column

namespace QueryFilter

theorem inTime_eq (filter : QueryFilter Price) (timestamp : Timestamp) :
    filter.inTime timestamp.val =
      decide (filter.bounds.1 ≤ timestamp.val ∧ timestamp.val ≤ filter.bounds.2) := by
  rw [inTime, bounds]
  cases filter.timeRange with
  | some range => rfl
  | none =>
    have range := timestamp.property
    symm
    rw [decide_eq_true_iff]
    simp only [Option.getD_none]
    omega

variable [LE Price] [DecidableLE Price]

theorem inPrices_none (filter : QueryFilter Price) : filter.inPrices none = true := by
  cases range : filter.priceRange <;> simp [inPrices, range]

def accepts (filter : QueryFilter Price) (record : ℕ × StorageRecord Price) : Bool :=
  filter.matchesRecord record.2 record.2.timestamp.val

theorem bounds_of_accepts {filter : QueryFilter Price} (accepted : filter.accepts record = true) :
    filter.bounds.1 ≤ record.2.timestamp.val ∧ record.2.timestamp.val ≤ filter.bounds.2 := by
  simp only [accepts, matchesRecord, Bool.and_eq_true] at accepted
  have inRange := accepted.1.1.1
  rw [inTime_eq] at inRange
  exact of_decide_eq_true inRange

def acceptsRow (filter : QueryFilter Price) (record : ℕ × StorageRecord Price) : Bool :=
  filter.inTime record.2.timestamp.val && filter.inPrices record.2.olapPrice

theorem acceptsRow_of_accepts {filter : QueryFilter Price} (accepted : filter.accepts record = true)
    : filter.acceptsRow record = true := by
  simp only [accepts, matchesRecord, acceptsRow, Bool.and_eq_true] at accepted ⊢
  refine ⟨accepted.1.1.1, ?_⟩
  have prices := accepted.2
  cases column : record.2.olapPrice with
  | none => exact inPrices_none filter
  | some price =>
    rw [extractPrice_of_olapPrice column] at prices
    exact prices

end QueryFilter

def timestamps (records : List (ℕ × StorageRecord Price)) : List ℤ :=
  records.map fun record => record.2.timestamp.val

def QueryFilter.expected [LE Price] [DecidableLE Price] (filter : QueryFilter Price)
    (records : List (ℕ × StorageRecord Price)) : List ℤ :=
  pageOf filter.offset (filter.limit.getD (2 ^ 64 - 1))
    ((timestamps (records.filter filter.accepts)).insertionSort (· ≤ ·))

def convertedFiles (batches : List (List (ℕ × StorageRecord Price))) :
    List (ParquetSSTable Price) :=
  batches.map fun batch => ParquetSSTable.writeChunk
    (batch.map fun record => .fromWal clock record.1 record.2)

def convertedCutoff (batches : List (List (ℕ × StorageRecord Price))) : ℤ :=
  calculateOlapCutoff (convertedFiles batches)

theorem timestamp_le_cutoff {batches : List (List (ℕ × StorageRecord Price))}
    (member : record ∈ batches.flatten) : record.2.timestamp.val ≤ convertedCutoff batches := by
  rcases List.mem_flatten.mp member with ⟨batch, isBatch, inBatch⟩
  let parquet : ParquetSSTable Price := .writeChunk
    (batch.map fun record => .fromWal clock record.1 record.2)
  have isFile : parquet ∈ convertedFiles batches := List.mem_map.mpr ⟨batch, isBatch, rfl⟩
  have inFile : OlapRow.of (.fromWal clock record.1 record.2) ∈ parquet.rows := by
    rw [ParquetSSTable.rows_writeChunk, List.map_map]
    exact List.mem_map.mpr ⟨record, inBatch, rfl⟩
  exact le_calculateOlapCutoff isFile inFile

namespace OltpBatchAdapter

section Queries

variable [LE Price] [DecidableLE Price]

theorem keepsRow_of (filter : QueryFilter Price) (record : ℕ × StorageRecord Price) :
    keepsRow filter (.of (.fromWal clock record.1 record.2)) =
      filter.acceptsRow record := by
  rw [keepsRow, QueryFilter.acceptsRow]
  exact congrArg (· && _) (Bool.and_true _)

theorem queryOlapFiltered_timestamps (key : String) (startTs endTs : ℤ)
    (filter : QueryFilter Price) (storage : OltpHybridStorage (StorageRecord Price))
    (batches : List (List (ℕ × StorageRecord Price))) :
    ((newWithOlap storage (convertedFiles batches)).queryOlapFiltered key startTs endTs
      filter).map BatchRecord.timestamp =
      timestamps (batches.flatten.filter fun record => decide (startTs ≤ record.2.timestamp.val ∧
        record.2.timestamp.val ≤ endTs) && filter.acceptsRow record) := by
  rw [queryOlapFiltered, newWithOlap, convertedFiles, timestamps]
  induction batches with
  | nil => rfl
  | cons batch batches induction =>
    rw [List.map_cons, List.flatMap_cons, List.map_append, induction, List.flatten_cons,
      List.filter_append, List.map_append]
    congr 1
    rw [ParquetSSTable.rangeQuery_eq, ParquetSSTable.rows_writeChunk, List.map_map, List.map_map,
      List.filter_filter, List.filter_map, List.map_map]
    congr 1
    apply List.filter_congr
    intro record _
    rw [Function.comp_apply, Function.comp_apply, Bool.and_comm, keepsRow_of]
    rfl

def historical (filter : QueryFilter Price) (batches : List (List (ℕ × StorageRecord Price))) :
    List (ℕ × StorageRecord Price) :=
  if filter.bounds.1 < convertedCutoff batches then
    batches.flatten.filter filter.acceptsRow
  else []

theorem olapPart_timestamps (key : String) (filter : QueryFilter Price)
    (storage : OltpHybridStorage (StorageRecord Price))
    (batches : List (List (ℕ × StorageRecord Price))) :
    ((newWithOlap storage (convertedFiles batches)).olapPart key filter).map
      BatchRecord.timestamp = timestamps (historical filter batches) := by
  let adapter := newWithOlap storage (convertedFiles batches)
  have isCutoff : adapter.olapCutoffTimestamp = convertedCutoff batches := rfl
  change (adapter.olapPart key filter).map BatchRecord.timestamp = _
  rw [olapPart, historical, isCutoff]
  by_cases before : filter.bounds.1 < convertedCutoff batches
  · rw [if_pos before]
    have read : (adapter.queryOlapFiltered key filter.bounds.1
        (min filter.bounds.2 (convertedCutoff batches)) filter).map
          BatchRecord.timestamp = timestamps (batches.flatten.filter filter.acceptsRow) := by
      rw [queryOlapFiltered_timestamps]
      congr 1
      apply List.filter_congr
      intro record member
      have inFiles := timestamp_le_cutoff member
      cases accepted : filter.acceptsRow record with
      | false => exact Bool.and_false _
      | true =>
        rw [QueryFilter.acceptsRow, Bool.and_eq_true, QueryFilter.inTime_eq] at accepted
        have inRange := of_decide_eq_true accepted.1
        rw [Bool.and_true, decide_eq_true_iff]
        omega
    split_ifs with reads
    · exact read
    · have noFiles : adapter.olapFiles = [] := by
        simpa [before] using reads
      have noBatches : batches = [] := List.map_eq_nil_iff.mp noFiles
      rw [noBatches]
      rfl
  · rw [if_neg before, if_neg fun reads => before reads.1]
    rfl

def recent (filter : QueryFilter Price) (cutoff : ℤ) (rest : List (ℕ × StorageRecord Price)) :
    List (ℕ × StorageRecord Price) :=
  rest.filter fun record => filter.accepts record && decide (cutoff ≤ record.2.timestamp.val)

variable {readsMetadata : ReadsMetadata (StorageRecord Price)}
  {rest : List (ℕ × StorageRecord Price)}

theorem queryOltpFiltered_spec (adapter : OltpBatchAdapter Price)
    (answers : adapter.storage.Answers clock readsMetadata rest)
    (numbers : (rest.map Prod.fst).Nodup) (key : String) (startTs endTs : ℤ)
    (filter : QueryFilter Price) :
    ∃ results, adapter.queryOltpFiltered readsMetadata key startTs endTs filter = .ok results ∧
      (results.map BatchRecord.timestamp).Perm (timestamps (rest.filter fun record =>
        filter.accepts record && decide (startTs ≤ record.2.timestamp.val ∧
          record.2.timestamp.val ≤ endTs))) := by
  let entry : ℕ × StorageRecord Price → MemTableEntry (StorageRecord Price) := fun record =>
    .fromWal clock record.1 record.2
  let inRange : ℕ × StorageRecord Price → Bool := fun record =>
    decide (startTs ≤ record.2.timestamp.val ∧ record.2.timestamp.val ≤ endTs)
  rcases answers startTs endTs with ⟨rows, found, increasing, members⟩
  have perm : rows.Perm ((rest.filter inRange).map entry) := by
    have fewer : ((rest.filter inRange).map Prod.fst).Nodup :=
      numbers.sublist (List.filter_sublist.map _)
    apply (List.perm_ext_iff_of_nodup _ (OltpHybridStorage.rows_nodup _ fewer)).mpr
    · intro row
      rw [members, List.mem_map]
      constructor
      · rintro ⟨record, isRecord, rfl, within⟩
        exact ⟨record, List.mem_filter.mpr ⟨isRecord, decide_eq_true within⟩, rfl⟩
      · rintro ⟨record, isRecord, rfl⟩
        rcases List.mem_filter.mp isRecord with ⟨inRest, within⟩
        exact ⟨record, inRest, rfl, of_decide_eq_true within⟩
    · apply increasing.imp
      intro left right smaller same
      exact absurd (congrArg MemTableEntry.key same) smaller.ne
  let accepted : List (MemTableEntry (StorageRecord Price)) := rows.filter fun row =>
    filter.matchesRecord row.record row.key.timestamp
  refine ⟨accepted.map fun row => ⟨key, row.key.timestamp⟩, ?_, ?_⟩
  · rw [queryOltpFiltered, found]
    rfl
  · have kept := (perm.filter fun row => filter.matchesRecord row.record row.key.timestamp).map
      fun row => row.key.timestamp
    rw [List.filter_map, List.map_map, List.filter_filter] at kept
    rw [List.map_map]
    exact kept

/-! ## Agreement -/

def Agrees (readsMetadata : ReadsMetadata (StorageRecord Price)) (key : String)
    (filter : QueryFilter Price) (adapter : OltpBatchAdapter Price)
    (records : List (ℕ × StorageRecord Price)) : Prop :=
  ∃ results, adapter.queryFiltered readsMetadata key filter = .ok results ∧
    results.map BatchRecord.timestamp = filter.expected records

def strays (filter : QueryFilter Price) (converted : List (ℕ × StorageRecord Price)) :
    List (ℕ × StorageRecord Price) :=
  converted.filter fun record => filter.acceptsRow record && !filter.accepts record

/-- Stored records that are accepted, but lie before the cutoff. -/
def hidden (filter : QueryFilter Price) (cutoff : ℤ) (rest : List (ℕ × StorageRecord Price)) :
    List (ℕ × StorageRecord Price) :=
  rest.filter fun record => filter.accepts record && !decide (cutoff ≤ record.2.timestamp.val)

/-- Where the Parquet files are read, no row is returned in excess and none of the storage
is missing, or both have the same timestamps; where they are not read, nothing in them is
accepted. -/
def Separates (filter : QueryFilter Price) (batches : List (List (ℕ × StorageRecord Price)))
    (rest : List (ℕ × StorageRecord Price)) : Prop :=
  if filter.bounds.1 < convertedCutoff batches then
    (timestamps (strays filter batches.flatten)).Perm
      (timestamps (hidden filter (convertedCutoff batches) rest))
  else ∀ record ∈ batches.flatten, filter.accepts record = false

variable {storage : OltpHybridStorage (StorageRecord Price)}

theorem oltpPart_spec (answers : storage.Answers clock readsMetadata rest)
    (numbers : (rest.map Prod.fst).Nodup) (key : String) (filter : QueryFilter Price)
    (batches : List (List (ℕ × StorageRecord Price))) :
    ∃ results, (newWithOlap storage (convertedFiles batches)).oltpPart readsMetadata key filter =
        .ok results ∧ (results.map BatchRecord.timestamp).Perm
        (timestamps (recent filter (convertedCutoff batches) rest)) := by
  let adapter := newWithOlap storage (convertedFiles batches)
  have isCutoff : adapter.olapCutoffTimestamp = convertedCutoff batches := rfl
  change ∃ results, adapter.oltpPart readsMetadata key filter = .ok results ∧ _
  rw [oltpPart, isCutoff]
  split_ifs with later
  · rcases queryOltpFiltered_spec adapter answers numbers key
      (max filter.bounds.1 (convertedCutoff batches)) filter.bounds.2 filter with
      ⟨results, found, perm⟩
    refine ⟨results, found, ?_⟩
    have same : (rest.filter fun record => filter.accepts record &&
        decide (max filter.bounds.1 (convertedCutoff batches) ≤ record.2.timestamp.val ∧
          record.2.timestamp.val ≤ filter.bounds.2)) =
        recent filter (convertedCutoff batches) rest := by
      apply List.filter_congr
      intro record _
      cases accepted : filter.accepts record with
      | false => rfl
      | true =>
        have bounds := QueryFilter.bounds_of_accepts accepted
        rw [Bool.true_and, Bool.true_and, decide_eq_decide]
        omega
    rw [← same]
    exact perm
  · have nothing : recent filter (convertedCutoff batches) rest = [] := by
      apply List.filter_eq_nil_iff.mpr
      intro record _ isRecent
      rw [Bool.and_eq_true] at isRecent
      have bounds := QueryFilter.bounds_of_accepts isRecent.1
      have isLater := of_decide_eq_true isRecent.2
      omega
    rw [nothing]
    exact ⟨[], rfl, .refl _⟩

theorem queryFiltered_spec (answers : storage.Answers clock readsMetadata rest)
    (numbers : (rest.map Prod.fst).Nodup) (key : String) (filter : QueryFilter Price)
    (batches : List (List (ℕ × StorageRecord Price))) :
    ∃ results, (newWithOlap storage (convertedFiles batches)).queryFiltered readsMetadata key
        filter = .ok results ∧
      results.map BatchRecord.timestamp = pageOf filter.offset (filter.limit.getD (2 ^ 64 - 1))
        ((timestamps (historical filter batches ++
          recent filter (convertedCutoff batches) rest)).insertionSort (· ≤ ·)) := by
  let adapter := newWithOlap storage (convertedFiles batches)
  rcases oltpPart_spec answers numbers key filter batches with ⟨found, isFound, perm⟩
  have sorted : ((adapter.olapPart key filter ++ found).insertionSort fun left right =>
      left.timestamp ≤ right.timestamp).map BatchRecord.timestamp =
      (timestamps (historical filter batches ++
        recent filter (convertedCutoff batches) rest)).insertionSort (· ≤ ·) := by
    rw [List.map_insertionSort _ (· ≤ ·) BatchRecord.timestamp _ fun _ _ _ _ => Iff.rfl]
    apply insertionSort_eq_iff.mpr
    rw [List.map_append, olapPart_timestamps, timestamps, timestamps, List.map_append]
    exact List.Perm.append_left _ perm
  refine ⟨pageOf filter.offset (filter.limit.getD (2 ^ 64 - 1))
    ((adapter.olapPart key filter ++ found).insertionSort fun left right =>
      left.timestamp ≤ right.timestamp), ?_, ?_⟩
  · rw [queryFiltered, isFound]
    rfl
  · rw [map_pageOf, sorted]

theorem agrees_iff_perm (answers : storage.Answers clock readsMetadata rest)
    (numbers : (rest.map Prod.fst).Nodup) (key : String) (filter : QueryFilter Price)
    (batches : List (List (ℕ × StorageRecord Price))) :
    (∀ offset limit, Agrees readsMetadata key (filter.page offset limit)
      (newWithOlap storage (convertedFiles batches)) (batches.flatten ++ rest)) ↔
      (timestamps (historical filter batches ++
        recent filter (convertedCutoff batches) rest)).Perm
        (timestamps ((batches.flatten ++ rest).filter filter.accepts)) := by
  constructor
  · intro agrees
    apply insertionSort_eq_iff.mp
    apply eq_of_pages
    intro offset
    rcases agrees offset (some 1) with ⟨results, found, same⟩
    rcases queryFiltered_spec answers numbers key (filter.page offset (some 1)) batches with
      ⟨others, foundToo, sorted⟩
    rw [found] at foundToo
    cases foundToo
    exact sorted.symm.trans same
  · intro perm offset limit
    rcases queryFiltered_spec answers numbers key (filter.page offset limit) batches with
      ⟨results, found, sorted⟩
    refine ⟨results, found, sorted.trans ?_⟩
    exact congrArg (pageOf offset (limit.getD (2 ^ 64 - 1))) (insertionSort_eq_iff.mpr perm)

/-- The timestamps agree on all pages if and only if the parts do not overlap and nothing
falls between them. -/
theorem queryFiltered_agrees_iff {readsMetadata : ReadsMetadata (StorageRecord Price)}
    {storage : OltpHybridStorage (StorageRecord Price)} {rest : List (ℕ × StorageRecord Price)}
    (answers : storage.Answers clock readsMetadata rest)
    (numbers : (rest.map Prod.fst).Nodup) (key : String) (filter : QueryFilter Price)
    (batches : List (List (ℕ × StorageRecord Price))) :
    (∀ offset limit, Agrees readsMetadata key (filter.page offset limit)
      (newWithOlap storage (convertedFiles batches)) (batches.flatten ++ rest)) ↔
      Separates filter batches rest := by
  let cutoff := convertedCutoff batches
  rw [agrees_iff_perm answers numbers key filter batches]
  have stored : (timestamps (rest.filter filter.accepts)).Perm
      (timestamps (recent filter cutoff rest) ++ timestamps (hidden filter cutoff rest)) := by
    have split := (filter_and_split filter.accepts
      (fun record => decide (cutoff ≤ record.2.timestamp.val)) rest).map
        fun record => record.2.timestamp.val
    rw [List.map_append] at split
    exact split
  have all : timestamps ((batches.flatten ++ rest).filter filter.accepts) =
      timestamps (batches.flatten.filter filter.accepts) ++
        timestamps (rest.filter filter.accepts) := by
    rw [timestamps, List.filter_append, List.map_append]
    rfl
  have both : timestamps (historical filter batches ++
      recent filter (convertedCutoff batches) rest) =
      timestamps (historical filter batches) ++ timestamps (recent filter cutoff rest) :=
    List.map_append
  rw [all, both, Separates]
  split_ifs with before
  · have read : (timestamps (historical filter batches)).Perm
        (timestamps (batches.flatten.filter filter.accepts) ++
          timestamps (strays filter batches.flatten)) := by
      have split := (filter_split filter.acceptsRow filter.accepts
        (fun _ => QueryFilter.acceptsRow_of_accepts) batches.flatten).map
          fun record => record.2.timestamp.val
      rw [List.map_append] at split
      rw [historical, if_pos before]
      exact split
    have left := read.append_right (timestamps (recent filter cutoff rest))
    rw [List.append_assoc] at left
    have right := stored.append_left (timestamps (batches.flatten.filter filter.accepts))
    constructor
    · intro perm
      have tails := (List.perm_append_left_iff _).mp ((left.symm.trans perm).trans right)
      exact (List.perm_append_left_iff _).mp (List.perm_append_comm.trans tails)
    · intro perm
      apply left.trans
      apply List.Perm.trans _ right.symm
      apply List.Perm.append_left
      exact (perm.append_right _).trans List.perm_append_comm
  · have unread : historical filter batches = [] := if_neg before
    have noneHidden : hidden filter cutoff rest = [] := by
      apply List.filter_eq_nil_iff.mpr
      intro record _ isHidden
      rw [Bool.and_eq_true] at isHidden
      have bounds := QueryFilter.bounds_of_accepts isHidden.1
      have earlier : ¬ cutoff ≤ record.2.timestamp.val := by
        simpa using isHidden.2
      omega
    rw [noneHidden] at stored
    rw [unread]
    constructor
    · intro perm record member
      have lengths := (perm.trans (stored.append_left _)).length_eq
      have noneAccepted : batches.flatten.filter filter.accepts = [] := by
        apply List.length_eq_zero_iff.mp
        simp only [timestamps, List.length_append, List.length_map, List.length_nil,
          List.map_nil] at lengths
        omega
      simpa using List.filter_eq_nil_iff.mp noneAccepted record member
    · intro rejected
      have noneAccepted : batches.flatten.filter filter.accepts = [] := by
        apply List.filter_eq_nil_iff.mpr
        intro record member accepted
        rw [rejected record member] at accepted
        cases accepted
      rw [noneAccepted]
      have same := stored.symm
      rw [timestamps, timestamps, List.map_nil, List.append_nil] at same
      exact same

end Queries

/-- A storage that has the records in its MemTable, with `next` as its next number. -/
def memtableStorage (next : ℕ) (records : List (ℕ × StorageRecord Price)) :
    OltpHybridStorage (StorageRecord Price) :=
  OltpHybridStorage.created ⟨[], none, next, 0, 0, .default, []⟩
    ((OltpMemTable.new ⟨2 ^ 20, 256⟩).insertBatch clock records) ⟨2 ^ 20, 256⟩
    .empty .empty

theorem memtableStorage_answers {records : List (ℕ × StorageRecord Price)}
    (numbers : (records.map Prod.fst).Nodup) (below : ∀ record ∈ records, record.1 < next)
    (range : next ≤ 2 ^ 64) (readsMetadata : ReadsMetadata (StorageRecord Price)) :
    (memtableStorage next records).Answers clock readsMetadata records := by
  have holds : (memtableStorage next records).Holds clock [] records := by
    refine ⟨⟨rfl, by simp, by simp⟩, ?_, numbers, below⟩
    intro row
    have contents : (memtableStorage next records).contents [] =
        (OltpMemTable.insertAll clock records .empty).rows := List.append_nil _
    rw [contents, OltpMemTable.mem_insertAll numbers (by simp [KeyedRows.empty])]
    simp [KeyedRows.empty]
  exact holds.answers (fun record member => lt_of_lt_of_le (below record member) range)
    readsMetadata

def smallRecord (timestamp : Fin 1000)
    (fields : FixedArray 16 → ℚ → RecordFields ℚ) : StorageRecord ℚ where
  fields := fields (WalRecord.toFixedArray 16 "cu2501") 50000
  timestamp := ⟨timestamp, by omega⟩

/-- A converted K-line at the cutoff and a later one in the storage. -/
theorem klines_agree :
    convertedCutoff [[(1, smallRecord 100 .KLineFinished)]] = 100 ∧
    ∀ offset limit, Agrees (fun _ _ => .ok []) "cu2501" (QueryFilter.klines.page offset limit)
      (newWithOlap (memtableStorage 3 [(2, smallRecord 200 .KLineFinished)])
        (convertedFiles [[(1, smallRecord 100 .KLineFinished)]]))
      [(1, smallRecord 100 .KLineFinished), (2, smallRecord 200 .KLineFinished)] := by
  have answers : (memtableStorage 3 [(2, smallRecord 200 .KLineFinished)]).Answers
      clock (fun _ _ => .ok []) [(2, smallRecord 200 .KLineFinished)] :=
    memtableStorage_answers (by decide) (by simp) (by decide) _
  constructor
  · decide +kernel
  · apply (queryFiltered_agrees_iff answers (by decide) "cu2501" .klines
      [[(1, smallRecord 100 .KLineFinished)]]).mpr
    rw [Separates, if_pos (by decide +kernel)]
    decide +kernel

/-- A converted tick is returned to a query for K-lines. -/
theorem klines_return_tick : ¬ ∀ readsMetadata,
    Agrees readsMetadata "cu2501" .klines
      (newWithOlap (memtableStorage 2 []) (convertedFiles [[(1, smallRecord 100 .TickData)]]))
      [(1, smallRecord 100 .TickData)] := by
  intro agrees
  rcases agrees fun _ _ => .ok [] with ⟨results, found, same⟩
  have returned : (newWithOlap (memtableStorage 2 [])
      (convertedFiles [[(1, smallRecord 100 .TickData)]])).queryFiltered (fun _ _ => .ok [])
        "cu2501" .klines = .ok [⟨"cu2501", 100⟩] := by
    decide +kernel
  rw [returned] at found
  cases found
  have rejected : QueryFilter.klines.expected [(1, smallRecord 100 .TickData)] = [] := by
    decide +kernel
  rw [rejected] at same
  cases same

/-- A range that begins at the cutoff misses the converted record of that timestamp. -/
example : (newWithOlap (memtableStorage 2 [])
    (convertedFiles [[(1, smallRecord 100 .TickData)]])).queryFiltered (fun _ _ => .ok [])
      "cu2501" { QueryFilter.default with timeRange := some (100, 200) } = .ok [] := by
  decide +kernel

end OltpBatchAdapter

end QAExchange
