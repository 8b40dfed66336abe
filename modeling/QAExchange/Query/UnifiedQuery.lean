import QAExchange.Query.HybridQueryEngine
import QAExchange.Storage.HybridReads

/-! # Completeness of unified queries

A query says that its answer is complete, whatever its two sources have found. It is when
each record of the range is in the source that is asked for its time.
-/

namespace QAExchange

open Foundation Action OltpBatchAdapter BatchRecord StreamBuffer

variable {Price : Type}

/-! ## Parquet files that may be lost -/

namespace ParquetSSTable

theorem rangeQuery_of_skips {parquet : ParquetSSTable Price}
    (skipped : parquet.skips startTs endTs = true) : parquet.rangeQuery startTs endTs = [] := by
  have outside := of_decide_eq_true skipped
  rw [rangeQuery]
  split_ifs with early
  · rfl
  · rcases outside with outside | outside
    · exact absurd outside early
    · dsimp only
      have none : parquet.rowGroups.filter (fun rows =>
          startTs ≤ (extractTimestampStatistics rows).maxTimestamp ∧
            (extractTimestampStatistics rows).minTimestamp ≤ endTs) = [] := by
        apply List.filter_eq_nil_iff.mpr
        intro rows member
        rw [decide_eq_true_iff]
        exact outside _ (List.mem_map_of_mem member)
      rw [none]
      rfl

theorem rangeQueryFrom_eq_ok {opens : OpensParquet Price} {startTs endTs : ℤ}
    {parquet : ParquetSSTable Price} {rows : List (OlapRow Price)} :
    parquet.rangeQueryFrom opens startTs endTs = .ok rows ↔
      (parquet.skips startTs endTs = false → opens parquet = .ok ()) ∧
        rows = parquet.rangeQuery startTs endTs := by
  rw [rangeQueryFrom]
  split_ifs with skipped
  · rw [rangeQuery_of_skips skipped, skipped]
    constructor
    · intro found
      cases found
      exact ⟨fun isRead => (nomatch isRead), rfl⟩
    · rintro ⟨_, rfl⟩
      rfl
  · have isRead : parquet.skips startTs endTs = false := by simpa using skipped
    cases opened : opens parquet with
    | error text =>
      constructor
      · intro found
        cases found
      · intro found
        cases found.1 isRead
    | ok _ =>
      constructor
      · intro found
        cases found
        exact ⟨fun _ => rfl, rfl⟩
      · rintro ⟨_, rfl⟩
        rfl

end ParquetSSTable

namespace OltpBatchAdapter

structure Readable (opens : OpensParquet Price)
    (readsMetadata : ReadsMetadata (StorageRecord Price)) (startTs endTs : ℤ)
    (adapter : OltpBatchAdapter Price) : Prop where
  olap : startTs < adapter.olapCutoffTimestamp → ∀ parquet ∈ adapter.olapFiles,
    parquet.skips startTs (min endTs adapter.olapCutoffTimestamp) = false →
      opens parquet = .ok ()
  oltp : adapter.olapCutoffTimestamp ≤ endTs → ∃ rows, adapter.storage.rangeQuery readsMetadata
    (max startTs adapter.olapCutoffTimestamp) endTs = .ok rows

variable {opens : OpensParquet Price} {key : String} {startTs endTs : ℤ}
  {adapter : OltpBatchAdapter Price} {records : List BatchRecord}

theorem queryOlap_eq_ok :
    adapter.queryOlap opens key startTs endTs = .ok records ↔
      (∀ parquet ∈ adapter.olapFiles, parquet.skips startTs endTs = false →
        opens parquet = .ok ()) ∧
      records = (adapter.olapFiles.flatMap fun parquet => parquet.rangeQuery startTs endTs).map
        fun row => ⟨key, row.timestamp⟩ := by
  have reads : (∀ parquet ∈ adapter.olapFiles, parquet.skips startTs endTs = false →
      opens parquet = .ok ()) → (adapter.olapFiles.mapM fun parquet =>
        parquet.rangeQueryFrom opens startTs endTs) =
          .ok (adapter.olapFiles.map fun parquet => parquet.rangeQuery startTs endTs) := by
    intro opened
    apply mapM_eq_ok
    intro parquet member
    exact ParquetSSTable.rangeQueryFrom_eq_ok.mpr ⟨opened parquet member, rfl⟩
  constructor
  · intro found
    cases read : adapter.olapFiles.mapM fun parquet =>
        parquet.rangeQueryFrom opens startTs endTs with
    | error text =>
      rw [queryOlap, read] at found
      cases found
    | ok chunks =>
      have opened : ∀ parquet ∈ adapter.olapFiles, parquet.skips startTs endTs = false →
          opens parquet = .ok () := by
        intro parquet member
        rcases exists_ok_of_mapM read parquet member with ⟨rows, isRead⟩
        exact (ParquetSSTable.rangeQueryFrom_eq_ok.mp isRead).1
      rw [queryOlap, reads opened] at found
      cases found
      exact ⟨opened, rfl⟩
  · rintro ⟨opened, rfl⟩
    rw [queryOlap, reads opened]
    rfl

theorem olapRead_eq_ok :
    adapter.olapRead opens key startTs endTs = .ok records ↔
      (startTs < adapter.olapCutoffTimestamp → ∀ parquet ∈ adapter.olapFiles,
        parquet.skips startTs (min endTs adapter.olapCutoffTimestamp) = false →
          opens parquet = .ok ()) ∧
      records = if startTs < adapter.olapCutoffTimestamp then
        (adapter.olapFiles.flatMap fun parquet => parquet.rangeQuery startTs
          (min endTs adapter.olapCutoffTimestamp)).map fun row => ⟨key, row.timestamp⟩
      else [] := by
  rw [olapRead]
  by_cases before : startTs < adapter.olapCutoffTimestamp
  · rw [if_pos before]
    split_ifs with reads
    · rw [queryOlap_eq_ok]
      simp only [before, true_imp_iff]
    · have noFiles : adapter.olapFiles = [] := by
        simpa [before] using reads
      rw [noFiles]
      constructor
      · intro found
        cases found
        exact ⟨by simp, rfl⟩
      · rintro ⟨_, rfl⟩
        rfl
  · rw [if_neg before, if_neg fun reads => before reads.1]
    constructor
    · intro found
      cases found
      exact ⟨fun early => absurd early before, rfl⟩
    · rintro ⟨_, rfl⟩
      rfl

theorem query_eq_ok :
    adapter.query opens readsMetadata key startTs endTs = .ok records ↔
      ∃ historical recent, adapter.olapRead opens key startTs endTs = .ok historical ∧
        adapter.oltpRead readsMetadata key startTs endTs = .ok recent ∧
        records = sortByKey timestamp (historical ++ recent) := by
  rw [query]
  cases adapter.olapRead opens key startTs endTs with
  | error text =>
    constructor
    · intro found
      cases found
    · rintro ⟨_, _, found, _⟩
      cases found
  | ok historical =>
    cases adapter.oltpRead readsMetadata key startTs endTs with
    | error text =>
      constructor
      · intro found
        cases found
      · rintro ⟨_, _, _, found, _⟩
        cases found
    | ok recent =>
      constructor
      · intro found
        cases found
        exact ⟨historical, recent, rfl, rfl, rfl⟩
      · rintro ⟨_, _, first, second, rfl⟩
        cases first
        cases second
        rfl

theorem exists_query_iff :
    (∃ records, adapter.query opens readsMetadata key startTs endTs = .ok records) ↔
      adapter.Readable opens readsMetadata startTs endTs := by
  constructor
  · rintro ⟨records, found⟩
    rcases query_eq_ok.mp found with ⟨historical, recent, first, second, _⟩
    refine ⟨(olapRead_eq_ok.mp first).1, ?_⟩
    intro later
    rw [oltpRead, if_pos later, queryOltp] at second
    cases read : adapter.storage.rangeQuery readsMetadata
        (max startTs adapter.olapCutoffTimestamp) endTs with
    | error text =>
      rw [read] at second
      cases second
    | ok rows => exact ⟨rows, rfl⟩
  · intro readable
    have first : ∃ historical, adapter.olapRead opens key startTs endTs = .ok historical :=
      ⟨_, olapRead_eq_ok.mpr ⟨readable.olap, rfl⟩⟩
    have second : ∃ recent, adapter.oltpRead readsMetadata key startTs endTs = .ok recent := by
      rw [oltpRead]
      split_ifs with later
      · rcases readable.oltp later with ⟨rows, read⟩
        rw [queryOltp, read]
        exact ⟨_, rfl⟩
      · exact ⟨_, rfl⟩
    rcases first with ⟨historical, isHistorical⟩
    rcases second with ⟨recent, isRecent⟩
    exact ⟨_, query_eq_ok.mpr ⟨historical, recent, isHistorical, isRecent, rfl⟩⟩

theorem mem_convertedRows {batches : List (List (ℕ × StorageRecord Price))} {row : OlapRow Price} :
    row ∈ (convertedFiles batches).flatMap (fun parquet => parquet.rangeQuery startTs endTs) ↔
      ∃ record ∈ batches.flatten, startTs ≤ record.2.timestamp.val ∧
        record.2.timestamp.val ≤ endTs ∧
        row = .of (.fromWal StorageRecord.clock record.1 record.2) := by
  simp only [List.mem_flatMap, convertedFiles, List.mem_map, ParquetSSTable.rangeQuery_eq,
    List.mem_filter, decide_eq_true_iff]
  constructor
  · rintro ⟨_, ⟨batch, isBatch, rfl⟩, inFile, within⟩
    rw [ParquetSSTable.rows_writeChunk, List.map_map] at inFile
    rcases List.mem_map.mp inFile with ⟨record, inBatch, rfl⟩
    exact ⟨record, List.mem_flatten.mpr ⟨batch, isBatch, inBatch⟩, within.1, within.2, rfl⟩
  · rintro ⟨record, converted, early, late, rfl⟩
    rcases List.mem_flatten.mp converted with ⟨batch, isBatch, inBatch⟩
    refine ⟨_, ⟨batch, isBatch, rfl⟩, ?_, early, late⟩
    rw [ParquetSSTable.rows_writeChunk, List.map_map]
    exact List.mem_map.mpr ⟨record, inBatch, rfl⟩

/-- The part in which a query looks for a record has it: converted records are read if the
range begins before the cutoff, stored ones from the cutoff on. -/
def IsRead (startTs : ℤ) (batches : List (List (ℕ × StorageRecord Price)))
    (rest : List (ℕ × StorageRecord Price)) (record : ℕ × StorageRecord Price) : Prop :=
  (record ∈ batches.flatten ∧ startTs < convertedCutoff batches) ∨
    (record ∈ rest ∧ convertedCutoff batches ≤ record.2.timestamp.val)

section Contents

variable {opens : OpensParquet Price} {readsMetadata : ReadsMetadata (StorageRecord Price)}
  {storage : OltpHybridStorage (StorageRecord Price)} {rest : List (ℕ × StorageRecord Price)}
  {batches : List (List (ℕ × StorageRecord Price))} {key : String} {startTs endTs : ℤ}
  {records : List BatchRecord}

theorem mem_olapRead (found : (newWithOlap storage (convertedFiles batches)).olapRead opens key
      startTs endTs = .ok records) (result : BatchRecord) :
    result ∈ records ↔ ∃ record ∈ batches.flatten, startTs < convertedCutoff batches ∧
      startTs ≤ record.2.timestamp.val ∧ record.2.timestamp.val ≤ endTs ∧
      result = ⟨key, record.2.timestamp.val⟩ := by
  have isCutoff : (newWithOlap storage (convertedFiles batches)).olapCutoffTimestamp =
      convertedCutoff batches := rfl
  rw [(olapRead_eq_ok.mp found).2, isCutoff]
  split_ifs with before
  · rw [List.mem_map]
    constructor
    · rintro ⟨row, member, rfl⟩
      rcases mem_convertedRows.mp member with ⟨record, converted, early, late, rfl⟩
      exact ⟨record, converted, before, early, late.trans (min_le_left _ _), rfl⟩
    · rintro ⟨record, converted, _, early, late, rfl⟩
      have inFiles := timestamp_le_cutoff converted
      exact ⟨_, mem_convertedRows.mpr ⟨record, converted, early, le_min late inFiles, rfl⟩, rfl⟩
  · constructor
    · intro member
      cases member
    · rintro ⟨_, _, early, _⟩
      exact absurd early before

theorem mem_oltpRead (reads : storage.Reads StorageRecord.clock readsMetadata rest)
    (found : (newWithOlap storage (convertedFiles batches)).oltpRead readsMetadata key
      startTs endTs = .ok records) (result : BatchRecord) :
    result ∈ records ↔ ∃ record ∈ rest, convertedCutoff batches ≤ record.2.timestamp.val ∧
      startTs ≤ record.2.timestamp.val ∧ record.2.timestamp.val ≤ endTs ∧
      result = ⟨key, record.2.timestamp.val⟩ := by
  have isCutoff : (newWithOlap storage (convertedFiles batches)).olapCutoffTimestamp =
      convertedCutoff batches := rfl
  rw [oltpRead, isCutoff] at found
  split_ifs at found with later
  · rw [queryOltp] at found
    change (storage.rangeQuery readsMetadata _ _ >>= _) = _ at found
    cases read : storage.rangeQuery readsMetadata (max startTs (convertedCutoff batches))
        endTs with
    | error text =>
      rw [read] at found
      cases found
    | ok rows =>
      rw [read] at found
      cases found
      have members := reads _ _ rows read
      rw [List.mem_map]
      constructor
      · rintro ⟨row, member, rfl⟩
        rcases (members row).mp member with ⟨record, isRecord, rfl, early, late⟩
        rcases max_le_iff.mp early with ⟨fromStart, fromCutoff⟩
        exact ⟨record, isRecord, fromCutoff, fromStart, late, rfl⟩
      · rintro ⟨record, isRecord, fromCutoff, fromStart, late, rfl⟩
        refine ⟨_, (members _).mpr ⟨record, isRecord, rfl, ?_, late⟩, rfl⟩
        exact max_le fromStart fromCutoff
  · cases found
    constructor
    · intro member
      cases member
    · rintro ⟨record, _, fromCutoff, _, late, _⟩
      omega

/-- The batch source finds the records of the range that are in the part that it reads. -/
theorem mem_query (reads : storage.Reads StorageRecord.clock readsMetadata rest)
    (found : (newWithOlap storage (convertedFiles batches)).query opens readsMetadata key
      startTs endTs = .ok records) (result : BatchRecord) :
    result ∈ records ↔ ∃ record, IsRead startTs batches rest record ∧
      startTs ≤ record.2.timestamp.val ∧ record.2.timestamp.val ≤ endTs ∧
      result = ⟨key, record.2.timestamp.val⟩ := by
  rcases query_eq_ok.mp found with ⟨historical, recent, first, second, rfl⟩
  have perm : (sortByKey timestamp (historical ++ recent)).Perm
      (historical ++ recent) := List.perm_insertionSort _ _
  rw [perm.mem_iff, List.mem_append, mem_olapRead first, mem_oltpRead reads second]
  constructor
  · rintro (⟨record, converted, before, within⟩ | ⟨record, stored, later, within⟩)
    · exact ⟨record, .inl ⟨converted, before⟩, within⟩
    · exact ⟨record, .inr ⟨stored, later⟩, within⟩
  · rintro ⟨record, ⟨converted, before⟩ | ⟨stored, later⟩, within⟩
    · exact .inl ⟨record, converted, before, within⟩
    · exact .inr ⟨record, stored, later, within⟩

end Contents

end OltpBatchAdapter

theorem drop_append_drop {α : Type} (values : List α) (value : α) (size : ℕ) :
    let kept := values.drop (values.length - size) ++ [value]
    kept.drop (kept.length - size) =
      (values ++ [value]).drop ((values ++ [value]).length - size) := by
  intro kept
  by_cases fits : values.length ≤ size
  · have all : kept = values ++ [value] := by
      simp only [kept, Nat.sub_eq_zero_of_le fits, List.drop_zero]
    rw [all]
  · have length : kept.length = size + 1 := by
      simp only [kept, List.length_append, List.length_drop, List.length_singleton]
      omega
    have shift : (values ++ [value]).length - size = (values.length - size) + 1 := by
      rw [List.length_append, List.length_singleton]
      omega
    have whole : kept = (values ++ [value]).drop (values.length - size) :=
      (List.drop_append_of_le_length (Nat.sub_le _ _)).symm
    rw [length, shift, whole, List.drop_drop]
    congr 1
    omega

namespace StreamBuffer

/-- The last records of a key. -/
def newest (size : ℕ) (key : String) (pushes : List BatchRecord) : List BatchRecord :=
  let ofKey := pushes.filter fun record => record.key = key
  ofKey.drop (ofKey.length - size)

def pushAll (pushes : List BatchRecord) (stream : StreamBuffer) : StreamBuffer :=
  pushes.foldl (fun stream record => stream.push record) stream

theorem pushAll_append_singleton (pushes : List BatchRecord) (record : BatchRecord)
    (stream : StreamBuffer) :
    stream.pushAll (pushes ++ [record]) = (stream.pushAll pushes).push record :=
  List.foldl_append

theorem pushAll_maxSize (pushes : List BatchRecord) (stream : StreamBuffer) :
    (stream.pushAll pushes).maxSize = stream.maxSize := by
  induction pushes generalizing stream with
  | nil => rfl
  | cons record pushes induction => exact induction (stream.push record)

theorem pushAll_buffer (size : ℕ) (pushes : List BatchRecord) (key : String) :
    (pushAll pushes ⟨fun _ => [], size⟩).buffer key = newest size key pushes := by
  induction pushes using List.reverseRecOn with
  | nil =>
    rw [newest, List.filter_nil, List.drop_nil]
    rfl
  | append_singleton pushes record induction =>
    have isSize := pushAll_maxSize pushes ⟨fun _ => [], size⟩
    rw [pushAll_append_singleton, push, newest, List.filter_append]
    dsimp only
    by_cases isKey : record.key = key
    · have own : [record].filter (fun record => record.key = key) = [record] := by
        simp [isKey]
      rw [isKey, Function.update_self, isSize, induction, newest, own]
      exact drop_append_drop _ _ _
    · have others : [record].filter (fun record => record.key = key) = [] := by
        simpa using isKey
      rw [Function.update_of_ne (Ne.symm isKey), induction, others, List.append_nil]
      rfl

end StreamBuffer

/-! ## Complete answers -/

namespace UnifiedQueryEngine

/-- An engine with a storage, after these records were pushed to it. -/
def started (config : UnifiedQueryConfig) (opens : OpensParquet Price)
    (readsMetadata : ReadsMetadata (StorageRecord Price))
    (storage : OltpHybridStorage (StorageRecord Price))
    (batches : List (List (ℕ × StorageRecord Price))) (pushes : List BatchRecord) :
    UnifiedQueryEngine :=
  pushes.foldl (fun engine record => engine.pushStream record)
    ((new config).withStorage opens readsMetadata storage (convertedFiles batches))

def expected (startTs endTs : ℤ) (written : List (ℕ × StorageRecord Price)) : List ℤ :=
  timestamps (written.filter fun record =>
    startTs ≤ record.2.timestamp.val ∧ record.2.timestamp.val ≤ endTs)

/-- An answer that says that it is complete has the records of the range, each once and in
the order of time. -/
def AnswersInFull (now : ℤ) (key : String) (startTs endTs : ℤ)
    (written : List (ℕ × StorageRecord Price)) (engine : UnifiedQueryEngine) : Prop :=
  ∀ result, engine.query now key startTs endTs = .ok result → result.isComplete = true →
    result.records = ((expected startTs endTs written).insertionSort (· ≤ ·)).map (⟨key, ·⟩)

section Answers

variable {config : UnifiedQueryConfig} {opens : OpensParquet Price}
  {readsMetadata : ReadsMetadata (StorageRecord Price)}
  {storage : OltpHybridStorage (StorageRecord Price)} {rest : List (ℕ × StorageRecord Price)}
  {batches : List (List (ℕ × StorageRecord Price))} {pushes : List BatchRecord}
  {now : ℤ} {key : String} {startTs endTs : ℤ} {written : List (ℕ × StorageRecord Price)}

theorem hybridEngine_started :
    (started config opens readsMetadata storage batches pushes).hybridEngine =
      { streamBuffer := default.pushAll pushes
        batchSource := some
          ((newWithOlap storage (convertedFiles batches)).query opens readsMetadata)
        config := (new config).hybridEngine.config } := by
  rw [started]
  induction pushes using List.reverseRecOn with
  | nil => rfl
  | append_singleton pushes record induction =>
    rw [List.foldl_append, List.foldl_cons, List.foldl_nil, pushStream, induction,
      pushAll_append_singleton]
    rfl

def InStream (cutoff : ℤ) (key : String) (startTs endTs : ℤ) (pushes : List BatchRecord)
    (timestamp : ℤ) : Prop :=
  max startTs cutoff < endTs ∧ cutoff ≤ timestamp ∧
    ⟨key, timestamp⟩ ∈ newest default.maxSize key pushes

/-- The batch source is asked for the record and does not fail, and the record is in the part
that is read. -/
def InBatch (cutoff startTs endTs : ℤ) (opens : OpensParquet Price)
    (readsMetadata : ReadsMetadata (StorageRecord Price))
    (storage : OltpHybridStorage (StorageRecord Price))
    (batches : List (List (ℕ × StorageRecord Price))) (rest : List (ℕ × StorageRecord Price))
    (record : ℕ × StorageRecord Price) : Prop :=
  startTs < min endTs cutoff ∧ record.2.timestamp.val ≤ cutoff ∧
    (newWithOlap storage (convertedFiles batches)).Readable opens readsMetadata
      startTs (min endTs cutoff) ∧
    OltpBatchAdapter.IsRead startTs batches rest record

theorem mem_streamRecords (result : BatchRecord) :
    result ∈ (started config opens readsMetadata storage batches pushes).hybridEngine.streamRecords
        cutoff key startTs endTs ↔
      InStream cutoff key startTs endTs pushes result.timestamp ∧ result.key = key ∧
        startTs ≤ result.timestamp ∧ result.timestamp ≤ endTs := by
  have buffer : (default.pushAll pushes).buffer key =
      newest default.maxSize key pushes :=
    pushAll_buffer _ pushes key
  have keys : ∀ record ∈ newest default.maxSize key pushes,
      record.key = key := by
    intro record member
    have ofKey := List.mem_filter.mp (List.mem_of_mem_drop member)
    exact of_decide_eq_true ofKey.2
  rw [HybridQueryEngine.streamRecords, hybridEngine_started, queryRange]
  dsimp only
  rw [buffer]
  split_ifs with asked
  · rw [List.mem_filter, decide_eq_true_iff, max_le_iff]
    constructor
    · rintro ⟨member, ⟨early, inWindow⟩, late⟩
      have isKey := keys result member
      refine ⟨⟨asked, inWindow, ?_⟩, isKey, early, late⟩
      rw [← isKey] at member ⊢
      exact member
    · rintro ⟨⟨_, inWindow, member⟩, rfl, early, late⟩
      exact ⟨member, ⟨early, inWindow⟩, late⟩
  · constructor
    · intro member
      cases member
    · rintro ⟨⟨isAsked, _⟩, _⟩
      exact absurd isAsked asked

theorem mem_batchRecords (reads : storage.Reads StorageRecord.clock readsMetadata rest)
    (result : BatchRecord) :
    result ∈ ((started config opens readsMetadata storage batches
        pushes).hybridEngine.batchRecords cutoff key startTs endTs).getD [] ↔
      ∃ record, InBatch cutoff startTs endTs opens readsMetadata storage batches rest record ∧
        startTs ≤ record.2.timestamp.val ∧ record.2.timestamp.val ≤ endTs ∧
        result = ⟨key, record.2.timestamp.val⟩ := by
  let adapter := newWithOlap storage (convertedFiles batches)
  rw [HybridQueryEngine.batchRecords, hybridEngine_started]
  dsimp only [Option.bind_some]
  by_cases asked : startTs < min endTs cutoff
  · rw [if_pos asked]
    cases found : adapter.query opens readsMetadata key startTs (min endTs cutoff) with
    | error text =>
      constructor
      · intro member
        cases member
      · rintro ⟨record, ⟨_, _, readable, _⟩, _⟩
        rcases exists_query_iff.mpr readable with ⟨records, others⟩
        rw [found] at others
        cases others
    | ok records =>
      have readable := exists_query_iff.mp ⟨records, found⟩
      have members := mem_query reads found result
      change result ∈ records ↔ _
      rw [members]
      constructor
      · rintro ⟨record, isRead, early, late, same⟩
        rcases le_min_iff.mp late with ⟨beforeEnd, beforeCutoff⟩
        exact ⟨record, ⟨asked, beforeCutoff, readable, isRead⟩, early, beforeEnd, same⟩
      · rintro ⟨record, ⟨_, beforeCutoff, _, isRead⟩, early, beforeEnd, same⟩
        exact ⟨record, isRead, early, le_min beforeEnd beforeCutoff, same⟩
  · rw [if_neg asked]
    constructor
    · intro member
      cases member
    · rintro ⟨record, inBatch, _⟩
      exact absurd inBatch.1 asked

def bothParts (now : ℤ) (key : String) (startTs endTs : ℤ) (engine : UnifiedQueryEngine) :
    List BatchRecord :=
  let cutoff := engine.hybridEngine.streamCutoff now
  (engine.hybridEngine.batchRecords cutoff key startTs endTs).getD [] ++
    engine.hybridEngine.streamRecords cutoff key startTs endTs

theorem query_started :
    (started config opens readsMetadata storage batches pushes).query now key startTs endTs =
      .ok ⟨dedupBy (fun record kept => record.key = kept.key ∧ record.timestamp = kept.timestamp)
        (sortByKey timestamp (bothParts now key startTs endTs
          (started config opens readsMetadata storage batches pushes))), .Merged, true⟩ := by
  have strategy : (started config opens readsMetadata storage batches
      pushes).hybridEngine.config.mergeStrategy = .ByTimestamp := by
    rw [hybridEngine_started]
    rfl
  rw [query, HybridQueryEngine.query]
  dsimp only
  rw [strategy]
  rfl

theorem streamCutoff_started :
    (started config opens readsMetadata storage batches pushes).hybridEngine.streamCutoff now =
      (new config).hybridEngine.streamCutoff now := by
  rw [hybridEngine_started]
  rfl

theorem mem_bothParts (reads : storage.Reads StorageRecord.clock readsMetadata rest)
    (result : BatchRecord) :
    let cutoff := (new config).hybridEngine.streamCutoff now
    result ∈ bothParts now key startTs endTs
        (started config opens readsMetadata storage batches pushes) ↔
      (∃ record, InBatch cutoff startTs endTs opens readsMetadata storage batches rest record ∧
        startTs ≤ record.2.timestamp.val ∧ record.2.timestamp.val ≤ endTs ∧
        result = ⟨key, record.2.timestamp.val⟩) ∨
      (InStream cutoff key startTs endTs pushes result.timestamp ∧ result.key = key ∧
        startTs ≤ result.timestamp ∧ result.timestamp ≤ endTs) := by
  intro cutoff
  rw [bothParts, streamCutoff_started, List.mem_append, mem_batchRecords reads, mem_streamRecords]

theorem eq_map_iff {records : List BatchRecord} (ofKey : ∀ record ∈ records, record.key = key)
    {times : List ℤ} : records = times.map (⟨key, ·⟩) ↔ records.map timestamp = times := by
  have same : records = (records.map timestamp).map (⟨key, ·⟩) := by
    rw [List.map_map]
    nth_rewrite 1 [← List.map_id records]
    apply List.map_congr_left
    intro record member
    rw [Function.comp_apply, ← ofKey record member]
    rfl
  constructor
  · rintro rfl
    rw [List.map_map]
    exact List.map_id _
  · rintro rfl
    exact same

/-- The answer is complete if and only if nothing in the range is repeated and both parts have
the timestamps of the range. -/
theorem answersInFull_iff_members (reads : storage.Reads StorageRecord.clock readsMetadata rest) :
    AnswersInFull now key startTs endTs written
        (started config opens readsMetadata storage batches pushes) ↔
      (expected startTs endTs written).Nodup ∧
      ∀ time, time ∈ (bothParts now key startTs endTs
        (started config opens readsMetadata storage batches pushes)).map timestamp ↔
          time ∈ expected startTs endTs written := by
  let parts := bothParts now key startTs endTs
    (started config opens readsMetadata storage batches pushes)
  let same : BatchRecord → BatchRecord → Bool := fun record kept =>
    record.key = kept.key ∧ record.timestamp = kept.timestamp
  let merged := dedupBy same (sortByKey timestamp parts)
  have ofKey : ∀ record ∈ sortByKey timestamp parts, record.key = key := by
    intro record member
    have isPart : record ∈ parts := (List.perm_insertionSort _ _).mem_iff.mp member
    rcases (mem_bothParts reads record).mp isPart with ⟨_, _, _, _, rfl⟩ | inStream
    · rfl
    · exact inStream.2.1
  have agrees : ∀ left ∈ sortByKey timestamp parts,
      ∀ right ∈ sortByKey timestamp parts,
        same left right = true ↔ left.timestamp = right.timestamp := by
    intro left isLeft right isRight
    simp only [same, decide_eq_true_iff, ofKey left isLeft, ofKey right isRight, true_and]
  have times : merged.map timestamp =
      dedupByKey id ((parts.map timestamp).insertionSort (· ≤ ·)) := by
    rw [map_dedupBy timestamp agrees, sortByKey]
    congr 1
    exact List.map_insertionSort _ (· ≤ ·) timestamp _ fun _ _ _ _ => Iff.rfl
  have mergedOfKey : ∀ record ∈ merged, record.key = key := by
    intro record member
    exact ofKey record (mem_of_mem_dedupBy member)
  rw [← merged_eq_iff, ← times, ← eq_map_iff mergedOfKey]
  constructor
  · intro inFull
    exact inFull _ query_started rfl
  · intro equal result found _
    rw [query_started] at found
    cases found
    exact equal

/-- No two records of the range share a timestamp, and each is found: in the stream if it is
not older than the cutoff, or by the batch source if it is not younger. -/
structure Covers (config : UnifiedQueryConfig) (now : ℤ) (key : String) (startTs endTs : ℤ)
    (opens : OpensParquet Price) (readsMetadata : ReadsMetadata (StorageRecord Price))
    (storage : OltpHybridStorage (StorageRecord Price))
    (batches : List (List (ℕ × StorageRecord Price))) (rest : List (ℕ × StorageRecord Price))
    (pushes : List BatchRecord) (written : List (ℕ × StorageRecord Price)) : Prop where
  distinct : (expected startTs endTs written).Nodup
  found : ∀ record ∈ written, startTs ≤ record.2.timestamp.val → record.2.timestamp.val ≤ endTs →
    InStream ((new config).hybridEngine.streamCutoff now) key startTs endTs pushes
      record.2.timestamp.val ∨
    InBatch ((new config).hybridEngine.streamCutoff now) startTs endTs opens readsMetadata storage
      batches rest record

theorem mem_expected : time ∈ expected startTs endTs written ↔
    ∃ record ∈ written, startTs ≤ record.2.timestamp.val ∧ record.2.timestamp.val ≤ endTs ∧
      record.2.timestamp.val = time := by
  simp only [expected, timestamps, List.mem_map, List.mem_filter, decide_eq_true_iff, and_assoc]

theorem eq_of_timestamp (distinct : (expected startTs endTs written).Nodup)
    (isLeft : left ∈ written) (isRight : right ∈ written) (early : startTs ≤ left.2.timestamp.val)
    (late : left.2.timestamp.val ≤ endTs) (same : left.2.timestamp.val = right.2.timestamp.val) :
    left = right := by
  have inRange : ∀ record ∈ written, record.2.timestamp.val = left.2.timestamp.val →
      record ∈ written.filter fun record =>
        startTs ≤ record.2.timestamp.val ∧ record.2.timestamp.val ≤ endTs := by
    intro record isRecord equal
    rw [List.mem_filter, decide_eq_true_iff, equal]
    exact ⟨isRecord, early, late⟩
  exact List.inj_on_of_nodup_map distinct (inRange left isLeft rfl)
    (inRange right isRight same.symm) same

end Answers

def tickAt (timestamp : Timestamp) : StorageRecord ℚ where
  fields := .TickData (WalRecord.toFixedArray 16 "cu2501") 50000
  timestamp := timestamp

def PushedIfYoung (config : UnifiedQueryConfig) (now : ℤ) (key : String)
    (pushes : List BatchRecord) (written : List (ℕ × StorageRecord Price)) : Prop :=
  ∀ record ∈ written, now - config.streamWindowSeconds * 1000000000 ≤ record.2.timestamp.val →
    ⟨key, record.2.timestamp.val⟩ ∈ pushes

def inMemory (next : ℕ) (records : List (ℕ × StorageRecord ℚ)) (pushes : List BatchRecord) :
    UnifiedQueryEngine :=
  started .default (fun _ => .ok ()) (fun _ _ => .ok [])
    (memtableStorage next records) [] pushes

end UnifiedQueryEngine

end QAExchange
