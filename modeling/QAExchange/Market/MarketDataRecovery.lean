import QAExchange.Foundation.Newest
import QAExchange.Market.LiveDepth

/-! # Two recoveries of market data

The recovery goes through the records of the storage once and keeps the newest data of each
instrument. The service searches them from the end for one instrument.
-/

namespace QAExchange

open Foundation

structure TickData where
  instrumentId : String
  timestamp : ℤ
  lastPrice : ℚ
  bidPrice : Option ℚ
  askPrice : Option ℚ
  volume : ℤ
  deriving DecidableEq

inductive StoredRecord
  | TickData (instrumentId : FixedArray 16) (lastPrice bidPrice askPrice : ℚ) (volume : ℤ)
      (timestamp : ℤ)
  | OrderBookSnapshot (instrumentId : FixedArray 16) (bids asks : List (ℚ × ℤ)) (lastPrice : ℚ)
      (timestamp : ℤ)
  | OrderBookDelta (timestamp : ℤ)
  | other (timestamp : ℤ)

namespace StoredRecord

def timestamp : StoredRecord → ℤ
  | TickData _ _ _ _ _ timestamp => timestamp
  | OrderBookSnapshot _ _ _ _ timestamp => timestamp
  | OrderBookDelta timestamp => timestamp
  | other timestamp => timestamp

/-- A price that is not positive stands for no price. -/
def price? (price : ℚ) : Option ℚ := if 0 < price then some price else none

def tick? : StoredRecord → Option QAExchange.TickData
  | TickData instrumentId lastPrice bidPrice askPrice volume timestamp => some
      { instrumentId := WalRecord.fromFixedArray instrumentId
        timestamp := timestamp.tdiv 1000000
        lastPrice := lastPrice
        bidPrice := price? bidPrice
        askPrice := price? askPrice
        volume := volume }
  | _ => none

def marketRecord : StoredRecord → MarketRecord
  | OrderBookSnapshot instrumentId bids asks lastPrice timestamp =>
    .OrderBookSnapshot instrumentId bids asks lastPrice timestamp
  | _ => .other

def snapshot? (record : StoredRecord) : Option QAExchange.OrderBookSnapshot :=
  record.marketRecord.snapshot?

end StoredRecord

/-- `OltpHybridStorage::range_query` with all records. -/
abbrev StoredQuery := ℤ → ℤ → Except String (List StoredRecord)

namespace MarketDataRecovery

structure RecoveryStats where
  totalRecords : ℕ
  tickRecords : ℕ
  orderbookRecords : ℕ
  deltaRecords : ℕ

structure RecoveredMarketData where
  ticks : String → Option TickData
  orderbookSnapshots : String → Option OrderBookSnapshot
  stats : RecoveryStats

def start : RecoveredMarketData where
  ticks _ := none
  orderbookSnapshots _ := none
  stats := ⟨0, 0, 0, 0⟩

def recoverRecord (recovered : RecoveredMarketData) (record : StoredRecord) : RecoveredMarketData :=
  let stats := { recovered.stats with totalRecords := recovered.stats.totalRecords + 1 }
  match record with
  | .TickData .. =>
    { recovered with
      ticks := (record.tick?.elim recovered.ticks
        (keepNewer TickData.instrumentId TickData.timestamp recovered.ticks))
      stats := { stats with tickRecords := stats.tickRecords + 1 } }
  | .OrderBookSnapshot .. =>
    { recovered with
      orderbookSnapshots := (record.snapshot?.elim recovered.orderbookSnapshots
        (keepNewer OrderBookSnapshot.instrumentId OrderBookSnapshot.timestamp
          recovered.orderbookSnapshots))
      stats := { stats with orderbookRecords := stats.orderbookRecords + 1 } }
  | .OrderBookDelta _ =>
    { recovered with stats := { stats with deltaRecords := stats.deltaRecords + 1 } }
  | .other _ => { recovered with stats := stats }

/-- An error is an `InternalError` with this text. -/
def recoverMarketData (storage : StoredQuery) (startTs endTs : ℤ) :
    Except String RecoveredMarketData :=
  match storage startTs endTs with
  | .error text => .error ("Failed to query WAL: " ++ text)
  | .ok records => .ok (records.foldl recoverRecord start)

end MarketDataRecovery

namespace MarketDataService

/-- The wall clock shows `nanos`. -/
def loadTickFromStorage (storage : Option StoredQuery) (instrumentId : String) (nanos : ℤ) :
    Except String TickData :=
  match storage with
  | none => .error ("No tick data found for " ++ instrumentId)
  | some rangeQuery =>
    match rangeQuery (nanos - 3600 * 1000000000) nanos with
    | .error text => .error ("Failed to query WAL: " ++ text)
    | .ok records =>
      match lastNamed TickData.instrumentId instrumentId
          (records.filterMap StoredRecord.tick?) with
      | none => .error ("No tick data found for " ++ instrumentId)
      | some tick => .ok tick

def loadOrderbookFromStorage (storage : Option StoredQuery) (instrumentId : String) (nanos : ℤ) :
    Except String OrderBookSnapshot :=
  match storage with
  | none => .error ("No orderbook snapshot found for " ++ instrumentId)
  | some rangeQuery =>
    match rangeQuery (nanos - 3600 * 1000000000) nanos with
    | .error text => .error ("Failed to query WAL: " ++ text)
    | .ok records =>
      match lastNamed OrderBookSnapshot.instrumentId instrumentId
          (records.filterMap StoredRecord.snapshot?) with
      | none => .error ("No orderbook snapshot found for " ++ instrumentId)
      | some snapshot => .ok snapshot

end MarketDataService

/-! ## When both agree -/

section Agreement

variable {rangeQuery : StoredQuery} {records : List StoredRecord}

open MarketDataRecovery

/-- Both recoveries of the last hour have the tick and the order book of the last record of the
instrument, or none if there is no record. -/
def RecoveriesAgree (rangeQuery : StoredQuery) (records : List StoredRecord)
    (instrumentId : String) (nanos : ℤ) : Prop :=
  ∃ recovered, recoverMarketData rangeQuery (nanos - 3600 * 1000000000) nanos =
      .ok recovered ∧
    recovered.ticks instrumentId = ((records.filterMap StoredRecord.tick?).filter
      fun tick => tick.instrumentId = instrumentId).getLast? ∧
    recovered.ticks instrumentId =
      (MarketDataService.loadTickFromStorage (some rangeQuery) instrumentId nanos).toOption ∧
    recovered.orderbookSnapshots instrumentId = ((records.filterMap StoredRecord.snapshot?).filter
      fun snapshot => snapshot.instrumentId = instrumentId).getLast? ∧
    recovered.orderbookSnapshots instrumentId =
      (MarketDataService.loadOrderbookFromStorage (some rangeQuery) instrumentId nanos).toOption

/-- The first tick of the instrument in the millisecond of its last one is the same as this, and
so is the first snapshot. -/
def FirstsAreLast (records : List StoredRecord) (instrumentId : String) : Prop :=
  (∀ last ∈ lastNamed TickData.instrumentId instrumentId (records.filterMap StoredRecord.tick?),
    firstAt TickData.instrumentId TickData.timestamp instrumentId last.timestamp
      (records.filterMap StoredRecord.tick?) = some last) ∧
  ∀ last ∈ lastNamed OrderBookSnapshot.instrumentId instrumentId
      (records.filterMap StoredRecord.snapshot?),
    firstAt OrderBookSnapshot.instrumentId OrderBookSnapshot.timestamp instrumentId last.timestamp
      (records.filterMap StoredRecord.snapshot?) = some last

instance (records : List StoredRecord) (instrumentId : String) :
    Decidable (FirstsAreLast records instrumentId) :=
  inferInstanceAs (Decidable (_ ∧ _))

theorem foldl_recoverRecord (records : List StoredRecord) :
    (records.foldl recoverRecord start).ticks =
        newest TickData.instrumentId TickData.timestamp (records.filterMap StoredRecord.tick?) ∧
      (records.foldl recoverRecord
          start).orderbookSnapshots =
        newest OrderBookSnapshot.instrumentId OrderBookSnapshot.timestamp
          (records.filterMap StoredRecord.snapshot?) := by
  induction records using List.reverseRecOn with
  | nil => exact ⟨rfl, rfl⟩
  | append_singleton records record induction =>
    obtain ⟨ticks, snapshots⟩ := induction
    rw [List.foldl_append, List.foldl_cons, List.foldl_nil, List.filterMap_append,
      List.filterMap_append, newest, newest, List.foldl_append, List.foldl_append]
    unfold newest at ticks snapshots
    rw [← ticks, ← snapshots]
    cases record <;> exact ⟨rfl, rfl⟩

theorem sorted_filterMap {α : Type} {time : α → ℤ} {data : StoredRecord → Option α}
    (inMilliseconds : ∀ record, ∀ entry ∈ data record,
      time entry = record.timestamp.tdiv 1000000)
    (sorted : records.Pairwise fun left right => left.timestamp ≤ right.timestamp) :
    (records.filterMap data).Pairwise fun left right => time left ≤ time right := by
  apply List.Pairwise.filterMap data _ sorted
  intro left right notLater entry isLeft other isRight
  rw [inMilliseconds left entry isLeft, inMilliseconds right other isRight]
  exact Int.tdiv_le_tdiv (by decide) notLater

theorem tick?_timestamp (record : StoredRecord) :
    ∀ tick ∈ record.tick?, tick.timestamp = record.timestamp.tdiv 1000000 := by
  intro tick isTick
  cases record with
  | TickData => cases isTick; rfl
  | _ => cases isTick

theorem snapshot?_timestamp (record : StoredRecord) :
    ∀ snapshot ∈ record.snapshot?, snapshot.timestamp = record.timestamp.tdiv 1000000 := by
  intro snapshot isSnapshot
  cases record with
  | OrderBookSnapshot => cases isSnapshot; rfl
  | _ => cases isSnapshot

theorem load_toOption {nanos : ℤ}
    (stored : rangeQuery (nanos - 3600 * 1000000000) nanos = .ok records) (instrumentId : String) :
    (MarketDataService.loadTickFromStorage (some rangeQuery) instrumentId nanos).toOption =
        lastNamed TickData.instrumentId instrumentId (records.filterMap StoredRecord.tick?) ∧
      (MarketDataService.loadOrderbookFromStorage (some rangeQuery) instrumentId nanos).toOption =
        lastNamed OrderBookSnapshot.instrumentId instrumentId
          (records.filterMap StoredRecord.snapshot?) := by
  unfold MarketDataService.loadTickFromStorage MarketDataService.loadOrderbookFromStorage
  dsimp only
  rw [stored]
  dsimp only
  constructor
  · cases lastNamed TickData.instrumentId instrumentId (records.filterMap StoredRecord.tick?) <;>
      rfl
  · cases lastNamed OrderBookSnapshot.instrumentId instrumentId
      (records.filterMap StoredRecord.snapshot?) <;> rfl

/-- For records in the order of time the recoveries agree on an instrument exactly if nothing
else comes first in the last millisecond. -/
theorem recoveriesAgree_iff {nanos : ℤ}
    (stored : rangeQuery (nanos - 3600 * 1000000000) nanos = .ok records)
    (sorted : records.Pairwise fun left right => left.timestamp ≤ right.timestamp)
    (instrumentId : String) :
    RecoveriesAgree rangeQuery records instrumentId nanos ↔
      FirstsAreLast records instrumentId := by
  obtain ⟨ticks, snapshots⟩ := foldl_recoverRecord records
  obtain ⟨loadedTick, loadedSnapshot⟩ := load_toOption stored instrumentId
  have recovers : recoverMarketData rangeQuery (nanos - 3600 * 1000000000)
      nanos = .ok (records.foldl recoverRecord start) := by
    rw [recoverMarketData, stored]
  have tickIff := newest_eq_lastNamed_iff TickData.instrumentId
    (sorted_filterMap tick?_timestamp sorted) instrumentId
  have snapshotIff := newest_eq_lastNamed_iff OrderBookSnapshot.instrumentId
    (sorted_filterMap snapshot?_timestamp sorted) instrumentId
  rw [← ticks] at tickIff
  rw [← snapshots] at snapshotIff
  rw [FirstsAreLast, ← tickIff, ← snapshotIff, RecoveriesAgree]
  simp only [recovers, Except.ok.injEq, exists_eq_left', loadedTick, loadedSnapshot,
    ← lastNamed_eq_getLast?]
  tauto

/-- A tick of an instrument without bid and ask. -/
def tickRecord (lastPrice : ℚ) (timestamp : ℤ) : StoredRecord :=
  .TickData (WalRecord.toFixedArray 16 "IF2501") lastPrice 0 0 1 timestamp

/-- Of two ticks in one millisecond the recovery keeps the first one. -/
theorem sameMillisecond_disagree :
    ¬RecoveriesAgree (fun _ _ => .ok [tickRecord 1 0, tickRecord 2 1])
      [tickRecord 1 0, tickRecord 2 1] "IF2501" 3600000000000 := by
  rintro ⟨recovered, isOk, isLast, _⟩
  cases isOk
  revert isLast
  decide +kernel

theorem twoMilliseconds_agree :
    RecoveriesAgree (fun _ _ => .ok [tickRecord 1 0, tickRecord 2 1000000])
      [tickRecord 1 0, tickRecord 2 1000000] "IF2501" 3600000000000 := by
  have first : FirstsAreLast [tickRecord 1 0, tickRecord 2 1000000] "IF2501" := by
    decide +kernel
  exact (recoveriesAgree_iff rfl (by decide +kernel) "IF2501").mpr first

end Agreement

end QAExchange
