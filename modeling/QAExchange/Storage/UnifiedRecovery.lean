import Mathlib.Data.String.Basic
import QAExchange.Foundation.KeyedRows
import QAExchange.Storage.FixedText
import QAExchange.Storage.WalManager

/-! # Unified recovery

The trade gateway logs the states of the orders of a user under
`{wal_root}/__ACCOUNT__/{user_id}/`, and the recovery manager reads a WAL root back.
-/

namespace QAExchange

open Foundation Action

/-- A WAL root. `accounts` are the user ids whose directory has been made, each with the
manager over it; `instruments` are the directories of the instruments with their files. -/
structure WalRoot where
  accounts : List String
  accountWals : String → Option WalManager
  instruments : List (String × List WalFile)

def WalRoot.empty : WalRoot where
  accounts := []
  accountWals := fun _ => none
  instruments := []

/-- The arguments of `write_order_status_update`, and the clock: nanoseconds for the record
and for the log entry, seconds for a new file. -/
structure OrderStatusCall where
  orderId : String
  userId : String
  instrumentId : String
  status : ℕ
  volumeOrign : ℚ
  volumeLeft : ℚ
  volumeFilled : ℚ
  frozenMargin : ℚ
  frozenAmount : ℚ
  direction : ℕ
  offset : ℕ
  limitPrice : ℚ
  avgPrice : ℚ
  lastMsg : String
  timestamp : ℤ
  entryTimestamp : ℤ
  seconds : ℤ
  deriving DecidableEq

def OrderStatusCall.record (call : OrderStatusCall) : WalRecord :=
  .OrderStatusUpdate (WalRecord.toFixedArray 64 call.orderId)
    (WalRecord.toFixedArray 32 call.userId) (WalRecord.toFixedArray 16 call.instrumentId)
    call.status call.volumeOrign call.volumeLeft call.volumeFilled call.frozenMargin
    call.frozenAmount call.direction call.offset call.limitPrice call.avgPrice
    (WalRecord.toFixedArray 128 call.lastMsg) call.timestamp

namespace TradeGateway

variable (codec : EntryCodec WalRecord)

def getOrCreateAccountWal (userId : String) (seconds : ℤ) :
    Action ExchangeError WalRoot WalManager := do
  match ← read fun root => root.accountWals userId with
  | some manager => pure manager
  | none =>
    let manager := WalManager.new codec [] seconds
    update fun root => { root with
      accounts := root.accounts ++ [userId]
      accountWals := Function.update root.accountWals userId (some manager) }
    pure manager

/-- `write_order_status_update` -/
def logOrderStatus (call : OrderStatusCall) : Action ExchangeError WalRoot Unit := do
  let manager ← getOrCreateAccountWal codec call.userId call.seconds
  let stamped := ⟨call.entryTimestamp, call.record⟩
  let appended := exec (WalManager.append codec call.seconds stamped) manager
  update fun root => { root with
    accountWals := Function.update root.accountWals call.userId (some appended.2) }
  match appended.1 with
  | .ok _ => pure ()
  | .error text =>
    fail (.StorageError (.ofString ("Failed to append OrderStatusUpdate: " ++ text)))

/-- The calls one after the other. The calls that succeed are returned. -/
def logOrderStatuses : List OrderStatusCall → WalRoot → List OrderStatusCall × WalRoot
  | [], root => ([], root)
  | call :: calls, root =>
    match exec (logOrderStatus codec call) root with
    | (.ok _, after) =>
      let rest := logOrderStatuses calls after
      (call :: rest.1, rest.2)
    | (.error _, after) => logOrderStatuses calls after

end TradeGateway

/-! ## Reading -/

structure RecoveredOrder where
  orderId : String
  userId : String
  instrumentId : String
  exchangeId : String
  direction : ℕ
  offset : ℕ
  status : ℕ
  volumeOrign : ℚ
  volumeLeft : ℚ
  volumeFilled : ℚ
  limitPrice : ℚ
  avgPrice : ℚ
  frozenMargin : ℚ
  frozenAmount : ℚ
  lastMsg : String
  timestamp : ℤ
  lastSequence : ℕ
  deriving DecidableEq

def RecoveredOrder.key (order : RecoveredOrder) : String := order.userId ++ "_" ++ order.orderId

structure RecoveryStats where
  totalRecords : ℕ
  exchangeRecords : ℕ
  orderStatusRecords : ℕ

def RecoveryStats.record (stats : RecoveryStats) : WalRecord → RecoveryStats
  | .ExchangeOrderRecord .. | .ExchangeTradeRecord .. | .ExchangeResponseRecord .. =>
    { stats with
      totalRecords := stats.totalRecords + 1
      exchangeRecords := stats.exchangeRecords + 1 }
  | .OrderStatusUpdate .. =>
    { stats with
      totalRecords := stats.totalRecords + 1
      orderStatusRecords := stats.orderStatusRecords + 1 }

structure UnifiedRecoveryResult where
  orders : KeyedRows RecoveredOrder.key
  lastSequence : ℕ
  stats : RecoveryStats

def UnifiedRecoveryResult.default : UnifiedRecoveryResult where
  orders := .empty
  lastSequence := 0
  stats := ⟨0, 0, 0⟩

structure RecoveryConfig where
  recoverAccounts : Bool
  recoverUsers : Bool
  recoverKlines : Bool
  recoverFactors : Bool
  recoverOrders : Bool
  recoverTrades : Bool
  startTimestamp : ℤ
  endTimestamp : ℤ
  instruments : List String
  useCheckpoint : Bool

namespace RecoveryConfig

def default : RecoveryConfig where
  recoverAccounts := true
  recoverUsers := true
  recoverKlines := true
  recoverFactors := true
  recoverOrders := false
  recoverTrades := false
  startTimestamp := 0
  endTimestamp := 0
  instruments := []
  useCheckpoint := true

def fullRecovery : RecoveryConfig :=
  { default with
    recoverAccounts := true
    recoverUsers := true
    recoverKlines := true
    recoverFactors := true
    recoverOrders := true
    recoverTrades := true }

end RecoveryConfig

namespace UnifiedRecoveryManager

variable (codec : EntryCodec WalRecord) (config : RecoveryConfig)

/-- The part before the first dot. -/
def exchangeId (instrumentId : String) : String :=
  String.ofList (instrumentId.toList.takeWhile fun char => char ≠ '.')

def recoveredOrder (sequence : ℕ) : WalRecord → Option RecoveredOrder
  | .OrderStatusUpdate orderId userId instrumentId status volumeOrign volumeLeft volumeFilled
      frozenMargin frozenAmount direction offset limitPrice avgPrice lastMsg timestamp =>
      some {
        orderId := WalRecord.fromFixedArray orderId
        userId := WalRecord.fromFixedArray userId
        instrumentId := WalRecord.fromFixedArray instrumentId
        exchangeId := exchangeId (WalRecord.fromFixedArray instrumentId)
        direction := direction
        offset := offset
        status := status
        volumeOrign := volumeOrign
        volumeLeft := volumeLeft
        volumeFilled := volumeFilled
        limitPrice := limitPrice
        avgPrice := avgPrice
        frozenMargin := frozenMargin
        frozenAmount := frozenAmount
        lastMsg := WalRecord.fromFixedArray lastMsg
        timestamp := timestamp
        lastSequence := sequence }
  | .ExchangeOrderRecord .. | .ExchangeTradeRecord .. | .ExchangeResponseRecord .. => none

def shouldUpdate (order : RecoveredOrder) (orders : KeyedRows RecoveredOrder.key) : Bool :=
  match orders.rows.find? fun existing => existing.key = order.key with
  | some existing => existing.lastSequence < order.lastSequence
  | none => true

def processRecord (sequence : ℕ) (record : WalRecord) (recovered : UnifiedRecoveryResult) :
    UnifiedRecoveryResult :=
  match recoveredOrder sequence record with
  | some order =>
    if config.recoverOrders && shouldUpdate order recovered.orders then
      { recovered with orders := recovered.orders.insert order }
    else recovered
  | none => recovered

def processInstrumentRecord (_sequence : ℕ) :
    WalRecord → UnifiedRecoveryResult → UnifiedRecoveryResult
  | .ExchangeOrderRecord .., recovered | .ExchangeTradeRecord .., recovered
  | .ExchangeResponseRecord .., recovered | .OrderStatusUpdate .., recovered => recovered

def inTimeRange (timestamp : ℤ) : Bool :=
  !(0 < config.startTimestamp && timestamp < config.startTimestamp) &&
    !(0 < config.endTimestamp && config.endTimestamp < timestamp)

/-- The closure that `replay` calls. -/
def recoverEntry (process : ℕ → WalRecord → UnifiedRecoveryResult → UnifiedRecoveryResult)
    (entry : WalEntry WalRecord) : Action String UnifiedRecoveryResult Unit :=
  runIf (inTimeRange config entry.timestamp) <| update fun recovered =>
    process entry.sequence entry.record { recovered with
      stats := recovered.stats.record entry.record
      lastSequence := max recovered.lastSequence entry.sequence }

/-- Open the directory and replay it; `failure` stands before the error of the replay. -/
def replayDirectory (process : ℕ → WalRecord → UnifiedRecoveryResult → UnifiedRecoveryResult)
    (failure : String) (files : List WalFile) (seconds : ℤ) :
    Action ExchangeError UnifiedRecoveryResult Unit := fun recovered =>
  match exec (WalManager.replay codec (recoverEntry config process)
      (WalManager.new codec files seconds).files) recovered with
  | (.ok _, after) => (.ok (), after)
  | (.error text, after) => (.error (.StorageError (.ofString (failure ++ text))), after)

/-- The files in `{wal_dir}/__ACCOUNT__`: those of the user whose id is empty. -/
def accountFiles (root : WalRoot) : List WalFile :=
  match root.accountWals "" with
  | some manager => manager.files
  | none => []

def recoverAccountWal (root : WalRoot) (seconds : ℤ) :
    Action ExchangeError UnifiedRecoveryResult Unit :=
  runIf (!root.accounts.isEmpty) <|
    replayDirectory codec config (processRecord config) "Account WAL replay failed: "
      (accountFiles root) seconds

def skipped (name : String) : Bool :=
  ['_', '_'].isPrefixOf name.toList || ['.'].isPrefixOf name.toList ||
    (!config.instruments.isEmpty && !config.instruments.contains name)

def recoverSingleInstrumentWal (seconds : ℤ) (instrument : String × List WalFile) :
    Action ExchangeError UnifiedRecoveryResult Unit :=
  replayDirectory codec config processInstrumentRecord
    ("Instrument " ++ instrument.1 ++ " WAL replay failed: ") instrument.2 seconds

def recoverInstrumentWals (root : WalRoot) (seconds : ℤ) :
    Action ExchangeError UnifiedRecoveryResult Unit :=
  forM (root.instruments.filter fun instrument => !skipped config instrument.1)
    (recoverSingleInstrumentWal codec config seconds)

def recover (root : WalRoot) (seconds : ℤ) : Except ExchangeError UnifiedRecoveryResult :=
  let ran := exec (do
    runIf (config.recoverAccounts || config.recoverUsers) (recoverAccountWal codec config root seconds)
    runIf (config.recoverKlines || config.recoverFactors)
      (recoverInstrumentWals codec config root seconds)) .default
  match ran with
  | (.ok _, recovered) => .ok recovered
  | (.error error, _) => .error error

end UnifiedRecoveryManager

end QAExchange
