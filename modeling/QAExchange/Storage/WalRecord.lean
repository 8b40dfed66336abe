import QAExchange.Common

/-! # WAL records and the logs of the gateway

The record kinds that the trade gateway writes, and its logs: one per
instrument and one per account.
-/

namespace QAExchange

open Foundation Action

/-- `[u8; n]` -/
structure FixedArray (length : ℕ) where
  bytes : List UInt8
  bytes_length : bytes.length = length
  deriving DecidableEq

namespace WalRecord

/-- `to_fixed_array_16`, `_32`, `_64` and `_128`: the UTF-8 bytes, cut or filled
with zeros to the length. -/
def toFixedArray (length : ℕ) (text : String) : FixedArray length where
  bytes := (text.toUTF8.data.toList ++ List.replicate length 0).take length
  bytes_length := by simp

end WalRecord

inductive WalRecord
  | ExchangeOrderRecord (exchange instrument : FixedArray 16) (exchangeOrderId : ℤ)
      (direction offset priceType : ℕ) (price volume : ℚ) (time : ℤ)
      (internalOrderId userId : FixedArray 32)
  | ExchangeTradeRecord (exchange instrument : FixedArray 16)
      (buyExchangeOrderId sellExchangeOrderId : ℤ) (dealPrice dealVolume : ℚ) (time tradeId : ℤ)
  | ExchangeResponseRecord (responseType : ℕ) (exchangeOrderId : ℤ) (instrument : FixedArray 16)
      (userId : FixedArray 32) (timestamp tradeId : ℤ) (volume price : ℚ)
      (reason : FixedArray 128)
  | OrderStatusUpdate (orderId : FixedArray 64) (userId : FixedArray 32)
      (instrumentId : FixedArray 16) (status : ℕ)
      (volumeOrign volumeLeft volumeFilled frozenMargin frozenAmount : ℚ)
      (direction offset : ℕ) (limitPrice avgPrice : ℚ) (lastMsg : FixedArray 128)
      (timestamp : ℤ)
  deriving DecidableEq

def WalRecord.isTrade : WalRecord → Bool
  | .ExchangeTradeRecord .. => true
  | .ExchangeOrderRecord .. | .ExchangeResponseRecord .. | .OrderStatusUpdate .. => false

/-- The logs of the gateway. `disk n` says how the n-th append ends: with
`none` it is written, with an error text it is not. -/
structure WalLogs where
  instrument : String → List WalRecord
  account : String → List WalRecord
  appends : ℕ
  disk : ℕ → Option String

namespace WalLogs

/-- Append one record; `place` puts it into its log. -/
def append (place : WalLogs → WalLogs) (failure : String) : Action ExchangeError WalLogs Unit := do
  let result ← read fun logs => logs.disk logs.appends
  update fun logs => { logs with appends := logs.appends + 1 }
  match result with
  | none => update place
  | some text => fail (.StorageError (.ofString (failure ++ text)))

/-- `WalManager::append` on the log of an instrument. -/
def appendInstrument (instrumentId : String) (record : WalRecord) (failure : String) :
    Action ExchangeError WalLogs Unit :=
  append (fun logs => { logs with
    instrument := Function.update logs.instrument instrumentId
      (logs.instrument instrumentId ++ [record]) }) failure

/-- `WalManager::append` on the log of an account. -/
def appendAccount (userId : String) (record : WalRecord) (failure : String) :
    Action ExchangeError WalLogs Unit :=
  append (fun logs => { logs with
    account := Function.update logs.account userId (logs.account userId ++ [record]) }) failure

def DiskOk (logs : WalLogs) : Prop := ∀ n, logs.disk n = none

/-- On a good disk an append only places its record. -/
theorem exec_append {place : WalLogs → WalLogs} {failure : String} {logs : WalLogs}
    (good : DiskOk logs) :
    exec (append place failure) logs =
      (.ok (), place { logs with appends := logs.appends + 1 }) := by
  simp only [append, exec_bind, exec_read, exec_update, good logs.appends]

end WalLogs

end QAExchange
