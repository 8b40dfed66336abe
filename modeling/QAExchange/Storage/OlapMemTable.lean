import QAExchange.Foundation.Columns
import QAExchange.Storage.OltpMemTable
import QAExchange.Storage.WalRecord

/-! # The OLAP MemTable

A table that is built at once from sorted records and keeps them by columns. A range query
puts the records together again from the cells of a row.
-/

namespace QAExchange

open Foundation

inductive DataType
  | Int64
  | UInt64
  | UInt8
  | Int32
  | Float64
  | FixedSizeBinary (size : ℕ)

instance {length : ℕ} : Zero (FixedArray length) := ⟨⟨List.replicate length 0, List.length_replicate⟩⟩

namespace DataType

variable (Number : Type) [Zero Number]

/-- `Number` are the floating-point numbers. -/
def Denote : DataType → Type
  | .Int64 => ℤ
  | .UInt64 => ℕ
  | .UInt8 => ℕ
  | .Int32 => ℤ
  | .Float64 => Number
  | .FixedSizeBinary size => FixedArray size

def null : (dataType : DataType) → dataType.Denote Number
  | .Int64 => (0 : ℤ)
  | .UInt64 => (0 : ℕ)
  | .UInt8 => (0 : ℕ)
  | .Int32 => (0 : ℤ)
  | .Float64 => (0 : Number)
  | .FixedSizeBinary size => (0 : FixedArray size)

end DataType

/-- The names of `create_olap_schema`. -/
inductive OlapField
  | timestamp
  | sequence
  | recordType
  | orderId
  | userId
  | instrumentId
  | direction
  | offset
  | price
  | volume
  | tradeId
  | exchangeOrderId
  | balance
  | available
  | frozen
  | margin
  | klinePeriod
  | klineTimestamp
  | klineOpen
  | klineHigh
  | klineLow
  | klineClose
  | klineVolume
  | klineAmount
  | klineOpenOi
  | klineCloseOi
  deriving DecidableEq

namespace OlapField

def dataType : OlapField → DataType
  | .timestamp | .klineTimestamp | .klineVolume | .klineOpenOi | .klineCloseOi => .Int64
  | .sequence | .orderId | .tradeId | .exchangeOrderId => .UInt64
  | .recordType | .direction | .offset => .UInt8
  | .klinePeriod => .Int32
  | .price | .volume | .balance | .available | .frozen | .margin => .Float64
  | .klineOpen | .klineHigh | .klineLow | .klineClose | .klineAmount => .Float64
  | .userId => .FixedSizeBinary 32
  | .instrumentId => .FixedSizeBinary 16

abbrev Denote (Number : Type) (field : OlapField) : Type := field.dataType.Denote Number

end OlapField

def createOlapSchema : List OlapField :=
  [.timestamp, .sequence, .recordType, .orderId, .userId, .instrumentId, .direction, .offset,
    .price, .volume, .tradeId, .exchangeOrderId, .balance, .available, .frozen, .margin,
    .klinePeriod, .klineTimestamp, .klineOpen, .klineHigh, .klineLow, .klineClose, .klineVolume,
    .klineAmount, .klineOpenOi, .klineCloseOi]

/-- The kinds of `WalRecord` with the fields that go into columns, and their timestamps. -/
inductive ColumnRecord (Number : Type)
  | AccountOpen (userId : FixedArray 32) (initCash : Number) (timestamp : ℤ)
  | OrderInsert (orderId : ℕ) (userId : FixedArray 32) (instrumentId : FixedArray 16)
      (direction offset : ℕ) (price volume : Number) (timestamp : ℤ)
  | TradeExecuted (tradeId orderId exchangeOrderId : ℕ) (price volume : Number) (timestamp : ℤ)
  | AccountUpdate (userId : FixedArray 32) (balance available frozen margin : Number)
      (timestamp : ℤ)
  | Checkpoint (sequence : ℕ) (timestamp : ℤ)
  | TickData (timestamp : ℤ)
  | OrderBookSnapshot (timestamp : ℤ)
  | OrderBookDelta (timestamp : ℤ)
  | UserRegister (createdAt : ℤ)
  | AccountBind (timestamp : ℤ)
  | UserRoleUpdate (timestamp : ℤ)
  | ExchangeOrderRecord (time : ℤ)
  | ExchangeTradeRecord (time : ℤ)
  | ExchangeResponseRecord (timestamp : ℤ)
  | KLineFinished (instrumentId : FixedArray 16) (period klineTimestamp : ℤ)
      (openPrice high low close : Number) (volume : ℤ) (amount : Number) (openOi closeOi : ℤ)
      (timestamp : ℤ)
  | FactorUpdate (timestamp : ℤ)
  | FactorSnapshot (timestamp : ℤ)
  | OrderStatusUpdate (timestamp : ℤ)
  | PositionSnapshot (timestamp : ℤ)
  | AccountSnapshot (timestamp : ℤ)

/-- `MemTableValue::timestamp` -/
def ColumnRecord.timestamp {Number : Type} : ColumnRecord Number → ℤ
  | .AccountOpen _ _ timestamp => timestamp
  | .OrderInsert _ _ _ _ _ _ _ timestamp => timestamp
  | .TradeExecuted _ _ _ _ _ timestamp => timestamp
  | .AccountUpdate _ _ _ _ _ timestamp => timestamp
  | .Checkpoint _ timestamp => timestamp
  | .TickData timestamp => timestamp
  | .OrderBookSnapshot timestamp => timestamp
  | .OrderBookDelta timestamp => timestamp
  | .UserRegister createdAt => createdAt
  | .AccountBind timestamp => timestamp
  | .UserRoleUpdate timestamp => timestamp
  | .ExchangeOrderRecord time => time
  | .ExchangeTradeRecord time => time
  | .ExchangeResponseRecord timestamp => timestamp
  | .KLineFinished _ _ _ _ _ _ _ _ _ _ _ timestamp => timestamp
  | .FactorUpdate timestamp => timestamp
  | .FactorSnapshot timestamp => timestamp
  | .OrderStatusUpdate timestamp => timestamp
  | .PositionSnapshot timestamp => timestamp
  | .AccountSnapshot timestamp => timestamp

abbrev OlapCell (Number : Type) := Cell (OlapField.Denote Number)

abbrev OlapChunk (Number : Type) := Columns (OlapField.Denote Number)

/-! ## Building the columns -/

section Cells

variable {Number : Type}

def orderCells (orderId : Option ℕ) (userId : Option (FixedArray 32))
    (instrumentId : Option (FixedArray 16)) (direction offset : Option ℕ)
    (price volume : Option Number) : List (OlapCell Number) :=
  [⟨.orderId, orderId⟩, ⟨.userId, userId⟩, ⟨.instrumentId, instrumentId⟩,
    ⟨.direction, direction⟩, ⟨.offset, offset⟩, ⟨.price, price⟩, ⟨.volume, volume⟩]

def tradeCells (tradeId exchangeOrderId : Option ℕ) : List (OlapCell Number) :=
  [⟨.tradeId, tradeId⟩, ⟨.exchangeOrderId, exchangeOrderId⟩]

def accountCells (balance available frozen margin : Option Number) : List (OlapCell Number) :=
  [⟨.balance, balance⟩, ⟨.available, available⟩, ⟨.frozen, frozen⟩, ⟨.margin, margin⟩]

def klineCells (period timestamp : Option ℤ) (openPrice high low close : Option Number)
    (volume : Option ℤ) (amount : Option Number) (openOi closeOi : Option ℤ) :
    List (OlapCell Number) :=
  [⟨.klinePeriod, period⟩, ⟨.klineTimestamp, timestamp⟩, ⟨.klineOpen, openPrice⟩,
    ⟨.klineHigh, high⟩, ⟨.klineLow, low⟩, ⟨.klineClose, close⟩, ⟨.klineVolume, volume⟩,
    ⟨.klineAmount, amount⟩, ⟨.klineOpenOi, openOi⟩, ⟨.klineCloseOi, closeOi⟩]

/-- `push_null_kline_fields` -/
def nullKlineCells : List (OlapCell Number) :=
  klineCells none none none none none none none none none none

/-- A row of a type code, without any values. -/
def nullCells (recordType : ℕ) : List (OlapCell Number) :=
  ⟨.recordType, some recordType⟩ :: orderCells none none none none none none none ++
    tradeCells none none ++ accountCells none none none none ++ nullKlineCells

variable [Zero Number]

/-- What the `match` of `build_chunk` pushes for a record. -/
def recordCells : ColumnRecord Number → List (OlapCell Number)
  | .OrderInsert orderId userId instrumentId direction offset price volume _ =>
    ⟨.recordType, some (0 : ℕ)⟩ ::
      orderCells (some orderId) (some userId) (some instrumentId) (some direction)
        (some offset) (some price) (some volume) ++
      tradeCells none none ++ accountCells none none none none ++ nullKlineCells
  | .TradeExecuted tradeId orderId exchangeOrderId price volume _ =>
    ⟨.recordType, some (1 : ℕ)⟩ ::
      orderCells (some orderId) none none none none (some price) (some volume) ++
      tradeCells (some tradeId) (some exchangeOrderId) ++ accountCells none none none none ++
      nullKlineCells
  | .AccountUpdate userId balance available frozen margin _ =>
    ⟨.recordType, some (2 : ℕ)⟩ ::
      orderCells none (some userId) none none none none none ++ tradeCells none none ++
      accountCells (some balance) (some available) (some frozen) (some margin) ++
      nullKlineCells
  | .AccountOpen userId initCash _ =>
    ⟨.recordType, some (4 : ℕ)⟩ ::
      orderCells none (some userId) none none none none none ++ tradeCells none none ++
      accountCells (some initCash) (some initCash) (some 0) (some 0) ++ nullKlineCells
  | .Checkpoint _ _ => nullCells 3
  | .TickData _ => nullCells 5
  | .OrderBookSnapshot _ => nullCells 6
  | .OrderBookDelta _ => nullCells 7
  | .UserRegister _ => nullCells 8
  | .AccountBind _ => nullCells 9
  | .ExchangeOrderRecord _ => nullCells 10
  | .ExchangeTradeRecord _ => nullCells 11
  | .ExchangeResponseRecord _ => nullCells 12
  | .KLineFinished instrumentId period klineTimestamp openPrice high low close volume amount
      openOi closeOi _ =>
      ⟨.recordType, some (13 : ℕ)⟩ ::
        orderCells none none (some instrumentId) none none none none ++ tradeCells none none ++
        accountCells none none none none ++
        klineCells (some period) (some klineTimestamp) (some openPrice) (some high) (some low)
          (some close) (some volume) (some amount) (some openOi) (some closeOi)
  | .FactorUpdate _ | .FactorSnapshot _ => nullCells 14
  | .OrderStatusUpdate _ | .PositionSnapshot _ | .AccountSnapshot _ | .UserRoleUpdate _ =>
    nullCells 15

def entryCells (entry : MemTableEntry (ColumnRecord Number)) : List (OlapCell Number) :=
  ⟨.timestamp, some entry.key.timestamp⟩ :: ⟨.sequence, some entry.key.sequence⟩ ::
    recordCells entry.record

def buildChunk (records : List (MemTableEntry (ColumnRecord Number))) : OlapChunk Number :=
  .ofRows (records.map entryCells)

end Cells

/-- `Chunk::new` panics unless all arrays have the same length. -/
def chunkNew (arrays : OlapChunk Number) : Option (OlapChunk Number) :=
  if ∀ field ∈ createOlapSchema, (arrays field).length = (arrays .timestamp).length then
    some arrays
  else none

section Reading

variable {Number : Type} [Zero Number]

/-- `value` of an array panics behind its end. -/
def OlapChunk.value (chunk : OlapChunk Number) (field : OlapField) (index : ℕ) :
    Option (field.Denote Number) :=
  (chunk field)[index]?.map fun cell => cell.getD (field.dataType.null Number)

def reconstructRecord (index recordType : ℕ) (chunk : OlapChunk Number) :
    Option (ColumnRecord Number) :=
  match recordType with
  | 0 => do
    let timestamp ← chunk.value .timestamp index
    let orderId ← chunk.value .orderId index
    let userId ← chunk.value .userId index
    let instrumentId ← chunk.value .instrumentId index
    let direction ← chunk.value .direction index
    let offset ← chunk.value .offset index
    let price ← chunk.value .price index
    let volume ← chunk.value .volume index
    some (.OrderInsert orderId userId instrumentId direction offset price volume timestamp)
  | 1 => do
    let timestamp ← chunk.value .timestamp index
    let tradeId ← chunk.value .tradeId index
    let orderId ← chunk.value .orderId index
    let exchangeOrderId ← chunk.value .exchangeOrderId index
    let price ← chunk.value .price index
    let volume ← chunk.value .volume index
    some (.TradeExecuted tradeId orderId exchangeOrderId price volume timestamp)
  | 2 => do
    let timestamp ← chunk.value .timestamp index
    let userId ← chunk.value .userId index
    let balance ← chunk.value .balance index
    let available ← chunk.value .available index
    let frozen ← chunk.value .frozen index
    let margin ← chunk.value .margin index
    some (.AccountUpdate userId balance available frozen margin timestamp)
  | 3 => do
    let timestamp ← chunk.value .timestamp index
    let sequence ← chunk.value .sequence index
    some (.Checkpoint sequence timestamp)
  | _ => none

end Reading

structure OlapMemTable (Number : Type) where
  chunk : OlapChunk Number
  entryCount : ℕ
  minTimestamp : ℤ
  maxTimestamp : ℤ

namespace OlapMemTable

variable {Number : Type}

/-- From `i64::MAX` to `i64::MIN`. -/
def empty : OlapMemTable Number where
  chunk := .empty
  entryCount := 0
  minTimestamp := 2 ^ 63 - 1
  maxTimestamp := -2 ^ 63

variable [Zero Number]

def fromRecords (records : List (MemTableEntry (ColumnRecord Number))) :
    Option (OlapMemTable Number) :=
  if isEmpty : records = [] then some empty
  else do
    let chunk ← chunkNew (buildChunk records)
    some
      { chunk := chunk
        entryCount := records.length
        minTimestamp := (records.head isEmpty).key.timestamp
        maxTimestamp := (records.getLast isEmpty).key.timestamp }

/-- The rows from `index`, `remaining` of them, up to the first one behind the range. -/
def scan (startTs endTs : ℤ) (chunk : OlapChunk Number) :
    ℕ → ℕ → Option (List (MemTableEntry (ColumnRecord Number)))
  | _, 0 => some []
  | index, remaining + 1 => do
    let ts : ℤ ← chunk.value .timestamp index
    if ts < startTs then scan startTs endTs chunk (index + 1) remaining
    else if endTs < ts then some []
    else
      let sequence : ℕ ← chunk.value .sequence index
      let recordType : ℕ ← chunk.value .recordType index
      let record ← reconstructRecord index recordType chunk
      let results ← scan startTs endTs chunk (index + 1) remaining
      some ({ key := { timestamp := ts, sequence := sequence }, record := record } :: results)

/-- `none` is a panic. -/
def rangeQuery (startTs endTs : ℤ) (memtable : OlapMemTable Number) :
    Option (List (MemTableEntry (ColumnRecord Number))) :=
  if memtable.entryCount = 0 then some []
  else if endTs < memtable.minTimestamp ∨ memtable.maxTimestamp < startTs then some []
  else scan startTs endTs memtable.chunk 0 memtable.entryCount

end OlapMemTable

end QAExchange
