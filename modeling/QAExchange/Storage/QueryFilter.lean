import QAExchange.Storage.FixedText
import QAExchange.Storage.OltpMemTable

/-! # Query filters

What a query asks for: a time range, kinds of records as a bit mask, instruments, a
price range, and a page of the result.
-/

namespace QAExchange

inductive RecordType
  | AccountOpen
  | AccountUpdate
  | UserRegister
  | AccountBind
  | UserRoleUpdate
  | OrderInsert
  | TradeExecuted
  | TickData
  | OrderBookSnapshot
  | OrderBookDelta
  | KLineFinished
  | ExchangeOrderRecord
  | ExchangeTradeRecord
  | ExchangeResponseRecord
  | FactorUpdate
  | FactorSnapshot
  | OrderStatusUpdate
  | PositionSnapshot
  | AccountSnapshot
  | Checkpoint
  deriving DecidableEq

namespace RecordType

/-- From the code, of which the lower 16 bits count. `UserRoleUpdate` has a code, 0x0102,
but no case here. -/
def fromI32 (value : ℤ) : Option RecordType :=
  match (value % 2 ^ 16).toNat with
  | 0x0001 => some .AccountOpen
  | 0x0002 => some .AccountUpdate
  | 0x0100 => some .UserRegister
  | 0x0101 => some .AccountBind
  | 0x0200 => some .OrderInsert
  | 0x0201 => some .TradeExecuted
  | 0x0300 => some .TickData
  | 0x0301 => some .OrderBookSnapshot
  | 0x0302 => some .OrderBookDelta
  | 0x0303 => some .KLineFinished
  | 0x0400 => some .ExchangeOrderRecord
  | 0x0401 => some .ExchangeTradeRecord
  | 0x0402 => some .ExchangeResponseRecord
  | 0x0500 => some .FactorUpdate
  | 0x0501 => some .FactorSnapshot
  | 0x0600 => some .OrderStatusUpdate
  | 0x0601 => some .PositionSnapshot
  | 0x0602 => some .AccountSnapshot
  | 0xFF00 => some .Checkpoint
  | _ => none

end RecordType

structure RecordTypeSet where
  mask : BitVec 32

namespace RecordTypeSet

def EMPTY : RecordTypeSet := ⟨0⟩

/-- All kinds; `u32::MAX`. -/
def ALL : RecordTypeSet := ⟨BitVec.allOnes 32⟩

def typeToBit : RecordType → BitVec 32
  | .AccountOpen => 1 <<< 0
  | .AccountUpdate => 1 <<< 1
  | .UserRegister => 1 <<< 2
  | .AccountBind => 1 <<< 3
  | .OrderInsert => 1 <<< 4
  | .TradeExecuted => 1 <<< 5
  | .TickData => 1 <<< 6
  | .OrderBookSnapshot => 1 <<< 7
  | .OrderBookDelta => 1 <<< 8
  | .KLineFinished => 1 <<< 9
  | .ExchangeOrderRecord => 1 <<< 10
  | .ExchangeTradeRecord => 1 <<< 11
  | .ExchangeResponseRecord => 1 <<< 12
  | .FactorUpdate => 1 <<< 13
  | .FactorSnapshot => 1 <<< 14
  | .Checkpoint => 1 <<< 15
  | .OrderStatusUpdate => 1 <<< 16
  | .PositionSnapshot => 1 <<< 17
  | .AccountSnapshot => 1 <<< 18
  | .UserRoleUpdate => 1 <<< 19

def insert (recordType : RecordType) (set : RecordTypeSet) : RecordTypeSet :=
  ⟨set.mask ||| typeToBit recordType⟩

def contains (recordType : RecordType) (set : RecordTypeSet) : Bool :=
  set.mask &&& typeToBit recordType ≠ 0

end RecordTypeSet

/-! ## Records -/

/-- `i64` -/
def Timestamp : Type := { time : ℤ // -2 ^ 63 ≤ time ∧ time < 2 ^ 63 }
  deriving DecidableEq

/-- The kinds of `WalRecord` with what a query reads of them. -/
inductive RecordFields (Price : Type)
  | AccountOpen
  | AccountUpdate
  | UserRegister
  | AccountBind
  | UserRoleUpdate
  | OrderInsert (instrumentId : FixedArray 16) (price : Price)
  | TradeExecuted (price : Price)
  | TickData (instrumentId : FixedArray 16) (lastPrice : Price)
  | OrderBookSnapshot (instrumentId : FixedArray 16) (lastPrice : Price)
  | OrderBookDelta (instrumentId : FixedArray 16) (price : Price)
  | KLineFinished (instrumentId : FixedArray 16) (close : Price)
  | ExchangeOrderRecord (instrument : FixedArray 16) (price : Price)
  | ExchangeTradeRecord (instrument : FixedArray 16) (dealPrice : Price)
  | ExchangeResponseRecord (instrument : FixedArray 16)
  | FactorUpdate (instrumentId : FixedArray 16)
  | FactorSnapshot
  | OrderStatusUpdate
  | PositionSnapshot
  | AccountSnapshot
  | Checkpoint

structure StorageRecord (Price : Type) where
  fields : RecordFields Price
  timestamp : Timestamp

namespace StorageRecord

variable {Price : Type}

/-- `MemTableValue::timestamp` -/
def clock : RecordClock (StorageRecord Price) where
  timestamp := fun record => record.timestamp.val
  inRange := fun record => record.timestamp.property

/-- `RecordType::from_wal_record` -/
def recordType (record : StorageRecord Price) : RecordType :=
  match record.fields with
  | .AccountOpen => .AccountOpen
  | .AccountUpdate => .AccountUpdate
  | .UserRegister => .UserRegister
  | .AccountBind => .AccountBind
  | .UserRoleUpdate => .UserRoleUpdate
  | .OrderInsert .. => .OrderInsert
  | .TradeExecuted _ => .TradeExecuted
  | .TickData .. => .TickData
  | .OrderBookSnapshot .. => .OrderBookSnapshot
  | .OrderBookDelta .. => .OrderBookDelta
  | .KLineFinished .. => .KLineFinished
  | .ExchangeOrderRecord .. => .ExchangeOrderRecord
  | .ExchangeTradeRecord .. => .ExchangeTradeRecord
  | .ExchangeResponseRecord _ => .ExchangeResponseRecord
  | .FactorUpdate _ => .FactorUpdate
  | .FactorSnapshot => .FactorSnapshot
  | .OrderStatusUpdate => .OrderStatusUpdate
  | .PositionSnapshot => .PositionSnapshot
  | .AccountSnapshot => .AccountSnapshot
  | .Checkpoint => .Checkpoint

/-- The text of the array without its filling, unless it is empty. -/
def instrumentText (instrumentId : FixedArray 16) : Option String :=
  match String.fromUTF8? ⟨instrumentId.bytes.toArray⟩ with
  | some text =>
    if Ipc.trimEndZeros text = "" then none else some (Ipc.trimEndZeros text)
  | none => none

def extractInstrumentId (record : StorageRecord Price) : Option String :=
  match record.fields with
  | .OrderInsert instrumentId _ => instrumentText instrumentId
  | .TickData instrumentId _ => instrumentText instrumentId
  | .OrderBookSnapshot instrumentId _ => instrumentText instrumentId
  | .OrderBookDelta instrumentId _ => instrumentText instrumentId
  | .KLineFinished instrumentId _ => instrumentText instrumentId
  | .FactorUpdate instrumentId => instrumentText instrumentId
  | .ExchangeOrderRecord instrument _ => instrumentText instrument
  | .ExchangeTradeRecord instrument _ => instrumentText instrument
  | .ExchangeResponseRecord instrument => instrumentText instrument
  | _ => none

def extractPrice (record : StorageRecord Price) : Option Price :=
  match record.fields with
  | .OrderInsert _ price => some price
  | .TradeExecuted price => some price
  | .TickData _ lastPrice => some lastPrice
  | .OrderBookSnapshot _ lastPrice => some lastPrice
  | .OrderBookDelta _ price => some price
  | .KLineFinished _ close => some close
  | .ExchangeOrderRecord _ price => some price
  | .ExchangeTradeRecord _ dealPrice => some dealPrice
  | _ => none

end StorageRecord

/-! ## Filters -/

structure QueryFilter (Price : Type) where
  timeRange : Option (ℤ × ℤ)
  recordTypes : RecordTypeSet
  instruments : Option (List String)
  priceRange : Option (Price × Price)
  limit : Option ℕ
  offset : ℕ

namespace QueryFilter

variable {Price : Type}

def default : QueryFilter Price where
  timeRange := none
  recordTypes := .ALL
  instruments := none
  priceRange := none
  limit := none
  offset := 0

def klines : QueryFilter Price :=
  { default with recordTypes := RecordTypeSet.EMPTY.insert .KLineFinished }

def bounds (filter : QueryFilter Price) : ℤ × ℤ := filter.timeRange.getD (-2 ^ 63, 2 ^ 63 - 1)

def page (offset : ℕ) (limit : Option ℕ) (filter : QueryFilter Price) : QueryFilter Price :=
  { filter with offset := offset, limit := limit }

def inTime (timestamp : ℤ) (filter : QueryFilter Price) : Bool :=
  match filter.timeRange with
  | some range => range.1 ≤ timestamp ∧ timestamp ≤ range.2
  | none => true

/-- A record without an instrument is not rejected. -/
def inInstruments (instrumentId : Option String) (filter : QueryFilter Price) : Bool :=
  match filter.instruments, instrumentId with
  | some instruments, some instrumentId => instrumentId ∈ instruments
  | _, _ => true

variable [LE Price] [DecidableLE Price]

/-- A record without a price is not rejected. -/
def inPrices (price : Option Price) (filter : QueryFilter Price) : Bool :=
  match filter.priceRange, price with
  | some range, some price => range.1 ≤ price ∧ price ≤ range.2
  | _, _ => true

/-- `matches` -/
def matchesRecord (record : StorageRecord Price) (timestamp : ℤ) (filter : QueryFilter Price) : Bool :=
  filter.inTime timestamp && filter.recordTypes.contains record.recordType &&
    filter.inInstruments record.extractInstrumentId && filter.inPrices record.extractPrice

end QueryFilter

end QAExchange
