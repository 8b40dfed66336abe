import QAExchange.Qars

/-! # Messages between the processes

The fixed-size messages of matching engine, account system and gateway. Texts are
byte arrays that are filled up with zeros.
-/

namespace QAExchange.Ipc

/-- `trim_end_matches('\0')` -/
def trimEndZeros (text : String) : String :=
  String.ofList (text.toList.reverse.dropWhile fun char => char = Char.ofNat 0).reverse

/-- `from_utf8(bytes).unwrap_or("").trim_end_matches('\0')` -/
def text (bytes : List UInt8) : String :=
  trimEndZeros ((String.fromUTF8? ⟨bytes.toArray⟩).getD "")

/-- The bytes of a text, cut off or filled up with zeros to `size`. -/
def fixedBytes (size : ℕ) (text : String) : List UInt8 :=
  let bytes := text.toUTF8.data.toList.take size
  bytes ++ List.replicate (size - bytes.length) 0

example : text (fixedBytes 32 "IX2401") = "IX2401" := by decide +kernel

structure OrderRequest where
  orderId : List UInt8
  userId : List UInt8
  instrumentId : List UInt8
  /-- 0 is BUY, 1 is SELL. -/
  direction : UInt8
  offset : UInt8
  price : ℚ
  volume : ℚ
  timestamp : ℤ
  gatewayId : ℕ
  sessionId : ℕ

structure TradeReport where
  tradeId : List UInt8
  orderId : List UInt8
  exchangeOrderId : List UInt8
  userId : List UInt8
  instrumentId : List UInt8
  direction : UInt8
  offset : UInt8
  /-- 0 is a complete fill, 1 a partial one. -/
  fillType : UInt8
  price : ℚ
  volume : ℚ
  commission : ℚ
  timestamp : ℤ
  oppositeOrderId : List UInt8
  gatewayId : ℕ
  sessionId : ℕ
  deriving DecidableEq

structure OrderAccepted where
  orderId : List UInt8
  exchangeOrderId : List UInt8
  userId : List UInt8
  instrumentId : List UInt8
  timestamp : ℤ
  gatewayId : ℕ
  sessionId : ℕ

end QAExchange.Ipc
