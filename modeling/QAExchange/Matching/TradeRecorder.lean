import Mathlib.Data.List.AList
import QAExchange.Common

/-! # Trade recorder

The recorder of all trades. Its trade ids are numbered, and the structure
carries the fact that no number at or above the next one is in use.
-/

namespace QAExchange

open Foundation

structure TradeRecord where
  tradeId : String
  instrumentId : String
  buyUserId : String
  sellUserId : String
  buyOrderId : String
  sellOrderId : String
  takerOrderId : String
  price : ℚ
  volume : ℚ
  timestamp : ℤ
  tradingDay : String

/-- `T{:016}` -/
def tradeRecordId (sequence : ℕ) : String := "T" ++ padded 16 sequence

theorem tradeRecordId_injective : Function.Injective tradeRecordId := by
  intro left right equal
  exact padded_injective 16 ((String.append_right_inj "T").mp equal)

structure TradeRecorder where
  trades : AList fun _ : String => TradeRecord
  byInstrument : String → List String
  byUser : String → List String
  sequence : ℕ
  trades_below : ∀ tradeId ∈ trades, ∃ number < sequence, tradeId = tradeRecordId number

namespace TradeRecorder

theorem next_not_mem (recorder : TradeRecorder) :
    tradeRecordId recorder.sequence ∉ recorder.trades := by
  intro member
  rcases recorder.trades_below _ member with ⟨number, below, same⟩
  exact absurd (tradeRecordId_injective same) below.ne'

/-- `record_trade`, with the clock reading of its timestamp. -/
def recordTrade (now : Now) (instrumentId buyUserId sellUserId buyOrderId sellOrderId
    takerOrderId : String) (price volume : ℚ) (tradingDay : String)
    (recorder : TradeRecorder) : TradeRecorder :=
  let tradeId := tradeRecordId recorder.sequence
  let record : TradeRecord :=
    { tradeId, instrumentId, buyUserId, sellUserId, buyOrderId, sellOrderId, takerOrderId,
      price, volume, timestamp := now.nanos, tradingDay }
  let buyer := Function.update recorder.byUser buyUserId (recorder.byUser buyUserId ++ [tradeId])
  { trades := recorder.trades.insert tradeId record
    byInstrument := Function.update recorder.byInstrument instrumentId
      (recorder.byInstrument instrumentId ++ [tradeId])
    byUser := Function.update buyer sellUserId (buyer sellUserId ++ [tradeId])
    sequence := recorder.sequence + 1
    trades_below := by
      intro other member
      rcases AList.mem_insert _ |>.mp member with rfl | member
      · exact ⟨recorder.sequence, Nat.lt_succ_self _, rfl⟩
      · rcases recorder.trades_below other member with ⟨number, below, same⟩
        exact ⟨number, below.trans (Nat.lt_succ_self _), same⟩ }

/-- `get_all_trades` -/
def getAllTrades (recorder : TradeRecorder) : List TradeRecord :=
  recorder.trades.entries.map Sigma.snd

theorem getAllTrades_recordTrade (now : Now) (instrumentId buyUserId sellUserId buyOrderId
    sellOrderId takerOrderId : String) (price volume : ℚ) (tradingDay : String)
    (recorder : TradeRecorder) :
    (recordTrade now instrumentId buyUserId sellUserId buyOrderId sellOrderId takerOrderId
      price volume tradingDay recorder).getAllTrades =
    { tradeId := tradeRecordId recorder.sequence, instrumentId, buyUserId, sellUserId,
      buyOrderId, sellOrderId, takerOrderId, price, volume, timestamp := now.nanos,
      tradingDay } :: recorder.getAllTrades := by
  simp only [getAllTrades, recordTrade, AList.entries_insert_of_notMem recorder.next_not_mem,
    List.map_cons]

end TradeRecorder

end QAExchange
