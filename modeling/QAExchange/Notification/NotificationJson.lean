import QAExchange.Foundation.JsonText
import QAExchange.Notification.NotificationBroker

/-! # Notifications as JSON

The texts of the notifications are put together by format strings, which escape nothing.
-/

namespace QAExchange

open Foundation

def NotificationType.asStr : NotificationType → String
  | .OrderAccepted => "order_accepted"
  | .OrderRejected => "order_rejected"
  | .OrderPartiallyFilled => "order_partially_filled"
  | .OrderFilled => "order_filled"
  | .OrderCanceled => "order_canceled"
  | .OrderExpired => "order_expired"
  | .TradeExecuted => "trade_executed"
  | .TradeCanceled => "trade_canceled"
  | .AccountOpen => "account_open"
  | .AccountUpdate => "account_update"
  | .PositionUpdate => "position_update"
  | .PositionProfit => "position_profit"
  | .RiskAlert => "risk_alert"
  | .MarginCall => "margin_call"
  | .PositionLimit => "position_limit"
  | .SystemNotice => "system_notice"
  | .TradingSessionStart => "trading_session_start"
  | .TradingSessionEnd => "trading_session_end"
  | .MarketHalt => "market_halt"

namespace NotificationMessage

/-- A finite number as `format!` writes it. -/
structure Number where
  lexeme : List Char
  isNumber : IsNumber lexeme

inductive NotificationPayload
  | OrderAccepted (orderId exchangeOrderId instrumentId direction offset : String)
      (price volume : Number) (orderType : String) (frozenMargin timestamp : Number)
  | OrderRejected (orderId instrumentId reason : String) (errorCode timestamp : Number)
  | OrderPartiallyFilled (orderId exchangeOrderId instrumentId : String)
      (filledVolume remainingVolume averagePrice timestamp : Number)
  | OrderFilled (orderId exchangeOrderId instrumentId : String)
      (filledVolume averagePrice timestamp : Number)
  | OrderCanceled (orderId exchangeOrderId instrumentId reason : String) (timestamp : Number)
  | TradeExecuted (tradeId orderId exchangeOrderId instrumentId direction offset : String)
      (price volume commission : Number) (fillType : String) (timestamp : Number)
  | AccountOpen (accountId userId accountName : String) (initCash accountType timestamp : Number)
  | AccountUpdate (userId : String)
      (balance available frozen margin positionProfit closeProfit riskRatio timestamp : Number)
  | PositionUpdate (userId instrumentId : String)
      (volumeLong volumeShort costLong costShort profitLong profitShort timestamp : Number)
  | RiskAlert (userId alertType severity message : String) (riskRatio : Number)
      (suggestion : String) (timestamp : Number)
  | MarginCall (userId : String) (currentMargin requiredMargin deadline : Number)
      (message : String) (timestamp : Number)
  | SystemNotice (title content level : String) (timestamp : Number)

structure Notification where
  messageId : String
  messageType : NotificationType
  userId : String
  priority : Number
  payload : NotificationPayload
  timestamp : Number
  source : String

def text (name content : String) : String × JsonField := (name, .text content)

def number (name : String) (number : Number) : String × JsonField :=
  (name, .number number.lexeme number.isNumber)

namespace NotificationPayload

/-- The members of each kind, but for the timestamp, which comes last. -/
def fields : NotificationPayload → List (String × JsonField)
  | .OrderAccepted orderId exchangeOrderId instrumentId direction offset price volume orderType
      frozenMargin _ =>
      [text "type" "order_accepted", text "order_id" orderId,
        text "exchange_order_id" exchangeOrderId, text "instrument_id" instrumentId,
        text "direction" direction, text "offset" offset, number "price" price,
        number "volume" volume, text "order_type" orderType, number "frozen_margin" frozenMargin]
  | .OrderRejected orderId instrumentId reason errorCode _ =>
    [text "type" "order_rejected", text "order_id" orderId, text "instrument_id" instrumentId,
      text "reason" reason, number "error_code" errorCode]
  | .OrderPartiallyFilled orderId exchangeOrderId instrumentId filledVolume remainingVolume
      averagePrice _ =>
      [text "type" "order_partially_filled", text "order_id" orderId,
        text "exchange_order_id" exchangeOrderId, text "instrument_id" instrumentId,
        number "filled_volume" filledVolume, number "remaining_volume" remainingVolume,
        number "average_price" averagePrice]
  | .OrderFilled orderId exchangeOrderId instrumentId filledVolume averagePrice _ =>
    [text "type" "order_filled", text "order_id" orderId, text "exchange_order_id" exchangeOrderId,
      text "instrument_id" instrumentId, number "filled_volume" filledVolume,
      number "average_price" averagePrice]
  | .OrderCanceled orderId exchangeOrderId instrumentId reason _ =>
    [text "type" "order_canceled", text "order_id" orderId,
      text "exchange_order_id" exchangeOrderId, text "instrument_id" instrumentId,
      text "reason" reason]
  | .TradeExecuted tradeId orderId exchangeOrderId instrumentId direction offset price volume
      commission fillType _ =>
      [text "type" "trade_executed", text "trade_id" tradeId, text "order_id" orderId,
        text "exchange_order_id" exchangeOrderId, text "instrument_id" instrumentId,
        text "direction" direction, text "offset" offset, number "price" price,
        number "volume" volume, number "commission" commission, text "fill_type" fillType]
  | .AccountOpen accountId userId accountName initCash accountType _ =>
    [text "type" "account_open", text "account_id" accountId, text "user_id" userId,
      text "account_name" accountName, number "init_cash" initCash,
      number "account_type" accountType]
  | .AccountUpdate userId balance available frozen margin positionProfit closeProfit riskRatio _ =>
    [text "type" "account_update", text "user_id" userId, number "balance" balance,
      number "available" available, number "frozen" frozen, number "margin" margin,
      number "position_profit" positionProfit, number "close_profit" closeProfit,
      number "risk_ratio" riskRatio]
  | .PositionUpdate userId instrumentId volumeLong volumeShort costLong costShort profitLong
      profitShort _ =>
      [text "type" "position_update", text "user_id" userId, text "instrument_id" instrumentId,
        number "volume_long" volumeLong, number "volume_short" volumeShort,
        number "cost_long" costLong, number "cost_short" costShort, number "profit_long" profitLong,
        number "profit_short" profitShort]
  | .RiskAlert userId alertType severity message riskRatio suggestion _ =>
    [text "type" "risk_alert", text "user_id" userId, text "alert_type" alertType,
      text "severity" severity, text "message" message, number "risk_ratio" riskRatio,
      text "suggestion" suggestion]
  | .MarginCall userId currentMargin requiredMargin deadline message _ =>
    [text "type" "margin_call", text "user_id" userId, number "current_margin" currentMargin,
      number "required_margin" requiredMargin, number "deadline" deadline, text "message" message]
  | .SystemNotice title content level _ =>
    [text "type" "system_notice", text "title" title, text "content" content, text "level" level]

def timestamp : NotificationPayload → Number
  | .OrderAccepted _ _ _ _ _ _ _ _ _ timestamp
  | .OrderRejected _ _ _ _ timestamp
  | .OrderPartiallyFilled _ _ _ _ _ _ timestamp
  | .OrderFilled _ _ _ _ _ timestamp
  | .OrderCanceled _ _ _ _ timestamp
  | .TradeExecuted _ _ _ _ _ _ _ _ _ _ timestamp
  | .AccountOpen _ _ _ _ _ timestamp
  | .AccountUpdate _ _ _ _ _ _ _ _ timestamp
  | .PositionUpdate _ _ _ _ _ _ _ _ timestamp
  | .RiskAlert _ _ _ _ _ _ timestamp
  | .MarginCall _ _ _ _ _ timestamp
  | .SystemNotice _ _ _ timestamp => timestamp

def toJson (payload : NotificationPayload) : List Char :=
  '\x7b' :: writeFields payload.fields
    (namedText "timestamp" (payload.timestamp.lexeme ++ ['\x7d']))

def value (payload : NotificationPayload) : Json :=
  .object (payload.fields.map (fun field => (field.1.toList, field.2.value)) ++
    [("timestamp".toList, .number payload.timestamp.lexeme)])

theorem plainName_fields (payload : NotificationPayload) :
    ∀ field ∈ payload.fields, PlainName field.1 := by
  cases payload <;>
    simp only [fields, text, number, List.forall_mem_cons, List.not_mem_nil,
      IsEmpty.forall_iff, implies_true] <;> decide +kernel

theorem readsValue_toJson_iff (payload : NotificationPayload) :
    ReadsValue (payload.toJson ++ ['\x7d']) payload.value rest ↔
      (∀ field ∈ payload.fields, field.2.Plain) ∧ rest = ['\x7d'] := by
  rw [toJson, List.cons_append, writeFields_append, value, readsValue_object_iff]
  refine (readsMembers_writeFields_iff payload.plainName_fields (List.cons_ne_nil _ _)).trans
    (and_congr_right fun _ => ?_)
  have number : ∀ {after}, ReadsValue (payload.timestamp.lexeme ++ ['\x7d'] ++ ['\x7d'])
      (.number payload.timestamp.lexeme) after ↔ after = ['\x7d', '\x7d'] := by
    rw [List.append_assoc]
    exact readsValue_number_iff payload.timestamp.isNumber
  have name : PlainName "timestamp" := by decide
  refine (readsMembers_last_iff name).trans ?_
  constructor
  · rintro ⟨after, reads, brace⟩
    rw [number.mp reads] at brace
    exact ((skips_cons_iff (by decide)).mp brace).2.symm
  · rintro rfl
    exact ⟨_, number.mpr rfl, [], by simp, rfl⟩

end NotificationPayload

namespace Notification

/-- The members but for the payload, which comes last. -/
def fields (notification : Notification) : List (String × JsonField) :=
  [text "message_id" notification.messageId,
    text "message_type" notification.messageType.asStr,
    text "user_id" notification.userId, number "priority" notification.priority,
    number "timestamp" notification.timestamp, text "source" notification.source]

def toJson (notification : Notification) : List Char :=
  '\x7b' :: writeFields notification.fields
    (namedText "payload" (notification.payload.toJson ++ ['\x7d']))

def value (notification : Notification) : Json :=
  .object (notification.fields.map (fun field => (field.1.toList, field.2.value)) ++
    [("payload".toList, notification.payload.value)])

theorem plainName_fields (notification : Notification) :
    ∀ field ∈ notification.fields, PlainName field.1 := by
  simp only [fields, text, number, List.forall_mem_cons, List.not_mem_nil,
    IsEmpty.forall_iff, implies_true]
  decide +kernel

theorem readsValue_toJson_iff (notification : Notification) :
    ReadsValue notification.toJson notification.value rest ↔
      (∀ field ∈ notification.fields, field.2.Plain) ∧
        ReadsMembers (namedText "payload" (notification.payload.toJson ++ ['\x7d']))
          [("payload".toList, notification.payload.value)] rest :=
  readsValue_object_iff.trans
    (readsMembers_writeFields_iff notification.plainName_fields (List.cons_ne_nil _ _))

theorem plain_of_readsJson {notification : Notification}
    (reads : ReadsJson notification.toJson notification.value) :
    (∀ field ∈ notification.fields, field.2.Plain) ∧
      ∀ field ∈ notification.payload.fields, field.2.Plain := by
  rcases reads with ⟨rest, reads, _⟩
  rcases notification.readsValue_toJson_iff.mp reads with ⟨plain, last⟩
  rcases (readsMembers_last_iff (by decide)).mp last with ⟨after, payload, _⟩
  exact ⟨plain, (notification.payload.readsValue_toJson_iff.mp payload).1⟩

/-- The text says what it is to say exactly if no text field has a quote, a backslash or a control
character. -/
theorem readsJson_toJson_iff (notification : Notification) :
    ReadsJson notification.toJson notification.value ↔
      (∀ field ∈ notification.fields, field.2.Plain) ∧
        ∀ field ∈ notification.payload.fields, field.2.Plain := by
  refine ⟨plain_of_readsJson, ?_⟩
  rintro ⟨plain, payload⟩
  refine ⟨[], notification.readsValue_toJson_iff.mpr
    ⟨plain, (readsMembers_last_iff (by decide)).mpr ?_⟩, [], by simp, rfl⟩
  exact ⟨_, notification.payload.readsValue_toJson_iff.mpr ⟨payload, rfl⟩, [], by simp, rfl⟩

def zero : Number :=
  ⟨['0'], [], ['0'], [], [], rfl, .inl rfl, ⟨by decide, List.forall_mem_singleton.mpr rfl⟩,
    fun _ => rfl, .inl rfl, .inl rfl⟩

def quotedReason : Notification where
  messageId := "m1"
  messageType := .OrderRejected
  userId := "user1"
  priority := zero
  payload := .OrderRejected "O1" "IX2401" "price \"100\" is out of range" zero zero
  timestamp := zero
  source := "MatchingEngine"

theorem quotedReason_not_read :
    ¬ ∀ notification : Notification, ReadsJson notification.toJson notification.value := by
  intro claim
  have plain := (plain_of_readsJson (claim quotedReason)).2
    (text "reason" "price \"100\" is out of range") (by simp [quotedReason,
      NotificationPayload.fields])
  have quoted : '\x22' ∈ "price \"100\" is out of range".toList := by simp
  exact absurd rfl (plain '\x22' quoted).1

end Notification

end NotificationMessage

end QAExchange
