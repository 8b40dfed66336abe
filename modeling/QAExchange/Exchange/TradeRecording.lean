import QAExchange.Exchange.ReferenceExchange

/-! # The trade records of an incoming order

Only fills that are handled as the taker's go to the trade recorder, and only
the first fill of an incoming order is handled as the taker's. So an order that
meets several resting orders leaves one record.
-/

namespace QAExchange

open Foundation Action ReferenceExchange

variable {Q : Qars}

structure Party where
  userId : String
  orderId : String
  deriving DecidableEq

@[ext]
structure RecordedTrade where
  instrumentId : String
  buyer : Party
  seller : Party
  takerOrderId : String
  price : ℚ
  volume : ℚ
  deriving DecidableEq

def TradeRecord.recorded (record : TradeRecord) : RecordedTrade where
  instrumentId := record.instrumentId
  buyer := ⟨record.buyUserId, record.buyOrderId⟩
  seller := ⟨record.sellUserId, record.sellOrderId⟩
  takerOrderId := record.takerOrderId
  price := record.price
  volume := record.volume

def takerFills (id : ℕ) (events : List Success) : List Fill :=
  (events.filterMap Success.fill?).filter fun fill => fill.orderId = id

def matchRecord (order : Order) (taker maker : Party) (fill : Fill) : RecordedTrade where
  instrumentId := order.instrumentId
  buyer := if order.direction = "BUY" then taker else maker
  seller := if order.direction = "BUY" then maker else taker
  takerOrderId := taker.orderId
  price := fill.price
  volume := fill.volume

/-- Every match of an incoming order has its two fills among the events. -/
theorem Matches.takerFills_pair {taker : ℕ} {left : ℕ → ℚ} {takerFill makerFill : Fill}
    (isTaker : takerFill.orderId = taker) (differs : makerFill.orderId ≠ taker)
    (rest : List Success) :
    takerFills taker (takerFill.report (left taker) ::
      makerFill.report (left makerFill.orderId) :: rest) = takerFill :: takerFills taker rest := by
  simp [takerFills, isTaker, differs]

namespace TradeGateway

theorem handleTradeNew_keeps_recorder (now : Now) {trade : TradeParams}
    (resting : trade.isTaker = false) :
    Keeps tradeRecorder (handleTradeNew (Q := Q) now trade) := by
  have ofSinks : ∀ {α : Type} {action : Work Q α}, Keeps sinks action →
      Keeps tradeRecorder action := fun kept => kept.comp Sinks.recorder
  have wal : ∀ {action : Action ExchangeError WalLogs Unit},
      Keeps tradeRecorder (onWal (Q := Q) action) := fun _ => rfl
  refine .bind (ofSinks (nextSequence_keeps_sinks _)) fun tradeId =>
    .bind (.bind wal fun _ => .bind wal fun _ => .bind ?_ fun _ =>
      .bind (.update fun _ => rfl) fun _ => .bind ?_ fun volumeLeft => ?_) fun _ => .pure _ _
  · rw [recordTaker, resting]
    exact .pure _ _
  · exact .bind (ofSinks (updateAccount_keeps_sinks _ _ _ _ _ _ _ _)) fun _ =>
      .bind (.update fun _ => rfl) fun _ => .pure _ _
  · exact .bind (.read _ _) fun _ => .bind (ofSinks writeOrderStatusUpdate_keeps_sinks) fun _ =>
      .bind (ofSinks (emitTradeNotification_keeps_sinks _ _)) fun _ =>
        ofSinks (pushAccountUpdate_keeps_sinks now _)

end TradeGateway

namespace OrderRouter

abbrev recorder (router : OrderRouter Q) : Option TradeRecorder := router.tradeGateway.tradeRecorder

theorem gateway_keeps_recorder {action : Action ExchangeError (TradeGateway Q) α}
    (kept : Keeps TradeGateway.tradeRecorder action) : Keeps recorder (gateway action) :=
  kept.onPart_inside fun _ _ => rfl

theorem handleFill_keeps_recorder (now : Now) (orderId : String) (order : Order) (fill : Fill)
    (change : OrderRouteInfo → OrderRouteInfo) :
    Keeps recorder (handleFill (Q := Q) now orderId order fill false change) := by
  intro router
  let middle := updateTradeStats fill.price fill.volume (modifyRoute orderId change router)
  have told : Keeps recorder (gateway (Q := Q) (TradeGateway.handleTradeNew now
      (tradeParams orderId order fill false middle))) :=
    gateway_keeps_recorder (TradeGateway.handleTradeNew_keeps_recorder now rfl)
  have rest : Keeps recorder ((gateway (Q := Q) (TradeGateway.handleTradeNew now
      (tradeParams orderId order fill false middle))) >>= fun _ => pure ()) :=
    .bind told fun _ => .pure _ _
  exact rest middle

theorem handleLaterFill_keeps_recorder (now : Now) {success : Success}
    (isFill : success.fill? = some fill) :
    Keeps recorder (handleLaterFill (Q := Q) now success fill) := by
  refine .bind (.read _ _) fun found => ?_
  cases found with
  | none => exact .pure _ _
  | some makerOrderId =>
    refine .bind (.read _ _) fun known => ?_
    cases known with
    | none => exact .pure _ _
    | some makerInfo =>
      cases success <;> simp only [Success.fill?, reduceCtorEq, Option.some.injEq] at isFill
      · exact .bind (handleFill_keeps_recorder _ _ _ _ _) fun _ => .update fun _ => rfl
      · exact handleFill_keeps_recorder _ _ _ _ _

theorem laterFills_keep_recorder (now : Now) (orderId : String) (order : Order)
    {events : List Success} (fills : ∀ success ∈ events, success.fill?.isSome = true)
    {handled : Handled} (later : handled.trade = true) :
    Keeps recorder ((events.map .ok).foldlM (processResult (Q := Q) now orderId order) handled) := by
  induction events with
  | nil => exact .pure _ _
  | cons success events induction =>
    rcases Option.isSome_iff_exists.mp (fills success List.mem_cons_self) with ⟨fill, isFill⟩
    have rest := induction fun other member => fills other (List.mem_cons_of_mem _ member)
    have step : processResult (Q := Q) now orderId order handled (.ok success) =
        update (takeUp order.instrumentId success) >>= fun _ =>
          handleLaterFill now success fill >>= fun _ => pure handled := by
      cases success <;> simp only [Success.fill?, reduceCtorEq, Option.some.injEq] at isFill <;>
        subst isFill <;> simp only [processResult, later, if_true]
    rw [List.map_cons, List.foldlM_cons, step]
    simp only [bind_assoc, pure_bind]
    exact .bind (.update fun _ => rfl) fun _ =>
      .bind (handleLaterFill_keeps_recorder now isFill) fun _ => rest

/-! ## The record of the first match -/

/-- Whose order an engine id names, as the reverse indexes answer. The gateway
replaces a missing user by the taker's. -/
def resolve (router : OrderRouter Q) (order : Order) (id : ℕ) : Party where
  userId := (router.engineIdToUser id).getD order.userId
  orderId := (router.engineIdToOrder id).getD ("opposite_" ++ toString (id : ℤ))

theorem recorded_recordTrade (now : Now) (orderId : String) {order : Order} (fill : Fill)
    (router : OrderRouter Q) (valid : order.direction = "BUY" ∨ order.direction = "SELL")
    (recorder : TradeRecorder) : ∃ record,
    (TradeGateway.recordTrade now (tradeParams orderId order fill true router)
      recorder).getAllTrades = record :: recorder.getAllTrades ∧
    record.recorded = matchRecord order ⟨order.userId, orderId⟩
      (router.resolve order fill.oppositeOrderId) fill := by
  refine ⟨_, TradeRecorder.getAllTrades_recordTrade .., ?_⟩
  rcases valid with direction | direction <;>
    simp [TradeRecord.recorded, matchRecord, TradeGateway.tradeUsers, TradeGateway.tradeOrders,
      tradeParams, direction, resolve]

variable {users : Set String} {router : OrderRouter Q} {order : Order} {id : ℕ}
  {left left' : ℕ → ℚ} {events : List Success}

theorem exists_record (now : Now) (orderId : String) (ready : router.tradeGateway.Ready users)
    (sound : Sound users order) {recorder : TradeRecorder}
    (installed : router.recorder = some recorder) (orderType : OrderType) (ts : ℤ)
    (matched : Matches id left events left') (some : events ≠ []) :
    ∃ first rest recorder' record, takerFills id events = first :: rest ∧
      (exec (processMatchingResults now orderId order
        ((Success.Accepted id orderType ts :: events).map .ok)) router).2.recorder =
          Option.some recorder' ∧
      recorder'.getAllTrades = record :: recorder.getAllTrades ∧
      record.recorded = matchRecord order ⟨order.userId, orderId⟩
        (router.resolve order first.oppositeOrderId) first := by
  have valid : order.direction = "BUY" ∨ order.direction = "SELL" := by
    rcases sound.towards with ⟨towards, known⟩
    unfold towardsOf at known
    split at known <;> simp_all
  cases matched with
  | done => exact absurd rfl some
  | @pair _ _ takerFill makerFill events opposed isTaker differs _ _ _ rest =>
    rcases exec_processResult_own now orderId sound Handled.none ⟨true, false⟩
      (.Accepted id orderType ts) (.inl ⟨rfl, rfl, rfl⟩) ready with
      ⟨accepting, ranAccepted, acceptingReady, acceptingTold⟩
    let accepted := applyReport orderId order
      (order.instrumentId, .Accepted id orderType ts) accepting router
    have acceptedReady : accepted.tradeGateway.Ready users := acceptingReady
    have isFill : (takerFill.report (left id)).fill?.isSome = true := by
      rw [Fill.fill?_report]
      rfl
    rcases exec_processResult_own now orderId sound ⟨true, false⟩ ⟨true, true⟩
      (takerFill.report (left id)) (.inr ⟨isFill, rfl, rfl⟩) acceptedReady with
      ⟨trading, ranFirst, _, told⟩
    -- the recorder before and after the first fill
    have before : accepting.tradeRecorder = Option.some recorder :=
      (congrArg TradeGateway.Sinks.recorder acceptingTold).trans installed
    have after : trading.tradeRecorder = Option.some (TradeGateway.recordTrade now
        (tradeParams orderId order takerFill true
          (takeUp order.instrumentId (takerFill.report (left id)) accepted)) recorder) := by
      unfold Told at told
      rw [Fill.fill?_report] at told
      rcases told with ⟨tradeId, told⟩
      have recorded := congrArg TradeGateway.Sinks.recorder told
      simp only [TradeGateway.Sinks.trade, tradeParams, if_true] at recorded
      refine recorded.trans ?_
      rw [show (takeUp order.instrumentId (takerFill.report (left id))
        accepted).tradeGateway.sinks.recorder = accepting.tradeRecorder from rfl, before]
      rfl
    have unknown : takerFill.oppositeOrderId ≠ id := by
      rw [opposed.opposite]
      exact differs
    have same : (takeUp order.instrumentId (takerFill.report (left id)) accepted).resolve order
        takerFill.oppositeOrderId = router.resolve order takerFill.oppositeOrderId := by
      simp [resolve, takeUp, accepted, applyReport, setGateway, settleEvent, modifyRoute,
        registerEngineId, Function.update_of_ne unknown]
    rcases recorded_recordTrade now orderId takerFill (takeUp order.instrumentId
      (takerFill.report (left id)) accepted) valid recorder with ⟨record, added, content⟩
    rw [same] at content
    refine ⟨takerFill, takerFills id events, _, record,
      Matches.takerFills_pair isTaker differs events, ?_, added, content⟩
    have fills : ∀ success ∈ makerFill.report (left makerFill.orderId) :: events,
        success.fill?.isSome = true := by
      simpa using rest.isSome_fill
    rw [processMatchingResults, List.map_cons, List.map_cons, List.foldlM_cons, bind_assoc,
      exec_bind_ok ranAccepted, List.foldlM_cons, bind_assoc, exec_bind_ok ranFirst]
    have final : Keeps OrderRouter.recorder (((makerFill.report (left makerFill.orderId) :: events).map
        .ok).foldlM (processResult (Q := Q) now orderId order) ⟨true, true⟩ >>= fun _ =>
          (pure () : Work Q Unit)) :=
      .bind (laterFills_keep_recorder now orderId order fills rfl) fun _ => .pure _ _
    exact (final _).trans after

def OneRecordEach (expected : Fill → RecordedTrade) (matched : List Fill)
    (before after : Option TradeRecorder) : Prop :=
  ∀ recorder ∈ before, ∃ recorder' ∈ after, ∃ records,
    recorder'.getAllTrades.Perm (records ++ recorder.getAllTrades) ∧
      (records.map TradeRecord.recorded).Perm (matched.map expected)

theorem oneRecordEach_iff {recorder recorder' : TradeRecorder}
    (added : recorder'.getAllTrades = record :: recorder.getAllTrades) :
    OneRecordEach expected matched (some recorder) (some recorder') ↔
      matched.map expected = [record.recorded] := by
  constructor
  · intro each
    rcases each recorder rfl with ⟨_, isAfter, records, all, same⟩
    obtain rfl := Option.some.inj isAfter
    rw [added, ← List.singleton_append, List.perm_append_right_iff, List.singleton_perm] at all
    rw [← all, List.map_singleton, List.singleton_perm] at same
    exact same.symm
  · intro same _ isBefore
    obtain rfl := Option.some.inj isBefore
    refine ⟨recorder', rfl, [record], ?_, ?_⟩
    · rw [added]
      exact .refl _
    · rw [same]
      exact .refl _

theorem matchRecord_inj :
    matchRecord order taker maker fill = matchRecord order taker maker' fill ↔ maker = maker' := by
  refine ⟨fun same => ?_, fun same => by rw [same]⟩
  by_cases buys : order.direction = "BUY"
  · simpa [matchRecord, buys] using congrArg RecordedTrade.seller same
  · simpa [matchRecord, buys] using congrArg RecordedTrade.buyer same

/-- With at least one match, each match leaves its record exactly if there is
only one and the indexes know whose the resting order is. -/
theorem one_record_each_iff (now : Now) (orderId : String)
    (ready : router.tradeGateway.Ready users) (sound : Sound users order)
    (installed : router.recorder.isSome) (orderType : OrderType) (ts : ℤ)
    (matched : Matches id left events left') (some : events ≠ []) (party : ℕ → Party) :
    OneRecordEach (fun fill => matchRecord order ⟨order.userId, orderId⟩
        (party fill.oppositeOrderId) fill) (takerFills id events) router.recorder
      (exec (processMatchingResults now orderId order
        ((Success.Accepted id orderType ts :: events).map .ok)) router).2.recorder ↔
    ∃ fill, takerFills id events = [fill] ∧
      router.resolve order fill.oppositeOrderId = party fill.oppositeOrderId := by
  rcases Option.isSome_iff_exists.mp installed with ⟨recorder, installed⟩
  rcases exists_record now orderId ready sound installed orderType ts matched some with
    ⟨first, rest, recorder', record, fills, after, added, content⟩
  rw [installed, after, oneRecordEach_iff added, fills, content, List.map_cons, List.cons.injEq,
    matchRecord_inj, List.map_eq_nil_iff]
  constructor
  · rintro ⟨same, rfl⟩
    exact ⟨first, rfl, same.symm⟩
  · rintro ⟨fill, only, same⟩
    rw [List.cons.injEq] at only
    obtain ⟨rfl, rfl⟩ := only
    exact ⟨same.symm, rfl⟩

/-- An order of `a` is indexed. -/
def sellerIndexed : OrderRouter referenceQars :=
  registerEngineId 1 "O17000000000000000000001" "a" twoTraders

/-- The order of `b` that meets it. -/
def buyer : Order :=
  newOrder referenceQars clock ⟨"O17000000000000000000002",
    openOrder "b" "X" "BUY" 5 100, false⟩

/-- The fill of the order of `b` and that of the order of `a`. -/
def buyerFill : Fill := ⟨2, .BUY, .Limit, 100, 5, 0, 1⟩

def sellerFill : Fill := ⟨1, .SELL, .Limit, 100, 5, 0, 2⟩

/-- One match leaves its record. -/
theorem one_match_recorded :
    OneRecordEach (fun fill => matchRecord buyer ⟨"b", "O17000000000000000000002"⟩
        ⟨"a", "O17000000000000000000001"⟩ fill) [buyerFill] sellerIndexed.recorder
      (exec (processMatchingResults clock "O17000000000000000000002" buyer
        ([Success.Accepted 2 .Limit 0, buyerFill.report 5, sellerFill.report 5].map .ok))
        sellerIndexed).2.recorder := by
  have ready : sellerIndexed.tradeGateway.Ready {"b"} := by
    refine ⟨fun _ => rfl, ?_⟩
    rintro _ rfl
    exact (by decide +kernel : "b" ∈ sellerIndexed.tradeGateway.accountMgr.accounts)
  have matched : Matches 2 (fun _ => 5) [buyerFill.report 5, sellerFill.report 5] _ :=
    @Matches.pair 2 (fun _ => 5) _ buyerFill sellerFill [] ⟨rfl, rfl, rfl, rfl⟩ rfl (by decide)
      (by decide) (by decide) (by decide) (.done _)
  have only : takerFills 2 [buyerFill.report 5, sellerFill.report 5] = [buyerFill] := by
    decide +kernel
  have recorded := (one_record_each_iff clock "O17000000000000000000002" ready
    (show Sound {"b"} buyer from ⟨rfl, 2, rfl⟩) (by decide +kernel) .Limit 0 matched (by simp)
    fun _ => ⟨"a", "O17000000000000000000001"⟩).mpr ⟨buyerFill, only, by decide +kernel⟩
  rw [only] at recorded
  exact recorded

/-- An order of `b` that meets two orders of `a`. -/
def sellTwiceAndBuy : List (Now × Call) :=
  [(clock, .submit (openOrder "a" "X" "SELL" 2 100)),
   (clock, .submit (openOrder "a" "X" "SELL" 3 100)),
   (clock, .submit (openOrder "b" "X" "BUY" 5 100))]

/-- Its second match is not recorded. -/
theorem second_match_unrecorded :
    let last := runCalls sellTwiceAndBuy twoTraders
    (takerFills 3 (last.reports.map Prod.snd)).map Fill.volume = [2, 3] ∧
      last.recorder.map (fun recorder => recorder.getAllTrades.map TradeRecord.recorded) =
        some [⟨"X", ⟨"b", "O17000000000000000000003"⟩, ⟨"a", "O17000000000000000000001"⟩,
          "O17000000000000000000003", 100, 2⟩] := by
  decide +kernel

end OrderRouter

end QAExchange
