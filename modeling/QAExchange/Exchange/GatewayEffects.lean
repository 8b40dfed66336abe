import QAExchange.Exchange.TradeGateway

/-! # What the gateway's handlers do

On a good disk and with the accounts in the table no handler fails. `Sinks`
collects where a trade is counted: only `handleTradeNew` touches it.
-/

namespace QAExchange.TradeGateway

open Foundation Action WalLogs

variable {Q : Qars}

structure Ready (users : Set String) (gateway : TradeGateway Q) : Prop where
  disk : gateway.wal.DiskOk
  accounts : ∀ user ∈ users, AccountManager.Has user gateway.accountMgr

structure Sinks where
  recorder : Option TradeRecorder
  tradeLog : String → List WalRecord
  feed : Option (List MarketCall)
  deals : List Deal

def sinks (gateway : TradeGateway Q) : Sinks where
  recorder := gateway.tradeRecorder
  tradeLog instrumentId := (gateway.wal.instrument instrumentId).filter WalRecord.isTrade
  feed := gateway.marketDataService
  deals := gateway.deals

/-- The sinks after one `handleTradeNew`. -/
def Sinks.trade (now : Now) (trade : TradeParams) (tradeId : ℤ) (sinks : Sinks) : Sinks where
  recorder := if trade.isTaker then sinks.recorder.map (recordTrade now trade) else sinks.recorder
  tradeLog := Function.update sinks.tradeLog trade.instrumentId
    (sinks.tradeLog trade.instrumentId ++ [tradeRecord now trade tradeId])
  feed := sinks.feed.map (· ++ marketCalls trade)
  deals := sinks.deals ++ [⟨trade.userId, trade.orderId, trade.qaOrderId, trade.price, trade.volume⟩]

variable {users : Set String}

/-! ## The parts of the handlers -/

theorem nextSequence_safe (instrumentId : String) :
    Safe (Ready users) (nextSequence (Q := Q) instrumentId) :=
  .bind (.update fun _ ready => ⟨ready.disk, ready.accounts⟩) fun _ => .read _ _

theorem nextSequence_keeps_sinks (instrumentId : String) :
    Keeps sinks (nextSequence (Q := Q) instrumentId) :=
  .bind (.update fun _ => rfl) fun _ => .read _ _

theorem sendNotification_safe (notification : Notification) :
    Safe (Ready users) (sendNotification (Q := Q) notification) :=
  .update fun _ ready => ⟨ready.disk, ready.accounts⟩

theorem sendNotification_keeps_sinks (notification : Notification) :
    Keeps sinks (sendNotification (Q := Q) notification) :=
  .update fun _ => rfl

variable {instrumentId : String} {record : WalRecord} {gateway : TradeGateway Q}

theorem exec_appendInstrument {failure : String} (good : gateway.wal.DiskOk) :
    exec (onWal (appendInstrument instrumentId record failure)) gateway =
      (.ok (), { gateway with wal := { gateway.wal with
        instrument := Function.update gateway.wal.instrument instrumentId
          (gateway.wal.instrument instrumentId ++ [record])
        appends := gateway.wal.appends + 1 } }) := by
  simp only [onWal, exec_onPart, appendInstrument, exec_append good]

variable {userId : String}

theorem exec_appendAccount {failure : String} (good : gateway.wal.DiskOk) :
    exec (onWal (appendAccount userId record failure)) gateway =
      (.ok (), { gateway with wal := { gateway.wal with
        account := Function.update gateway.wal.account userId
          (gateway.wal.account userId ++ [record])
        appends := gateway.wal.appends + 1 } }) := by
  simp only [onWal, exec_onPart, appendAccount, exec_append good]

theorem appendInstrument_safe (instrumentId : String) (record : WalRecord) (failure : String) :
    Safe (Ready users) (onWal (Q := Q) (appendInstrument instrumentId record failure)) := by
  intro gateway ready
  rw [exec_appendInstrument ready.disk]
  exact ⟨⟨(), rfl⟩, ready.disk, ready.accounts⟩

theorem appendAccount_safe (userId : String) (record : WalRecord) (failure : String) :
    Safe (Ready users) (onWal (Q := Q) (appendAccount userId record failure)) := by
  intro gateway ready
  rw [exec_appendAccount ready.disk]
  exact ⟨⟨(), rfl⟩, ready.disk, ready.accounts⟩

theorem appendAccount_keeps_sinks (userId : String) (record : WalRecord) (failure : String) :
    Keeps sinks (onWal (Q := Q) (appendAccount userId record failure)) := by
  intro gateway
  have kept : Keeps instrument (appendAccount userId record failure) := by
    unfold appendAccount append
    refine .bind (.read _ _) fun result => .bind (.update fun _ => rfl) fun _ => ?_
    cases result with
    | none => exact .update fun _ => rfl
    | some text => exact .fail _ _
  simp only [sinks, onWal, exec_onPart, kept gateway.wal]

theorem appendInstrument_keeps_sinks (other : record.isTrade = false) (instrumentId : String)
    (failure : String) :
    Keeps sinks (onWal (Q := Q) (appendInstrument instrumentId record failure)) := by
  intro gateway
  have kept : Keeps (fun logs instrument => (logs.instrument instrument).filter WalRecord.isTrade)
      (appendInstrument instrumentId record failure) := by
    unfold appendInstrument append
    refine .bind (.read _ _) fun result => .bind (.update fun _ => rfl) fun _ => ?_
    cases result with
    | none =>
      refine .update fun logs => funext fun instrument => ?_
      by_cases same : instrument = instrumentId
      · subst same
        simp [other]
      · simp [Function.update_of_ne same]
    | some text => exact .fail _ _
  exact congrArg (fun log => (⟨gateway.tradeRecorder, log, gateway.marketDataService,
    gateway.deals⟩ : Sinks)) (kept gateway.wal)

theorem getAccount_safe (member : userId ∈ users) :
    Safe (Ready users) (onAccounts (AccountManager.getAccount (Q := Q) userId)) := by
  intro gateway ready
  obtain ⟨account, found⟩ := AccountManager.has_iff.mp (ready.accounts userId member)
  simp only [onAccounts, exec_onPart, AccountManager.exec_getAccount found]
  exact ⟨⟨account, rfl⟩, ready.disk, ready.accounts⟩

theorem getAccount_keeps (userId : String) :
    Keeps id (onAccounts (AccountManager.getAccount (Q := Q) userId)) := by
  intro gateway
  have kept := AccountManager.getAccount_keeps userId gateway.accountMgr
  simp only [id] at kept
  simp only [onAccounts, exec_onPart, kept, id]

theorem putAccount_safe (userId : String) (account : Account Q) :
    Safe (Ready users) (onAccounts (update (AccountManager.putAccount userId account))) := by
  intro gateway ready
  exact ⟨⟨(), rfl⟩, ready.disk,
    fun user member => AccountManager.has_putAccount (ready.accounts user member)⟩

theorem putAccount_keeps_sinks (userId : String) (account : Account Q) :
    Keeps sinks (onAccounts (update (AccountManager.putAccount userId account))) := fun _ => rfl

variable {direction offset : String}

theorem writeOrderStatusUpdate_safe {now : Now} {orderId : String} {status : ℕ}
    {volumeOrign volumeLeft volumeFilled frozen : ℚ} {limitPrice avgPrice : ℚ} {lastMsg : String} :
    Safe (Ready users) (attempt (writeOrderStatusUpdate (Q := Q) now orderId userId instrumentId
      status volumeOrign volumeLeft volumeFilled frozen direction offset limitPrice avgPrice
      lastMsg)) :=
  .attempt fun gateway ready => (appendAccount_safe _ _ _ gateway ready).2

theorem writeOrderStatusUpdate_keeps_sinks {now : Now} {orderId : String} {status : ℕ}
    {volumeOrign volumeLeft volumeFilled frozen : ℚ} {limitPrice avgPrice : ℚ} {lastMsg : String} :
    Keeps sinks (attempt (writeOrderStatusUpdate (Q := Q) now orderId userId instrumentId status
      volumeOrign volumeLeft volumeFilled frozen direction offset limitPrice avgPrice lastMsg)) :=
  .attempt (appendAccount_keeps_sinks _ _ _)

variable {towards : ℤ}

theorem updateAccount_safe (now : Now) (member : accountId ∈ users) (instrumentId : String)
    (known : towardsOf direction offset = some towards) (price volume : ℚ) (qaOrderId : String) :
    Safe (Ready users) (updateAccount (Q := Q) now accountId instrumentId direction offset price
      volume qaOrderId) := by
  refine .bind (getAccount_safe member) fun account => ?_
  simp only [known]
  split
  · exact .bind (putAccount_safe _ _) fun _ => .pure _ _
  · exact .bind (putAccount_safe _ _) fun _ => .pure _ _

theorem updateAccount_keeps_sinks (now : Now) (accountId instrumentId direction offset : String)
    (price volume : ℚ) (qaOrderId : String) :
    Keeps sinks (updateAccount (Q := Q) now accountId instrumentId direction offset price volume
      qaOrderId) := by
  refine .bind ((getAccount_keeps accountId).comp sinks) fun account => ?_
  split
  · exact .fail _ _
  · dsimp only
    split
    · exact .bind (putAccount_keeps_sinks _ _) fun _ => .pure _ _
    · exact .bind (putAccount_keeps_sinks _ _) fun _ => .pure _ _

theorem pushAccountUpdate_safe (now : Now) (member : accountId ∈ users) :
    Safe (Ready users) (pushAccountUpdate (Q := Q) now accountId) :=
  .bind (getAccount_safe member) fun _ => sendNotification_safe _

theorem pushAccountUpdate_keeps_sinks (now : Now) (accountId : String) :
    Keeps sinks (pushAccountUpdate (Q := Q) now accountId) :=
  .bind ((getAccount_keeps accountId).comp sinks) fun _ => sendNotification_keeps_sinks _

theorem emitTradeNotification_safe (now : Now) (trade : TradeParams) :
    Safe (Ready users) (emitTradeNotification (Q := Q) now trade) :=
  .bind (.read _ _) fun _ => .bind (.update fun _ ready => ⟨ready.disk, ready.accounts⟩)
    fun _ => sendNotification_safe _

theorem emitTradeNotification_keeps_sinks (now : Now) (trade : TradeParams) :
    Keeps sinks (emitTradeNotification (Q := Q) now trade) :=
  .bind (.read _ _) fun _ => .bind (.update fun _ => rfl)
    fun _ => sendNotification_keeps_sinks _

/-! ## The handlers -/

theorem handleOrderAcceptedNew_safe (now : Now) (order : OrderParams) :
    Safe (Ready users) (handleOrderAcceptedNew (Q := Q) now order) :=
  .bind (nextSequence_safe _) fun _ => .bind (appendInstrument_safe _ _ _) fun _ =>
    .bind (appendAccount_safe _ _ _) fun _ => .bind (sendNotification_safe _) fun _ =>
      .bind (.read _ _) fun _ => .bind (writeOrderStatusUpdate_safe) fun _ => .pure _ _

theorem handleOrderAcceptedNew_keeps_sinks (now : Now) (order : OrderParams) :
    Keeps sinks (handleOrderAcceptedNew (Q := Q) now order) :=
  .bind (nextSequence_keeps_sinks _) fun _ =>
    .bind (appendInstrument_keeps_sinks rfl _ _) fun _ =>
      .bind (appendAccount_keeps_sinks _ _ _) fun _ =>
        .bind (sendNotification_keeps_sinks _) fun _ => .bind (.read _ _) fun _ =>
          .bind (writeOrderStatusUpdate_keeps_sinks) fun _ => .pure _ _

theorem handleOrderRejectedNew_safe (now : Now) (order : OrderParams) (reason : String) :
    Safe (Ready users) (handleOrderRejectedNew (Q := Q) now order reason) :=
  .bind (nextSequence_safe _) fun _ => .bind (sendNotification_safe _) fun _ =>
    .bind (writeOrderStatusUpdate_safe) fun _ => .pure _ _

theorem handleOrderRejectedNew_keeps_sinks (now : Now) (order : OrderParams) (reason : String) :
    Keeps sinks (handleOrderRejectedNew (Q := Q) now order reason) :=
  .bind (nextSequence_keeps_sinks _) fun _ => .bind (sendNotification_keeps_sinks _) fun _ =>
    .bind (writeOrderStatusUpdate_keeps_sinks) fun _ => .pure _ _

theorem handleOrderRejectedNew_keeps_accounts (now : Now) (order : OrderParams) (reason : String) :
    Keeps accountMgr (handleOrderRejectedNew (Q := Q) now order reason) :=
  .bind (.bind (.update fun _ => rfl) fun _ => .read _ _) fun _ =>
    .bind (.update fun _ => rfl) fun _ => .bind (.attempt fun _ => rfl) fun _ => .pure _ _

theorem releaseFrozen_safe (userId qaOrderId : String) :
    Safe (Ready users) (releaseFrozen (Q := Q) userId qaOrderId) := by
  refine .attempt fun gateway ready => ?_
  rw [exec_bind]
  have kept := getAccount_keeps userId gateway
  simp only [id] at kept
  rcases ran : exec (onAccounts (AccountManager.getAccount userId)) gateway with
    ⟨_ | account, middle⟩ <;> rw [ran] at kept <;> subst kept
  · exact ready
  · exact (putAccount_safe userId _ middle ready).2

theorem releaseFrozen_keeps_sinks (userId qaOrderId : String) :
    Keeps sinks (releaseFrozen (Q := Q) userId qaOrderId) :=
  .attempt (.bind ((getAccount_keeps userId).comp sinks) fun _ => putAccount_keeps_sinks _ _)

theorem handleCancelAcceptedNew_safe (now : Now) (order : OrderParams) (exchangeOrderId : ℤ)
    (remainingVolume : ℚ) (qaOrderId : String) :
    Safe (Ready users) (handleCancelAcceptedNew (Q := Q) now order exchangeOrderId
      remainingVolume qaOrderId) :=
  .bind (releaseFrozen_safe _ _) fun _ => .bind (sendNotification_safe _) fun _ =>
    writeOrderStatusUpdate_safe

theorem handleCancelAcceptedNew_keeps_sinks (now : Now) (order : OrderParams)
    (exchangeOrderId : ℤ) (remainingVolume : ℚ) (qaOrderId : String) :
    Keeps sinks (handleCancelAcceptedNew (Q := Q) now order exchangeOrderId remainingVolume
      qaOrderId) :=
  .bind (releaseFrozen_keeps_sinks _ _) fun _ => .bind (sendNotification_keeps_sinks _) fun _ =>
    writeOrderStatusUpdate_keeps_sinks

theorem appendTrade_does (now : Now) (trade : TradeParams) (tradeId : ℤ) (failure : String) :
    Does (Ready users) sinks (fun sinks => { sinks with
        tradeLog := Function.update sinks.tradeLog trade.instrumentId
          (sinks.tradeLog trade.instrumentId ++ [tradeRecord now trade tradeId]) })
      (onWal (Q := Q) (appendInstrument trade.instrumentId
        (tradeRecord now trade tradeId) failure)) := by
  refine ⟨appendInstrument_safe _ _ _, fun gateway ready => ?_⟩
  rw [exec_appendInstrument ready.disk]
  simp only [sinks, Sinks.mk.injEq, true_and, and_true]
  funext instrument
  by_cases same : instrument = trade.instrumentId
  · subst same
    simp [tradeRecord, WalRecord.isTrade]
  · simp [Function.update_of_ne same]

theorem recordTaker_does (now : Now) (trade : TradeParams) :
    Does (Ready users) sinks (fun sinks => { sinks with
        recorder := if trade.isTaker then sinks.recorder.map (recordTrade now trade)
          else sinks.recorder })
      (recordTaker (Q := Q) now trade) := by
  unfold recordTaker
  cases trade.isTaker with
  | true => exact .update (fun _ ready => ⟨ready.disk, ready.accounts⟩) fun _ => rfl
  | false => exact .of_keeps (.pure _ _) (.pure _ _)

theorem feedMarket_does (trade : TradeParams) :
    Does (Ready users) sinks (fun sinks => { sinks with
        feed := sinks.feed.map (· ++ marketCalls trade) })
      (feedMarket (Q := Q) trade) :=
  .update (fun _ ready => ⟨ready.disk, ready.accounts⟩) fun _ => rfl

variable {trade : TradeParams}

theorem bookDeal_does (now : Now) (member : trade.userId ∈ users)
    (known : towardsOf trade.direction trade.offset = some towards) :
    Does (Ready users) sinks (fun sinks => { sinks with
        deals := sinks.deals ++
          [⟨trade.userId, trade.orderId, trade.qaOrderId, trade.price, trade.volume⟩] })
      (bookDeal (Q := Q) now trade) := by
  refine ⟨.bind (updateAccount_safe now member _ known _ _ _) fun _ =>
    .bind (.update fun _ ready => ⟨ready.disk, ready.accounts⟩) fun _ => .pure _ _,
    fun gateway ready => ?_⟩
  rcases updateAccount_safe now member trade.instrumentId known trade.price trade.volume
    trade.qaOrderId gateway ready with ⟨⟨result, succeeded⟩, _⟩
  have ran : exec (updateAccount now trade.userId trade.instrumentId trade.direction trade.offset
      trade.price trade.volume trade.qaOrderId) gateway = (.ok result, _) :=
    Prod.ext succeeded rfl
  have kept := updateAccount_keeps_sinks now trade.userId trade.instrumentId trade.direction
    trade.offset trade.price trade.volume trade.qaOrderId gateway
  rw [bookDeal, exec_bind_ok ran, ← kept]
  rfl

theorem reportFill_does (now : Now) (member : trade.userId ∈ users) (volumeLeft : ℚ) :
    Does (Ready users) sinks id (reportFill (Q := Q) now trade volumeLeft) :=
  .of_keeps
    (.bind (.read _ _) fun _ => .bind writeOrderStatusUpdate_safe fun _ =>
      .bind (emitTradeNotification_safe _ _) fun _ => pushAccountUpdate_safe now member)
    (.bind (.read _ _) fun _ => .bind writeOrderStatusUpdate_keeps_sinks fun _ =>
      .bind (emitTradeNotification_keeps_sinks _ _) fun _ => pushAccountUpdate_keeps_sinks now _)

theorem carryOutTrade_does (now : Now) (member : trade.userId ∈ users)
    (known : towardsOf trade.direction trade.offset = some towards) (tradeId : ℤ) :
    Does (Ready users) sinks (fun sinks => sinks.trade now trade tradeId)
      (carryOutTrade (Q := Q) now trade tradeId) :=
  .congr (.bind (appendTrade_does now trade tradeId _) fun _ =>
    .bind (.of_keeps (appendAccount_safe _ _ _) (appendAccount_keeps_sinks _ _ _)) fun _ =>
    .bind (recordTaker_does now trade) fun _ => .bind (feedMarket_does trade) fun _ =>
    .bind (bookDeal_does now member known) fun volumeLeft => reportFill_does now member volumeLeft)
    fun _ => rfl

/-- One fill goes to every sink once, and to the recorder only from the
taker's side. -/
theorem handleTradeNew_does (now : Now) (trade : TradeParams) (member : trade.userId ∈ users)
    (known : towardsOf trade.direction trade.offset = some towards) (ready : Ready users gateway) :
    ∃ tradeId, (∃ value, (exec (handleTradeNew now trade) gateway).1 = .ok value) ∧
      Ready users (exec (handleTradeNew now trade) gateway).2 ∧
      sinks (exec (handleTradeNew now trade) gateway).2 =
        (sinks gateway).trade now trade tradeId := by
  rcases nextSequence_safe trade.instrumentId gateway ready with ⟨⟨tradeId, numbered⟩, ready'⟩
  have ran : exec (nextSequence trade.instrumentId) gateway = (.ok tradeId, _) :=
    Prod.ext numbered rfl
  have rest : Does (Ready users) sinks _ _ :=
    (carryOutTrade_does (Q := Q) now member known tradeId).bind fun _ =>
      .of_keeps (.pure _ tradeId) (.pure _ tradeId)
  rw [handleTradeNew, exec_bind_ok ran]
  refine ⟨tradeId, (rest.1 _ ready').1, (rest.1 _ ready').2, ?_⟩
  rw [← nextSequence_keeps_sinks trade.instrumentId gateway]
  exact rest.2 _ ready'

end QAExchange.TradeGateway
