import QAExchange.Settlement.ForceLiquidation
import QAExchange.Settlement.SettlementRuns

/-! # Records of forced liquidations

A call of `force_liquidate_account` keeps a record of all its orders. What the daily
settlement reports and the worker carries out has none.
-/

namespace QAExchange

open Foundation

variable {M : LiquidationMarket}

theorem submitPlans_sides (accountId : String) (plans : List ForcePlan) (state : M.State)
    (now : String) :
    ((submitPlans accountId plans state).2.map fun answer =>
        (orderOfResponse now answer.1 answer.2).side) = plans.map ForcePlan.side := by
  induction plans generalizing state with
  | nil => rfl
  | cons plan plans induction =>
    rw [submitPlans, List.map_cons, List.map_cons, induction]
    rfl

namespace LiquidationEngine

theorem resultOf_orders (id accountId : String) (account : SettledAccount) (balanceAfter : ℚ)
    (now : String) (remark : Option String)
    (answers : List (SubmitOrderRequest × SubmitOrderResponse)) :
    (resultOf (M := M) id accountId account balanceAfter now remark answers).orders =
      answers.map fun answer => orderOfResponse now answer.1 answer.2 := by
  rw [resultOf]
  split_ifs <;> rfl

theorem resultOf_accountId (id accountId : String) (account : SettledAccount)
    (balanceAfter : ℚ) (now : String) (remark : Option String)
    (answers : List (SubmitOrderRequest × SubmitOrderResponse)) :
    (resultOf (M := M) id accountId account balanceAfter now remark answers).accountId =
      accountId := by
  rw [resultOf]
  split_ifs <;> rfl

theorem lookup_save (result : ForceLiquidationResult) (engine : LiquidationEngine M) :
    (engine.save result).liquidationHistory.lookup result.liquidationId = some result ∧
      ∃ ids, (engine.save result).accountLiquidations.lookup result.accountId =
        some (ids ++ [result.liquidationId]) :=
  ⟨AList.lookup_insert _, _, AList.lookup_insert _⟩

/-- A call that succeeds has one order for each open side, with the answer it got, and its
result is in the history and under the account. -/
theorem forceLiquidateAccount_recorded {engine : LiquidationEngine M}
    (returns : (engine.forceLiquidateAccount accountId remark date now).2 = .ok result) :
    ∃ account, M.account engine.market accountId = some account ∧
      result.orders.map ForceLiquidationOrder.side = closingSides account ∧
      (engine.forceLiquidateAccount accountId remark date now).1.liquidationHistory.lookup
        result.liquidationId = some result ∧
      ∃ ids, (engine.forceLiquidateAccount accountId remark date now).1.accountLiquidations.lookup
        accountId = some (ids ++ [result.liquidationId]) := by
  rw [forceLiquidateAccount] at returns ⊢
  split_ifs at returns ⊢ with noRouter
  cases found : M.account engine.market accountId with
  | none =>
    rw [found] at returns
    exact nomatch returns
  | some account =>
    rw [found] at returns
    dsimp only at returns ⊢
    refine ⟨account, rfl, ?_⟩
    split_ifs at returns ⊢ with noPlans
    · have isResult := Except.ok.inj returns
      have sides := map_side_forcePlans
        (fun _ openPrice => if 0 < openPrice then openPrice else 1) account
      have none : directPlans account = [] := List.isEmpty_iff.mp noPlans
      rw [directPlans] at none
      rw [none] at sides
      rw [← isResult]
      exact ⟨sides, lookup_save _ _⟩
    · have isResult := Except.ok.inj returns
      rw [← isResult]
      refine ⟨?_, ?_⟩
      · rw [resultOf_orders, List.map_map, directPlans,
          ← map_side_forcePlans (fun _ openPrice => if 0 < openPrice then openPrice else 1)]
        exact submitPlans_sides accountId _ engine.market now
      · have saved := lookup_save (M := M) (resultOf (M := M)
          (engine.generateLiquidationId date) accountId account
          (((M.account (submitPlans accountId (directPlans account) engine.market).1
            accountId).map M.getBalance).getD (M.getBalance account)) now remark
          (submitPlans accountId (directPlans account) engine.market).2)
          { engine with
            liquidationSeq := engine.liquidationSeq + 1
            market := (submitPlans accountId (directPlans account) engine.market).1 }
        rw [resultOf_accountId] at saved
        exact saved

end LiquidationEngine

inductive LiquidationStep (M : LiquidationMarket)
  | setOrderRouter
  | setRiskMonitor
  | dailySettlement
  | forceLiquidate (accountId : String) (remark : Option String) (date now : String)
  | work
  | trade (change : M.State → M.State)

namespace LiquidationEngine

def next (settlement : SettlementEngine) (engine : LiquidationEngine M) :
    LiquidationStep M → LiquidationEngine M
  | .setOrderRouter => { engine with orderRouter := true }
  | .setRiskMonitor => { engine with riskMonitor := some [] }
  | .dailySettlement => engine.dailySettlement settlement
  | .forceLiquidate accountId remark date now =>
    let outcome := engine.forceLiquidateAccount accountId remark date now
    match outcome.2 with
    | .ok result => { outcome.1 with returned := outcome.1.returned ++ [result.liquidationId] }
    | .error _ => outcome.1
  | .work => engine.work settlement
  | .trade change => { engine with market := change engine.market }

def drain (settlement : SettlementEngine) (engine : LiquidationEngine M) : LiquidationEngine M :=
  (List.replicate engine.forceCloseQueue.length LiquidationStep.work).foldl
    (next settlement) engine

/-- A liquidation that is recorded for a task: its orders close the open sides of the account
as the worker has found it, each with an order id or a rejection. -/
def RecordedFor (engine : LiquidationEngine M) (served : ForceCloseTask × Option SettledAccount)
    (id : String) : Prop :=
  ∃ account result, served.2 = some account ∧ engine.liquidationHistory.lookup id = some result ∧
    result.accountId = served.1.accountId ∧
    id ∈ (engine.accountLiquidations.lookup served.1.accountId).getD [] ∧
    result.orders.map ForceLiquidationOrder.side = closingSides account ∧
    ∀ order ∈ result.orders, order.orderId.isSome ∨ order.error.isSome

/-- With an empty queue, each report has been carried out and has a liquidation of its own in
the history, which is not one that a call has returned for itself. -/
def AccountedFor (engine : LiquidationEngine M) : Prop :=
  engine.forceCloseQueue = [] →
    engine.reported = engine.served.map (fun served => served.1.accountId) ∧
      ∃ ids : List String, ids.Nodup ∧ (∀ id ∈ ids, id ∉ engine.returned) ∧
        List.Forall₂ engine.RecordedFor engine.served ids

/-! ## What the steps leave -/

theorem carryOut_eq (settlement : SettlementEngine) (task : ForceCloseTask)
    (engine : LiquidationEngine M) :
    ∃ market monitor, engine.carryOut settlement task =
      { engine with market := market, riskMonitor := monitor } := by
  rw [carryOut]
  split_ifs
  · exact ⟨engine.market, engine.riskMonitor, rfl⟩
  · cases M.account engine.market task.accountId with
    | none => exact ⟨engine.market, engine.riskMonitor, rfl⟩
    | some account =>
      dsimp only
      split_ifs
      · exact ⟨engine.market, engine.riskMonitor, rfl⟩
      · exact ⟨_, _, rfl⟩

theorem forceLiquidateAccount_cases (accountId : String) (remark : Option String)
    (date now : String) (engine : LiquidationEngine M) :
    (∃ failure, engine.forceLiquidateAccount accountId remark date now = (engine, .error failure)) ∨
      ∃ market monitor seq result, engine.forceLiquidateAccount accountId remark date now =
        (({ engine with
            market := market
            riskMonitor := monitor
            liquidationSeq := seq }).save result, .ok result) := by
  rw [forceLiquidateAccount]
  split_ifs
  · exact Or.inl ⟨_, rfl⟩
  · cases M.account engine.market accountId with
    | none => exact Or.inl ⟨_, rfl⟩
    | some account =>
      right
      dsimp only
      split_ifs
      · exact ⟨_, engine.riskMonitor, _, _, rfl⟩
      · exact ⟨_, _, _, _, rfl⟩

/-- The history holds what calls have returned, and every report waits or has been served. -/
structure Tracked (engine : LiquidationEngine M) : Prop where
  recorded : ∀ id result, engine.liquidationHistory.lookup id = some result →
    id ∈ engine.returned
  reported_eq : engine.reported = engine.served.map (fun served => served.1.accountId) ++
    engine.forceCloseQueue.map ForceCloseTask.accountId

theorem tracked_new (market : M.State) : (new market).Tracked where
  recorded _ _ found := nomatch found
  reported_eq := rfl

variable {settlement : SettlementEngine} {engine : LiquidationEngine M}

theorem Tracked.work (tracked : engine.Tracked) : (engine.work settlement).Tracked := by
  rw [LiquidationEngine.work]
  cases queue : engine.forceCloseQueue with
  | nil => exact tracked
  | cons task rest =>
    dsimp only
    rcases carryOut_eq settlement task { engine with
      forceCloseQueue := rest
      served := engine.served ++ [(task, M.account engine.market task.accountId)] } with
      ⟨market, monitor, equal⟩
    rw [equal]
    refine ⟨tracked.recorded, ?_⟩
    rw [tracked.reported_eq, queue]
    simp

theorem Tracked.next (tracked : engine.Tracked) (step : LiquidationStep M) :
    (engine.next settlement step).Tracked := by
  cases step with
  | setOrderRouter => exact ⟨tracked.recorded, tracked.reported_eq⟩
  | setRiskMonitor => exact ⟨tracked.recorded, tracked.reported_eq⟩
  | trade change => exact ⟨tracked.recorded, tracked.reported_eq⟩
  | work => exact tracked.work
  | dailySettlement =>
    refine ⟨tracked.recorded, ?_⟩
    change engine.reported ++ _ = _ ++ (engine.forceCloseQueue ++ _).map _
    rw [tracked.reported_eq, List.map_append, List.map_map, List.append_assoc]
    rfl
  | forceLiquidate accountId remark date now =>
    rw [LiquidationEngine.next]
    rcases forceLiquidateAccount_cases accountId remark date now engine with
      ⟨failure, equal⟩ | ⟨market, monitor, seq, result, equal⟩
    · rw [equal]
      exact tracked
    · rw [equal]
      refine ⟨?_, tracked.reported_eq⟩
      intro id found isFound
      apply List.mem_append.mpr
      by_cases same : id = result.liquidationId
      · right
        rw [same]
        exact List.mem_singleton_self _
      · left
        have before : engine.liquidationHistory.lookup id = some found :=
          (AList.lookup_insert_ne same).symm.trans isFound
        exact tracked.recorded id found before

theorem Tracked.run (tracked : engine.Tracked) (steps : List (LiquidationStep M)) :
    (steps.foldl (fun engine => engine.next settlement) engine).Tracked :=
  foldl_invariant Tracked (fun _ step before => before.next step) steps tracked

theorem reported_work (settlement : SettlementEngine) (engine : LiquidationEngine M) :
    (engine.work settlement).reported = engine.reported := by
  rw [work]
  cases engine.forceCloseQueue with
  | nil => rfl
  | cons task rest =>
    dsimp only
    rcases carryOut_eq settlement task { engine with
      forceCloseQueue := rest
      served := engine.served ++ [(task, M.account engine.market task.accountId)] } with
      ⟨market, monitor, equal⟩
    rw [equal]

def NothingDue (settlement : SettlementEngine) (engine : LiquidationEngine M) :
    LiquidationStep M → Prop
  | .dailySettlement => engine.forceClosed settlement = []
  | _ => True

/-- A step reports nothing exactly when nothing is due. -/
theorem reported_next_eq_nil_iff (step : LiquidationStep M) :
    (engine.next settlement step).reported = [] ↔
      engine.reported = [] ∧ engine.NothingDue settlement step := by
  cases step with
  | setOrderRouter => exact (and_iff_left trivial).symm
  | setRiskMonitor => exact (and_iff_left trivial).symm
  | trade change => exact (and_iff_left trivial).symm
  | work =>
    rw [next, reported_work]
    exact (and_iff_left trivial).symm
  | dailySettlement =>
    change engine.reported ++ (engine.forceClosed settlement).map _ = [] ↔ _
    rw [List.append_eq_nil_iff, List.map_eq_nil_iff]
    rfl
  | forceLiquidate accountId remark date now =>
    rw [next]
    rcases forceLiquidateAccount_cases accountId remark date now engine with
      ⟨failure, equal⟩ | ⟨market, monitor, seq, result, equal⟩
    · rw [equal]
      exact (and_iff_left trivial).symm
    · rw [equal]
      exact (and_iff_left trivial).symm

theorem reported_run_eq_nil_iff (steps : List (LiquidationStep M)) :
    (steps.foldl (fun engine => engine.next settlement) engine).reported = [] ↔
      engine.reported = [] ∧
        Along (fun engine => engine.next settlement) (NothingDue settlement) steps engine := by
  induction steps generalizing engine with
  | nil => exact (and_iff_left trivial).symm
  | cons step steps induction =>
    rw [List.foldl_cons, induction, reported_next_eq_nil_iff, Along, and_assoc]

theorem drain_spec (settlement : SettlementEngine) (engine : LiquidationEngine M) :
    (engine.drain settlement).forceCloseQueue = [] ∧
      (engine.drain settlement).reported = engine.reported := by
  rw [drain]
  generalize count : engine.forceCloseQueue.length = length
  induction length generalizing engine with
  | zero => exact ⟨List.length_eq_zero_iff.mp count, rfl⟩
  | succ length induction =>
    have shorter : (engine.work settlement).forceCloseQueue.length = length := by
      rw [work]
      cases queue : engine.forceCloseQueue with
      | nil =>
        rw [queue] at count
        exact nomatch count
      | cons task rest =>
        dsimp only
        rcases carryOut_eq settlement task { engine with
          forceCloseQueue := rest
          served := engine.served ++ [(task, M.account engine.market task.accountId)] } with
          ⟨market, monitor, equal⟩
        rw [equal]
        rw [queue] at count
        exact Nat.succ.inj count
    have later := induction (engine.work settlement) shorter
    rw [reported_work] at later
    exact later

theorem Tracked.accountedFor_iff_nothing_reported (tracked : engine.Tracked)
    (idle : engine.forceCloseQueue = []) : engine.AccountedFor ↔ engine.reported = [] := by
  have reported_eq := tracked.reported_eq
  rw [idle, List.map_nil, List.append_nil] at reported_eq
  constructor
  · intro accounted
    rcases accounted idle with ⟨_, ids, _, apart, recorded⟩
    rw [reported_eq]
    cases served : engine.served with
    | nil => rfl
    | cons first rest =>
      rw [served] at recorded
      rcases List.forall₂_cons_left_iff.mp recorded with ⟨id, others, isRecorded, _, rfl⟩
      rcases isRecorded with ⟨account, result, _, found, _⟩
      exact absurd (tracked.recorded id result found) (apart id List.mem_cons_self)
  · intro none _
    refine ⟨reported_eq, [], List.nodup_nil, nofun, ?_⟩
    rw [none] at reported_eq
    rw [List.map_eq_nil_iff.mp reported_eq.symm]
    exact List.Forall₂.nil

/-- After any run, when the worker is through with its queue, the reports are accounted for
if and only if no daily settlement has found an account due for a forced close. -/
theorem accountedFor_iff (settlement : SettlementEngine) (market : M.State)
    (steps : List (LiquidationStep M)) :
    ((steps.foldl (fun engine => engine.next settlement) (new market)).drain
        settlement).AccountedFor ↔
      Along (fun engine => engine.next settlement) (NothingDue settlement) steps (new market) := by
  have drained := drain_spec settlement
    (steps.foldl (fun engine => engine.next settlement) (new market))
  have tracked : ((steps.foldl (fun engine => engine.next settlement) (new market)).drain
      settlement).Tracked := by
    rw [drain]
    exact ((tracked_new market).run steps).run _
  rw [tracked.accountedFor_iff_nothing_reported drained.1, drained.2, reported_run_eq_nil_iff]
  exact and_iff_right rfl

/-! ### One account at risk -/

def oneAccountMarket : LiquidationMarket where
  State := SettledAccount
  account account accountId := if accountId = "user1" then some account else none
  settle _ _ account := account
  submitForceOrder account request :=
    (account, { success := request.direction = "SELL"
                orderId := some "ORD1"
                status := none
                errorMessage :=
                  if request.direction = "SELL" then none else some (.ofString "rejected")
                errorCode := none })
  tick _ _ := none
  getBalance account := account.balance
  getRiskRatio account := account.riskRatio

def accountAtRisk : SettledAccount where
  balance := 100
  available := 0
  margin := 200
  closeProfit := 0
  commission := 0
  positionProfit := 0
  riskRatio := 2
  hold := [("IF2501", ⟨2, 0, 0, 1, 10, 12⟩)]

def riskSettlement : SettlementEngine where
  accountIds := ["user1"]
  settlementPrices := fun _ => none
  forceCloseThreshold := 1
  rule := SettlementSystem.resetOnly

/-- The engine after a daily settlement and one turn of the worker. -/
def afterSettlement : LiquidationEngine oneAccountMarket :=
  [.setOrderRouter, .setRiskMonitor, .dailySettlement, .work].foldl
    (fun engine => engine.next riskSettlement) (new accountAtRisk)

/-- The account is reported and its sides are submitted, but the history is empty. -/
theorem afterSettlement_without_record :
    afterSettlement.reported = ["user1"] ∧ afterSettlement.forceCloseQueue = [] ∧
      (submitPlans (M := oneAccountMarket) "user1"
        (buildForcePlans riskSettlement.settlementPrices accountAtRisk) accountAtRisk).2.length =
          2 ∧
      afterSettlement.liquidationHistory.keys = [] ∧ ¬afterSettlement.AccountedFor := by
  have reported : afterSettlement.reported = ["user1"] := by decide +kernel
  have idle : afterSettlement.forceCloseQueue = [] := by decide +kernel
  have first : (new accountAtRisk : LiquidationEngine oneAccountMarket).Tracked :=
    tracked_new (M := oneAccountMarket) accountAtRisk
  have tracked : afterSettlement.Tracked := first.run _
  refine ⟨reported, idle, by decide +kernel, by decide +kernel, ?_⟩
  intro accounted
  rw [(tracked.accountedFor_iff_nothing_reported idle).mp accounted] at reported
  exact nomatch reported

end LiquidationEngine

end QAExchange
