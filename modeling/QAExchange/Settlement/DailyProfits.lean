import QAExchange.Foundation.LastWindow
import QAExchange.Settlement.SettlementEngine

/-! # The profits of the days

An account with the same positions is settled day by day. What the history says of its profits
is compared with what the positions have won since they were opened.
-/

namespace QAExchange

open Foundation

def HeldPosition.carried (position : HeldPosition) : HeldPosition :=
  { position with
    volumeLongToday := 0
    volumeLongHis := position.volumeLongToday + position.volumeLongHis
    volumeShortToday := 0
    volumeShortHis := position.volumeShortToday + position.volumeShortHis }

/-- `QA_Account::settle` carries the positions over and leaves them as they are otherwise. -/
def SettleRule.CarriesOver (rule : SettleRule) : Prop :=
  ∀ account, (rule.settle account).hold = account.hold.map fun held => (held.1, held.2.carried)

def totalProfit (prices : String → ℚ) (hold : List (String × HeldPosition)) : ℚ :=
  (hold.map fun held => held.2.longVolume * (prices held.1 - held.2.openPriceLong) +
    held.2.shortVolume * (held.2.openPriceShort - prices held.1)).sum

structure SettlementBook where
  accounts : String → SettledAccount
  accountHistory : String → List AccountSettlement

namespace SettlementEngine

def setSettlementPrices (prices : String → ℚ) (engine : SettlementEngine) : SettlementEngine :=
  { engine with settlementPrices := fun code => some (prices code) }

def dailySettlement (date : String) (engine : SettlementEngine) (book : SettlementBook) :
    SettlementBook where
  accounts accountId :=
    let account := book.accounts accountId
    if accountId ∈ engine.accountIds then
      engine.applySettlement (engine.preCalculateAccount accountId account) account
    else account
  accountHistory accountId :=
    let account := book.accounts accountId
    if accountId ∈ engine.accountIds then
      let preCalc := engine.preCalculateAccount accountId account
      let final := engine.applySettlement preCalc account
      pushBounded 180 (book.accountHistory accountId) (recordOf preCalc date final)
    else book.accountHistory accountId

def settleDays (engine : SettlementEngine) (days : List (String × (String → ℚ)))
    (book : SettlementBook) : SettlementBook :=
  days.foldl (fun book day => (engine.setSettlementPrices day.2).dailySettlement day.1 book) book

def recordedProfits (accountId : String) (book : SettlementBook) : List ℚ :=
  (book.accountHistory accountId).map fun record => record.positionProfit

def NonnegVolumes (hold : List (String × HeldPosition)) : Prop :=
  ∀ held ∈ hold, 0 ≤ held.2.longVolume ∧ 0 ≤ held.2.shortVolume

variable {engine : SettlementEngine}

theorem positionProfit_setSettlementPrices {account : SettledAccount}
    (nonneg : NonnegVolumes account.hold) :
    (engine.setSettlementPrices prices).positionProfit account =
      totalProfit prices account.hold := by
  rw [positionProfit, totalProfit]
  congr 1
  apply List.map_congr_left
  intro held member
  rcases nonneg held member with ⟨long, short⟩
  change profitOf (prices held.1) held.2 = _
  have side : ∀ {volume : ℚ} (move : ℚ), 0 ≤ volume →
      (if 0 < volume then move * volume else 0) = volume * move := by
    intro volume move isNonneg
    split_ifs with isPos
    · exact mul_comm _ _
    · rw [le_antisymm (not_lt.mp isPos) isNonneg, zero_mul]
  rw [profitOf, side _ long, side _ short]

theorem longVolume_carried (position : HeldPosition) :
    position.carried.longVolume = position.longVolume := zero_add _

theorem shortVolume_carried (position : HeldPosition) :
    position.carried.shortVolume = position.shortVolume := zero_add _

theorem totalProfit_carried (prices : String → ℚ) (hold : List (String × HeldPosition)) :
    totalProfit prices (hold.map fun held => (held.1, held.2.carried)) =
      totalProfit prices hold := by
  rw [totalProfit, totalProfit, List.map_map]
  congr 1
  apply List.map_congr_left
  intro held _
  change held.2.carried.longVolume * (prices held.1 - held.2.openPriceLong) +
    held.2.carried.shortVolume * (held.2.openPriceShort - prices held.1) = _
  rw [longVolume_carried, shortVolume_carried]

theorem nonnegVolumes_carried (nonneg : NonnegVolumes hold) :
    NonnegVolumes (hold.map fun held => (held.1, held.2.carried)) := by
  intro held member
  rcases List.mem_map.mp member with ⟨before, isBefore, rfl⟩
  rw [longVolume_carried, shortVolume_carried]
  exact nonneg before isBefore

/-- What holds of an account with these positions after some days. -/
structure Follows (days : List (String × (String → ℚ))) (accountId : String)
    (hold : List (String × HeldPosition)) (book : SettlementBook) : Prop where
  nonneg : NonnegVolumes (book.accounts accountId).hold
  sameProfit : ∀ prices, totalProfit prices (book.accounts accountId).hold =
    totalProfit prices hold
  recorded : recordedProfits accountId book =
    (days.map fun day => totalProfit day.2 hold).rtake 180

theorem Follows.dailySettlement (follows : Follows days accountId hold book)
    (carries : engine.rule.CarriesOver) (isManaged : accountId ∈ engine.accountIds)
    (day : String × (String → ℚ)) :
    Follows (days ++ [day]) accountId hold
      ((engine.setSettlementPrices day.2).dailySettlement day.1 book) := by
  have settled : (((engine.setSettlementPrices day.2).dailySettlement day.1 book).accounts
      accountId).hold = (book.accounts accountId).hold.map fun held => (held.1, held.2.carried) := by
    rw [SettlementEngine.dailySettlement]
    dsimp only
    rw [if_pos (by exact isManaged)]
    exact carries _
  refine ⟨?_, ?_, ?_⟩
  · rw [settled]
    exact nonnegVolumes_carried follows.nonneg
  · intro prices
    rw [settled, totalProfit_carried, follows.sameProfit]
  · have isRecorded := follows.recorded
    rw [recordedProfits] at isRecorded
    rw [recordedProfits, SettlementEngine.dailySettlement]
    dsimp only
    rw [if_pos (by exact isManaged), map_pushBounded, isRecorded, pushBounded_rtake,
      List.map_append, List.map_singleton]
    have profit : (engine.setSettlementPrices day.2).positionProfit (book.accounts accountId) =
        totalProfit day.2 hold :=
      (positionProfit_setSettlementPrices follows.nonneg).trans (follows.sameProfit _)
    rw [← profit]
    rfl

theorem Follows.settleDays (follows : Follows [] accountId hold book)
    (carries : engine.rule.CarriesOver) (isManaged : accountId ∈ engine.accountIds)
    (days : List (String × (String → ℚ))) :
    Follows days accountId hold (engine.settleDays days book) := by
  induction days using List.reverseRecOn with
  | nil => exact follows
  | append_singleton days day induction =>
    rw [SettlementEngine.settleDays, List.foldl_append]
    exact induction.dailySettlement carries isManaged day

/-- The records add up to what the positions have won exactly if the days before the last, as
far as the history keeps them, add up to nothing. -/
theorem recordedProfits_sum_iff {book : SettlementBook} (carries : engine.rule.CarriesOver)
    (isManaged : accountId ∈ engine.accountIds)
    (nonneg : NonnegVolumes (book.accounts accountId).hold)
    (isNew : book.accountHistory accountId = []) (days : List (String × (String → ℚ)))
    (last : String × (String → ℚ)) :
    (recordedProfits accountId (engine.settleDays (days ++ [last]) book)).sum =
        totalProfit last.2 (book.accounts accountId).hold ↔
      ((days.map fun day => totalProfit day.2 (book.accounts accountId).hold).rtake 179).sum =
        0 := by
  have start : Follows [] accountId (book.accounts accountId).hold book :=
    ⟨nonneg, fun _ => rfl, by rw [recordedProfits, isNew, List.map_nil, List.map_nil, List.rtake_nil]⟩
  rw [(start.settleDays carries isManaged (days ++ [last])).recorded, List.map_append,
    List.map_singleton, List.rtake_concat_succ, List.sum_append, List.sum_singleton,
    add_eq_right]

def carryOver : SettleRule where
  settle account :=
    { account with
      commission := 0
      closeProfit := 0
      hold := account.hold.map fun held => (held.1, held.2.carried) }
  commission_settle _ := rfl
  closeProfit_settle _ := rfl

def buyer : SettledAccount where
  balance := 1000
  available := 900
  margin := 100
  closeProfit := 0
  commission := 0
  positionProfit := 0
  riskRatio := 0
  hold := [("SHFE.cu2501", ⟨1, 0, 0, 0, 100, 0⟩)]

def buyerEngine : SettlementEngine where
  accountIds := ["user1"]
  settlementPrices := fun _ => none
  forceCloseThreshold := 1
  rule := carryOver

def buyerBook : SettlementBook where
  accounts _ := buyer
  accountHistory _ := []

theorem nonnegVolumes_buyer : NonnegVolumes buyer.hold := by
  intro held member
  rw [List.mem_singleton.mp member]
  decide +kernel

theorem unmoved_then_up_sum : (recordedProfits "user1" (buyerEngine.settleDays
      [("2025-01-02", fun _ => 100), ("2025-01-03", fun _ => 120)] buyerBook)).sum =
        totalProfit (fun _ => 120) buyer.hold :=
  (recordedProfits_sum_iff (fun _ => rfl) (by decide) nonnegVolumes_buyer rfl
    [("2025-01-02", fun _ => 100)] ("2025-01-03", fun _ => 120)).mpr (by decide +kernel)

/-- The gain of the first day is in both records. -/
theorem gain_counted_twice :
    ¬ ∀ (engine : SettlementEngine) (book : SettlementBook) (accountId : String)
      (days : List (String × (String → ℚ))) (last : String × (String → ℚ)),
      engine.rule.CarriesOver → accountId ∈ engine.accountIds →
      NonnegVolumes (book.accounts accountId).hold → book.accountHistory accountId = [] →
        (recordedProfits accountId (engine.settleDays (days ++ [last]) book)).sum =
          totalProfit last.2 (book.accounts accountId).hold := by
  intro claim
  have sum := claim buyerEngine buyerBook "user1" [("2025-01-02", fun _ => 110)]
    ("2025-01-03", fun _ => 120) (fun _ => rfl) (by decide) nonnegVolumes_buyer rfl
  exact absurd sum (by decide +kernel)

end SettlementEngine

end QAExchange
