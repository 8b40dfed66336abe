import QAExchange.Exchange.OrderRouter
import QAExchange.Foundation.Runs

/-! # Orders restored after a restart

A pending order is put back into its book when it is listed. What is listed already is passed
over, so that orders that are restored twice do not rest twice.
-/

namespace QAExchange.OrderRouter

open Foundation

variable {Q : Qars} {router : OrderRouter Q}

/-- There is a book that would take the order, but for its direction. -/
def Undirected (router : OrderRouter Q) (order : Order) : Prop :=
  0 < order.volumeLeft ∧ (router.getOrderbook order.instrumentId).isSome ∧
    OrderDirection.ofString order.direction = none

def PassesOver (router : OrderRouter Q) (entry : String × String × Order) : Prop :=
  restoredStatus entry.2.2.status = none ∨ (router.orders entry.2.1).isSome ∨
    router.Undirected entry.2.2

/-- What an order that is put back leaves as it was. -/
structure Spares (router after : OrderRouter Q) : Prop where
  gateway : after.tradeGateway = router.tradeGateway
  orders : after.orders = router.orders
  books : ∀ instrumentId,
    (after.getOrderbook instrumentId).isSome = (router.getOrderbook instrumentId).isSome

theorem reenter_cases (now : Now) (orderId : String) (order : Order) (router : OrderRouter Q) :
    router.Undirected order ∧ reenter now orderId order router = none ∨
      ¬ router.Undirected order ∧
        ∃ result, reenter now orderId order router = some result ∧ router.Spares result.2 := by
  rw [reenter, Undirected]
  by_cases left : 0 < order.volumeLeft
  · rw [if_pos left]
    cases found : router.getOrderbook order.instrumentId with
    | none => exact .inr ⟨by simp, _, rfl, rfl, rfl, fun _ => rfl⟩
    | some book =>
      cases OrderDirection.ofString order.direction with
      | none => exact .inl ⟨⟨left, rfl, rfl⟩, rfl⟩
      | some direction =>
        have books : ∀ instrumentId, (Function.update router.matchingEngine.orderbooks
            order.instrumentId (some (Q.processOrder book (limitRequest (Q := Q) now
              order.instrumentId direction order.limitPrice order.volumeLeft)).2)
            instrumentId).isSome = (router.getOrderbook instrumentId).isSome := by
          intro instrumentId
          by_cases same : instrumentId = order.instrumentId
          · rw [same, found, Function.update_self]
            rfl
          · rw [Function.update_of_ne same]
            rfl
        refine .inr ⟨by simp, ?_⟩
        dsimp only
        split
        · exact ⟨_, rfl, rfl, rfl, books⟩
        · exact ⟨_, rfl, rfl, rfl, books⟩
  · rw [if_neg left]
    exact .inr ⟨fun undirected => left undirected.1, _, rfl, rfl, rfl, fun _ => rfl⟩

def restoreEntry (now : Now) (router : OrderRouter Q) (entry : String × String × Order) :
    OrderRouter Q := restoreOrder now entry.1 router entry.2

theorem restoreEntry_cases (now : Now) (router : OrderRouter Q)
    (entry : String × String × Order) :
    router.PassesOver entry ∧ restoreEntry now router entry = router ∨
      ¬ router.PassesOver entry ∧ ∃ after info userOrders, router.Spares after ∧
        restoreEntry now router entry = { after with
          orders := Function.update after.orders entry.2.1 (some info)
          userOrders := userOrders } := by
  rcases entry with ⟨accountId, orderId, order⟩
  rw [restoreEntry, restoreOrder, PassesOver]
  dsimp only
  cases restoredStatus order.status with
  | none => exact .inl ⟨.inl rfl, rfl⟩
  | some status =>
    dsimp only
    split_ifs with listed
    · exact .inl ⟨.inr (.inl listed), rfl⟩
    · rcases reenter_cases now orderId order router with
        ⟨undirected, back⟩ | ⟨directed, result, back, keeps⟩
      · rw [back]
        exact .inl ⟨.inr (.inr undirected), rfl⟩
      · rw [back]
        refine .inr ⟨?_, result.2, _, _, keeps, rfl⟩
        rintro (pending | isListed | undirected)
        · cases pending
        · exact listed isListed
        · exact directed undirected

theorem tradeGateway_restoreEntry (now : Now) (router : OrderRouter Q)
    (entry : String × String × Order) :
    (restoreEntry now router entry).tradeGateway = router.tradeGateway := by
  rcases restoreEntry_cases now router entry with ⟨_, same⟩ | ⟨_, _, _, _, keeps, same⟩
  · rw [same]
  · rw [same]
    exact keeps.gateway

/-- What is passed over once is passed over from then on, and so is what has been restored. -/
theorem passesOver_restoreEntry (now : Now) (router : OrderRouter Q)
    (entry other : String × String × Order) (reason : entry = other ∨ router.PassesOver entry) :
    (restoreEntry now router other).PassesOver entry := by
  rcases restoreEntry_cases now router other with ⟨pass, same⟩ | ⟨_, after, info, _, keeps, same⟩
  · rw [same]
    rcases reason with rfl | passes
    · exact pass
    · exact passes
  · have listed : entry.2.1 = other.2.1 ∨ (router.orders entry.2.1).isSome →
        ((restoreEntry now router other).orders entry.2.1).isSome := by
      rw [same]
      dsimp only
      by_cases own : entry.2.1 = other.2.1
      · rw [own, Function.update_self]
        exact fun _ => rfl
      · rw [Function.update_of_ne own, keeps.orders]
        exact fun isListed => isListed.resolve_left own
    rcases reason with rfl | notPending | isListed | ⟨left, book, undirected⟩
    · exact .inr (.inl (listed (.inl rfl)))
    · exact .inl notPending
    · exact .inr (.inl (listed (.inr isListed)))
    · rw [same]
      exact .inr (.inr ⟨left, (keeps.books _).trans book, undirected⟩)

def restorable (router : OrderRouter Q) : List (String × String × Order) :=
  router.accountMgr.getAllAccounts.flatMap fun account =>
    (dailyEntries account).map fun entry => (account.accountCookie, entry)

theorem restoreOrdersFromAccounts_eq (now : Now) (router : OrderRouter Q) :
    restoreOrdersFromAccounts now router =
      router.restorable.foldl (restoreEntry now) router := by
  rw [restoreOrdersFromAccounts, restorable, List.foldl_flatMap]
  simp only [List.foldl_map]
  rfl

/-- After a restart every pending order with a direction is listed. To restore the orders once
more changes nothing: none is put into a book twice. -/
theorem restoreOrdersFromAccounts_again (now later : Now) (router : OrderRouter Q) :
    (∀ account ∈ router.accountMgr.getAllAccounts, ∀ entry ∈ dailyEntries account,
      (restoredStatus entry.2.status).isSome →
        (OrderDirection.ofString entry.2.direction).isSome →
          ((restoreOrdersFromAccounts now router).orders entry.1).isSome) ∧
      restoreOrdersFromAccounts later (restoreOrdersFromAccounts now router) =
        restoreOrdersFromAccounts now router := by
  have passed := foldl_passes (passesOver_restoreEntry now) router.restorable router
  have gateway : (restoreOrdersFromAccounts now router).tradeGateway = router.tradeGateway := by
    rw [restoreOrdersFromAccounts_eq]
    exact foldl_invariant (fun after => after.tradeGateway = router.tradeGateway)
      (fun after entry kept => (tradeGateway_restoreEntry now after entry).trans kept) _ rfl
  have same : (restoreOrdersFromAccounts now router).restorable = router.restorable := by
    rw [restorable, restorable, accountMgr, gateway]
    rfl
  rw [← restoreOrdersFromAccounts_eq] at passed
  constructor
  · intro account isAccount entry isEntry pending directed
    have member : (account.accountCookie, entry) ∈ router.restorable :=
      List.mem_flatMap.mpr ⟨account, isAccount, List.mem_map_of_mem isEntry⟩
    rcases passed _ (.inl member) with notPending | listed | ⟨_, _, undirected⟩
    · rw [notPending] at pending
      cases pending
    · exact listed
    · rw [undirected] at directed
      cases directed
  · rw [restoreOrdersFromAccounts_eq later, same]
    refine foldl_eq_self fun entry member => ?_
    rcases restoreEntry_cases later _ entry with ⟨_, idle⟩ | ⟨restored, _⟩
    · exact idle
    · exact absurd (passed entry (.inl member)) restored

end QAExchange.OrderRouter
