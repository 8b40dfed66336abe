import QAExchange.Exchange.OrderRouter
import QAExchange.PriceTime

/-! # Volume that a booking leaves open

In a book in price-time priority an accepted order keeps what the volume within
its limit does not cover. The volume that the check of fill-or-kill orders adds
up is that volume, and an order with open volume can be cancelled.
-/

namespace QAExchange.PriceTimeContract

open Foundation

variable {Q : Qars}

variable (priceTime : PriceTimeContract Q)

theorem fokVolume_eq (book : Q.Orderbook) (valid : OrderDirection.ofString spelled = some direction)
    (price : ℚ) :
    OrderRouter.fokVolume book spelled price =
      available direction.side price (priceTime.queue book direction.side.opposite) := by
  have bids := priceTime.bidQueue book
  have asks := priceTime.askQueue book
  unfold OrderDirection.ofString at valid
  split at valid <;> simp only [Option.some.injEq, reduceCtorEq] at valid <;> subst valid
  · simp only [OrderRouter.fokVolume]
    cases queue : Q.askQueue book with
    | none =>
      rw [queue, Option.getD_none, eq_comm, List.map_eq_nil_iff] at asks
      simp [OrderDirection.side, Side.opposite, available, asks]
    | some orders =>
      rw [queue, Option.getD_some] at asks
      simp [OrderDirection.side, Side.opposite, available, asks, List.filter_map,
        Function.comp_def]
  · simp only [OrderRouter.fokVolume]
    cases queue : Q.bidQueue book with
    | none =>
      rw [queue, Option.getD_none, eq_comm, List.map_eq_nil_iff] at bids
      simp [OrderDirection.side, Side.opposite, available, bids]
    | some orders =>
      rw [queue, Option.getD_some] at bids
      simp [OrderDirection.side, Side.opposite, available, bids, List.filter_map,
        Function.comp_def]

variable {book : Q.Orderbook} {asset : InstrumentAsset} {direction : OrderDirection}
  {price volume : ℚ} {ts : ℤ} {id : ℕ} {orderType : OrderType} {accepted : ℤ}
  {events : List Success}

/-- An accepted order keeps what the volume within its limit does not cover, in
the queue of its side. -/
theorem left_of_accepted (answer : (Q.processOrder book
      (.newLimitOrder asset direction price volume ts)).1 =
        .ok (.Accepted id orderType accepted) :: events.map .ok) :
    priceTime.volumes (Q.processOrder book (.newLimitOrder asset direction price volume ts)).2 id =
      volume - min volume (available direction.side price
        (priceTime.queue book direction.side.opposite)) ∧ (0 < priceTime.volumes
        (Q.processOrder book (.newLimitOrder asset direction price volume ts)).2 id →
      id ∈ (priceTime.queue (Q.processOrder book (.newLimitOrder asset direction price volume
        ts)).2 direction.side).map Resting.id) := by
  rcases priceTime.newLimitOrder book asset direction price volume ts with
    ⟨failed, refused, _⟩ | ⟨id', orderType', accepted', reports, results, fresh, positive, _, _,
      swept, joined⟩
  · rw [answer] at refused
    simp at refused
  rw [answer] at results
  simp only [List.cons.injEq, Except.ok.injEq, Success.Accepted.injEq] at results
  obtain ⟨⟨rfl, _⟩, _⟩ := results
  have absent := priceTime.not_mem_of_not_issued fresh
  have left : (sweep direction.side price volume
      (priceTime.queue book direction.side.opposite)).left =
      volume - min volume (available direction.side price
        (priceTime.queue book direction.side.opposite)) :=
    sweep_left (priceTime.isQueue book direction.side.opposite) positive.le
  have opposite : openVolume (priceTime.queue (Q.processOrder book
      (.newLimitOrder asset direction price volume ts)).2 direction.side.opposite) id = 0 := by
    rw [swept]
    exact openVolume_of_not_mem fun member => absent _ ((sweep_queue_ids _).subset member)
  have nonneg := sweep_left_nonneg direction.side price
    (priceTime.queue book direction.side.opposite) positive.le
  have own : openVolume (priceTime.queue (Q.processOrder book
      (.newLimitOrder asset direction price volume ts)).2 direction.side) id =
      (sweep direction.side price volume (priceTime.queue book direction.side.opposite)).left := by
    rw [joined]
    split_ifs with stillOpen
    · rw [openVolume_perm (enqueue_perm _ _ _), openVolume_cons, if_pos rfl,
        openVolume_of_not_mem (absent _), add_zero]
    · rw [openVolume_of_not_mem (absent _)]
      exact le_antisymm nonneg (not_lt.mp stillOpen)
  rw [priceTime.volumes_eq _ direction.side, opposite, add_zero, own]
  refine ⟨left, fun stillOpen => ?_⟩
  rw [joined, if_pos stillOpen]
  exact List.mem_map.mpr ⟨_, mem_enqueue.mpr (.inl rfl), rfl⟩

/-- A resting order keeps its volume or is matched with all of it, if no match
leaves some. -/
theorem volumes_of_accepted (answer : (Q.processOrder book
      (.newLimitOrder asset direction price volume ts)).1 =
        .ok (.Accepted id orderType accepted) :: events.map .ok) (other : ℕ) (differs : other ≠ id)
    (whole : ∀ found ∈ (sweep direction.side price volume
      (priceTime.queue book direction.side.opposite)).matches',
        found.maker = other → found.remains = 0) :
    let book' := (Q.processOrder book (.newLimitOrder asset direction price volume ts)).2
    priceTime.volumes book' other = priceTime.volumes book other ∨
      priceTime.volumes book' other = 0 := by
  rcases priceTime.newLimitOrder book asset direction price volume ts with
    ⟨failed, refused, _⟩ | ⟨id', orderType', accepted', reports, results, _, _, _, _, swept, joined⟩
  · rw [answer] at refused
    simp at refused
  rw [answer] at results
  simp only [List.cons.injEq, Except.ok.injEq, Success.Accepted.injEq] at results
  obtain ⟨⟨rfl, _⟩, _⟩ := results
  generalize (Q.processOrder book (.newLimitOrder asset direction price volume ts)).2 = book' at *
  have own : openVolume (priceTime.queue book' direction.side) other =
      openVolume (priceTime.queue book direction.side) other := by
    rw [joined]
    split_ifs
    · rw [openVolume_perm (enqueue_perm _ _ _), openVolume_cons, if_neg (Ne.symm differs), zero_add]
    · rfl
  simp only [priceTime.volumes_eq _ direction.side, own]
  by_cases member : other ∈ (priceTime.queue book direction.side.opposite).map Resting.id
  · have notOwn := priceTime.not_mem_opposite member
    rw [Side.opposite_opposite] at notOwn
    rcases List.mem_map.mp member with ⟨order, resting, rfl⟩
    have nodup := priceTime.nodup book direction.side.opposite
    have nodup' := priceTime.nodup book' direction.side.opposite
    rw [openVolume_of_not_mem notOwn, zero_add, zero_add]
    rcases sweep_order direction.side price volume nodup resting with
      stays | ⟨found, isMatch, isMaker, gone⟩
    · left
      rw [← swept] at stays
      rw [openVolume_of_mem nodup resting, openVolume_of_mem nodup' stays]
    · right
      rw [swept]
      exact openVolume_of_not_mem (gone (whole found isMatch isMaker))
  · left
    have gone : other ∉ (priceTime.queue book' direction.side.opposite).map Resting.id := by
      rw [swept]
      exact fun stays => member ((sweep_queue_ids _).subset stays)
    rw [openVolume_of_not_mem member, openVolume_of_not_mem gone]

theorem cancel_of_mem (member : id ∈ (priceTime.queue book direction.side).map Resting.id) :
    ∃ ts, (Q.processOrder book (.cancelOrder id direction)).1 = [.ok (.Cancelled id ts)] ∧
      priceTime.volumes (Q.processOrder book (.cancelOrder id direction)).2 id = 0 := by
  have answered := priceTime.cancelOrder book id direction
  simp only [member, if_true] at answered
  rcases answered with ⟨⟨ts, answer⟩, _⟩
  rcases priceTime.bookContract.cancelOrder book id direction with
    ⟨failed, refused, _⟩ | ⟨_, _, _, _, left⟩
  · rw [answer] at refused
    simp at refused
  · refine ⟨ts, answer, ?_⟩
    exact (congrFun left id).trans (Function.update_self ..)

end QAExchange.PriceTimeContract
