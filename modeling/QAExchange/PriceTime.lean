import Mathlib.Tactic.Linarith
import QAExchange.ReferenceQars

/-! # Price-time priority gives the event contract

A book in price-time priority reports its matches in the shape that
`BookContract` asks for, and the reference qars meets both contracts.
-/

namespace QAExchange

open Foundation

def openVolume (queue : List (Resting ℕ ℚ ℚ)) (id : ℕ) : ℚ :=
  ((queue.filter fun order => order.id = id).map Resting.volume).sum

section OpenVolume

variable {queue rest : List (Resting ℕ ℚ ℚ)} {order : Resting ℕ ℚ ℚ} {id : ℕ}

theorem openVolume_cons : openVolume (order :: rest) id =
    (if order.id = id then order.volume else 0) + openVolume rest id := by
  by_cases same : order.id = id <;> simp [openVolume, same]

theorem openVolume_of_not_mem (absent : id ∉ queue.map Resting.id) : openVolume queue id = 0 := by
  have none : queue.filter (fun order => decide (order.id = id)) = [] := by
    rw [List.filter_eq_nil_iff]
    intro order member same
    exact absent (List.mem_map.mpr ⟨order, member, of_decide_eq_true same⟩)
  simp [openVolume, none]

theorem openVolume_perm (perm : queue.Perm other) (id : ℕ) :
    openVolume queue id = openVolume other id :=
  ((perm.filter _).map _).sum_eq

theorem openVolume_of_mem (nodup : (queue.map Resting.id).Nodup) (member : order ∈ queue) :
    openVolume queue order.id = order.volume := by
  induction queue with
  | nil => simp at member
  | cons first rest induction =>
    rcases List.nodup_cons.mp nodup with ⟨firstAbsent, restNodup⟩
    rw [openVolume_cons]
    rcases List.mem_cons.mp member with rfl | member
    · simp [openVolume_of_not_mem firstAbsent]
    · have differs : first.id ≠ order.id := by
        intro same
        exact firstAbsent (same ▸ List.mem_map_of_mem member)
      simpa [differs] using induction restNodup member

theorem openVolume_remove (queue : List (Resting ℕ ℚ ℚ)) (removed id : ℕ) :
    openVolume (queue.filter fun order => order.id ≠ removed) id =
      if id = removed then 0 else openVolume queue id := by
  split_ifs with same
  · subst same
    apply openVolume_of_not_mem
    simp
  · simp only [openVolume, List.filter_filter]
    congr 3
    funext order
    by_cases isId : order.id = id <;> simp [isId, same]

end OpenVolume

/-- The first match of a sweep takes `volume` from the incoming order and from
the front of the queue; the later reports go on from there. -/
private theorem SweepReports.front {taker : ℕ} {left : ℚ} {first : Resting ℕ ℚ ℚ}
    {volume remains : ℚ} {later : List (Match ℕ ℚ ℚ)} {reports : List Success}
    (reported : SweepReports taker left (⟨first.id, first.price, volume, remains⟩ :: later) reports)
    {volumes : ℕ → ℚ} (takerOpen : volumes taker = left)
    (makerOpen : volumes first.id = first.volume) (whole : volume + remains = first.volume)
    (differs : first.id ≠ taker) (positive : 0 < volume) (fits : volume ≤ left)
    (fits' : volume ≤ first.volume) :
    ∃ more, SweepReports taker (left - volume) later more ∧
      ∀ volumes', Matches taker (settle volumes taker first.id volume) more volumes' →
        Matches taker volumes reports volumes' := by
  cases reported with
  | @pair _ _ _ takerFill makerFill more opposed isTaker isMaker sameVolume samePrice reported =>
    refine ⟨more, reported, fun volumes' matched => ?_⟩
    simp only at isMaker sameVolume
    rw [whole, ← makerOpen, ← takerOpen, ← isMaker]
    refine .pair opposed isTaker (isMaker ▸ differs) (sameVolume ▸ positive) ?_ ?_ ?_
    · rw [sameVolume, takerOpen]
      exact fits
    · rw [sameVolume, isMaker, makerOpen]
      exact fits'
    · rw [sameVolume, isMaker]
      exact matched

/-- The reports of a sweep are matches: the incoming order ends with what the
sweep leaves it, the orders of the queue with what they keep. -/
theorem SweepReports.matches
    (reported : SweepReports taker left (sweep side limit left queue).matches' reports)
    (takerOpen : volumes taker = left) (positive : 0 < left) (absent : taker ∉ queue.map Resting.id)
    (nodup : (queue.map Resting.id).Nodup) (makersPos : ∀ order ∈ queue, 0 < order.volume)
    (makersOpen : ∀ id ∈ queue.map Resting.id, volumes id = openVolume queue id) :
    ∃ volumes', Matches taker volumes reports volumes' ∧
      volumes' taker = (sweep side limit left queue).left ∧
      (∀ id ∈ queue.map Resting.id,
        volumes' id = openVolume (sweep side limit left queue).queue id) ∧
      ∀ id ∉ queue.map Resting.id, id ≠ taker → volumes' id = volumes id := by
  induction queue generalizing left reports volumes with
  | nil =>
    cases reported
    exact ⟨volumes, .done _, takerOpen, by simp, by simp⟩
  | cons first rest induction =>
    rw [List.map_cons, List.mem_cons, not_or] at absent
    rw [List.map_cons, List.nodup_cons] at nodup
    have firstPos := makersPos first (by simp)
    have firstOpen : volumes first.id = first.volume := by
      rw [makersOpen first.id (by simp), openVolume_cons, openVolume_of_not_mem nodup.1]
      simp
    have restOpen : ∀ id ∈ rest.map Resting.id, volumes id = openVolume rest id := by
      intro id member
      have differs : first.id ≠ id := fun same => nodup.1 (same ▸ member)
      rw [makersOpen id (by simp [member]), openVolume_cons, if_neg differs, zero_add]
    -- after the match with the front only its volume and the taker's differ
    have settled : ∀ volume, ∀ id ∈ rest.map Resting.id,
        settle volumes taker first.id volume id = openVolume rest id := by
      intro volume id member
      have notFirst : id ≠ first.id := fun same => nodup.1 (same ▸ member)
      have notTaker : id ≠ taker := fun same => absent.2 (same ▸ member)
      simp [settle, Function.update_of_ne notFirst, Function.update_of_ne notTaker,
        restOpen id member]
    have takerAfter : ∀ volume, settle volumes taker first.id volume taker = left - volume := by
      intro volume
      simp [settle, Function.update_of_ne absent.1, takerOpen]
    have elsewhere : ∀ volume, ∀ id ∉ (first :: rest).map Resting.id, id ≠ taker →
        settle volumes taker first.id volume id = volumes id := by
      intro volume id outside notTaker
      have notFirst : id ≠ first.id := by
        rintro rfl
        simp at outside
      simp [settle, Function.update_of_ne notFirst, Function.update_of_ne notTaker]
    simp only [sweep] at reported ⊢
    split_ifs at reported ⊢ with accepted less same
    · rcases reported.front takerOpen firstOpen (by linarith) (Ne.symm absent.1) positive
        le_rfl less.le with ⟨more, none, matched⟩
      cases none
      refine ⟨_, matched _ (.done _), by simp [takerAfter], ?_, elsewhere left⟩
      intro id member
      rcases List.mem_cons.mp member with rfl | member
      · simp [settle, openVolume_cons, openVolume_of_not_mem nodup.1, firstOpen]
      · have differs : first.id ≠ id := fun same => nodup.1 (same ▸ member)
        rw [settled left id member, openVolume_cons, if_neg differs, zero_add]
    · rcases reported.front takerOpen firstOpen (by linarith) (Ne.symm absent.1) firstPos
        same.symm.le le_rfl with ⟨more, none, matched⟩
      cases none
      refine ⟨_, matched _ (.done _), by simp [takerAfter, same], ?_, elsewhere _⟩
      intro id member
      rcases List.mem_cons.mp member with rfl | member
      · simp [settle, openVolume_of_not_mem nodup.1, firstOpen]
      · exact settled _ id member
    · have bigger : first.volume < left := lt_of_le_of_ne (not_lt.mp less) (Ne.symm same)
      rcases reported.front takerOpen firstOpen (by linarith) (Ne.symm absent.1) firstPos
        bigger.le le_rfl with ⟨more, later, matched⟩
      rcases induction later (takerAfter _) (sub_pos.mpr bigger) absent.2 nodup.2
        (fun order member => makersPos order (by simp [member])) (settled _) with
        ⟨volumes', laterMatched, takerLeft, makersLeft, others⟩
      refine ⟨volumes', matched _ laterMatched, takerLeft, ?_, ?_⟩
      · intro id member
        rcases List.mem_cons.mp member with rfl | member
        · rw [others _ nodup.1 (Ne.symm absent.1), openVolume_of_not_mem]
          · simp [settle, firstOpen]
          · exact fun member => nodup.1 ((sweep_queue_ids _).subset member)
        · exact makersLeft id member
      · intro id outside notTaker
        rw [others id (fun member => outside (by simp [member])) notTaker,
          elsewhere _ id outside notTaker]
    · cases reported
      refine ⟨volumes, .done _, takerOpen, makersOpen, by simp⟩

namespace PriceTimeContract

variable {Q : Qars} (priceTime : PriceTimeContract Q)

def volumes (book : Q.Orderbook) (id : ℕ) : ℚ :=
  openVolume (priceTime.queue book .buy) id + openVolume (priceTime.queue book .sell) id

theorem volumes_eq (book : Q.Orderbook) (side : Side) (id : ℕ) :
    priceTime.volumes book id =
      openVolume (priceTime.queue book side) id +
        openVolume (priceTime.queue book side.opposite) id := by
  cases side
  · rfl
  · exact add_comm _ _

theorem not_mem_of_not_issued {book : Q.Orderbook} {id : ℕ} (fresh : ¬priceTime.issued book id)
    (side : Side) : id ∉ (priceTime.queue book side).map Resting.id := by
  intro member
  rcases List.mem_map.mp member with ⟨order, orderMem, rfl⟩
  exact fresh (priceTime.issued_of_mem book side order orderMem)

theorem not_mem_opposite {book : Q.Orderbook} {side : Side} {id : ℕ}
    (member : id ∈ (priceTime.queue book side).map Resting.id) :
    id ∉ (priceTime.queue book side.opposite).map Resting.id := by
  intro other
  rcases List.mem_map.mp member with ⟨order, orderMem, rfl⟩
  rcases List.mem_map.mp other with ⟨opposed, opposedMem, same⟩
  exact priceTime.disjoint book side order orderMem opposed opposedMem same.symm

def ledger (book : Q.Orderbook) : Ledger ℕ ℚ where
  left := priceTime.volumes book
  issued := priceTime.issued book
  issued_of_open id positive := by
    by_contra fresh
    rw [volumes, openVolume_of_not_mem (priceTime.not_mem_of_not_issued fresh .buy),
      openVolume_of_not_mem (priceTime.not_mem_of_not_issued fresh .sell)] at positive
    simp at positive

theorem ledger_congr {book book' : Q.Orderbook} (queue : priceTime.queue book' = priceTime.queue book)
    (issued : priceTime.issued book' = priceTime.issued book) :
    priceTime.ledger book' = priceTime.ledger book := by
  have volumes : priceTime.volumes book' = priceTime.volumes book := by
    funext id
    rw [PriceTimeContract.volumes, PriceTimeContract.volumes, queue]
  exact Ledger.ext volumes issued

/-- Open volumes after a limit order swept the opposite queue and joined its
own with what was left. -/
theorem volumes_newLimitOrder {book book' : Q.Orderbook} {side : Side} {id : ℕ} {price volume : ℚ}
    {reports : List Success} (fresh : ¬priceTime.issued book id) (positive : 0 < volume)
    (reported : SweepReports id volume
      (sweep side price volume (priceTime.queue book side.opposite)).matches' reports)
    (swept : priceTime.queue book' side.opposite =
      (sweep side price volume (priceTime.queue book side.opposite)).queue)
    (joined : priceTime.queue book' side =
      if 0 < (sweep side price volume (priceTime.queue book side.opposite)).left then
        enqueue side ⟨id, price,
          (sweep side price volume (priceTime.queue book side.opposite)).left⟩
          (priceTime.queue book side)
      else priceTime.queue book side) :
    Matches id (Function.update (priceTime.volumes book) id volume) reports
      (priceTime.volumes book') := by
  have absent := priceTime.not_mem_of_not_issued fresh
  have makersOpen : ∀ other ∈ (priceTime.queue book side.opposite).map Resting.id,
      Function.update (priceTime.volumes book) id volume other =
        openVolume (priceTime.queue book side.opposite) other := by
    intro other member
    have notNew : other ≠ id := fun same => absent _ (same ▸ member)
    have notOwn := priceTime.not_mem_opposite member
    rw [Side.opposite_opposite] at notOwn
    rw [Function.update_of_ne notNew, priceTime.volumes_eq book side, openVolume_of_not_mem notOwn,
      zero_add]
  rcases reported.matches (by simp) positive (absent _) (priceTime.nodup book _)
    (priceTime.isQueue book _).positive makersOpen with
    ⟨volumes', matched, takerLeft, makersLeft, others⟩
  have nonneg := sweep_left_nonneg side price (priceTime.queue book side.opposite) positive.le
  have own : ∀ other, openVolume (priceTime.queue book' side) other =
      (if id = other then (sweep side price volume (priceTime.queue book side.opposite)).left
        else 0) + openVolume (priceTime.queue book side) other := by
    intro other
    rw [joined]
    split_ifs with stillOpen same
    · rw [openVolume_perm (enqueue_perm _ _ _), openVolume_cons, if_pos same]
    · rw [openVolume_perm (enqueue_perm _ _ _), openVolume_cons, if_neg same]
    · rw [le_antisymm (not_lt.mp stillOpen) nonneg, zero_add]
    · rw [zero_add]
  have same : volumes' = priceTime.volumes book' := by
    funext other
    rw [priceTime.volumes_eq book' side, own, swept]
    by_cases isNew : id = other
    · subst isNew
      rw [takerLeft, if_pos rfl, openVolume_of_not_mem (absent side), openVolume_of_not_mem]
      · simp
      · exact fun member => absent _ ((sweep_queue_ids _).subset member)
    · rw [if_neg isNew, zero_add]
      by_cases member : other ∈ (priceTime.queue book side.opposite).map Resting.id
      · have notOwn := priceTime.not_mem_opposite member
        rw [Side.opposite_opposite] at notOwn
        rw [makersLeft other member, openVolume_of_not_mem notOwn, zero_add]
      · have afterwards : openVolume (sweep side price volume
            (priceTime.queue book side.opposite)).queue other = 0 :=
          openVolume_of_not_mem fun swept => member ((sweep_queue_ids _).subset swept)
        rw [others other member (Ne.symm isNew), Function.update_of_ne (Ne.symm isNew),
          priceTime.volumes_eq book side, openVolume_of_not_mem member, afterwards]
  exact same ▸ matched

def bookContract : BookContract Q where
  ledger := priceTime.ledger
  newLimitOrder book asset direction price volume ts := by
    rcases priceTime.newLimitOrder book asset direction price volume ts with
      ⟨failed, refused, queue, issued⟩ | ⟨id, orderType, accepted, reports, results, fresh,
        positive, issued, reported, swept, joined⟩
    · exact .inl ⟨failed, refused, priceTime.ledger_congr queue issued⟩
    · exact .inr ⟨id, orderType, accepted, reports, results, fresh, positive, issued,
        priceTime.volumes_newLimitOrder fresh positive reported swept joined⟩
  cancelOrder book id direction := by
    have answered := priceTime.cancelOrder book id direction
    simp only at answered
    split_ifs at answered with member
    · rcases answered with ⟨⟨ts, results⟩, issued, opposite, own⟩
      right
      refine ⟨ts, results, ?_, fun other => by simp only [ledger, issued], ?_⟩
      · rcases List.mem_map.mp member with ⟨order, orderMem, rfl⟩
        change 0 < priceTime.volumes book order.id
        rw [priceTime.volumes_eq book direction.side,
          openVolume_of_mem (priceTime.nodup book _) orderMem,
          openVolume_of_not_mem (priceTime.not_mem_opposite member), add_zero]
        exact (priceTime.isQueue book _).positive order orderMem
      · funext other
        change priceTime.volumes _ other = Function.update (priceTime.volumes book) id 0 other
        rw [priceTime.volumes_eq _ direction.side, own, opposite, openVolume_remove]
        split_ifs with same
        · subst same
          rw [Function.update_self, openVolume_of_not_mem (priceTime.not_mem_opposite member),
            add_zero]
        · rw [Function.update_of_ne same, priceTime.volumes_eq book direction.side]
    · rcases answered with ⟨⟨failed, results⟩, queue, issued⟩
      exact .inl ⟨failed, results, priceTime.ledger_congr queue issued⟩

end PriceTimeContract

namespace ReferenceQars

def priceTime : PriceTimeContract referenceQars where
  queue := ReferenceBook.queue
  issued book id := id < book.nextId
  isQueue := ReferenceBook.isQueue
  nodup := ReferenceBook.nodup
  disjoint := ReferenceBook.disjoint
  issued_of_mem := ReferenceBook.below
  bidQueue _ := rfl
  askQueue _ := rfl
  newLimitOrder book asset direction price volume ts := by
    by_cases positive : 0 < volume
    · right
      refine ⟨book.nextId, .Limit, ts, _, ?_, lt_irrefl _, positive, ?_,
        ReferenceBook.reports_sweepReports _ direction ts _ _, ?_, ?_⟩
      · simp [referenceQars, ReferenceBook.processOrder, positive]
      · intro other
        simp only [referenceQars, ReferenceBook.processOrder, positive, if_true,
          ReferenceBook.placeLimit]
        omega
      · simp only [referenceQars, ReferenceBook.processOrder, positive, if_true]
        exact ReferenceBook.queuesAfter_opposite _
      · simp only [referenceQars, ReferenceBook.processOrder, positive, if_true]
        exact ReferenceBook.queuesAfter_self _
    · left
      refine ⟨.ValidationFailed "invalid volume", ?_, ?_, ?_⟩ <;>
        simp [referenceQars, ReferenceBook.processOrder, positive]
  cancelOrder book id direction := by
    dsimp only
    split_ifs with member
    · simp only [referenceQars, ReferenceBook.processOrder, member, if_true,
        ReferenceBook.remove, Function.update_self, Function.update_of_ne (Side.opposite_ne _),
        and_true]
      exact ⟨0, rfl⟩
    · simp only [referenceQars, ReferenceBook.processOrder, member, if_false, and_true]
      exact ⟨_, rfl⟩

theorem orderContract : OrderContract referenceQars where
  userId _ _ _ _ _ _ _ _ := rfl
  instrumentId _ _ _ _ _ _ _ _ := rfl
  volume _ _ _ _ _ _ _ _ := rfl
  limitPrice _ _ _ _ _ _ _ _ := rfl
  direction direction offset towards known account code exchange time volume price orderId := by
    unfold towardsOf at known
    split at known <;> simp_all [referenceQars, newOrder] <;> subst known <;> decide
  offset direction offset towards known account code exchange time volume price orderId := by
    unfold towardsOf at known
    split at known <;> simp_all [referenceQars, newOrder] <;> subst known <;> decide

theorem accountContract : AccountContract referenceQars where
  sendOrder_error account code amount time towards price id priceType error failed := by
    simp only [referenceQars, sendOrder] at failed ⊢
    split_ifs at failed ⊢
    exact ⟨rfl, rfl⟩

end ReferenceQars

end QAExchange
