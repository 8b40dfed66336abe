import QAExchange.Foundation.SortedPages
import QAExchange.Market.KLineFeed

/-! # Depth queries

A query of the depth of an instrument is answered by the cache, else by the last snapshot in
the storage, else by the order book.
-/

namespace QAExchange

open Foundation

structure OrderBookSnapshot where
  instrumentId : String
  timestamp : ℤ
  bids : List PriceLevel
  asks : List PriceLevel
  lastPrice : Option ℚ
  deriving DecidableEq

structure QueuedOrder where
  price : ℚ
  volume : ℚ

/-- The orders as `get_sorted_orders` gives them. -/
structure LiveBook where
  bids : List QueuedOrder
  asks : List QueuedOrder
  lastprice : ℚ

def bestLevels (better : ℚ → ℚ → Prop) [DecidableRel better] (depth : ℕ)
    (orders : List QueuedOrder) : List PriceLevel :=
  (topGroups better QueuedOrder.price depth orders).map fun group =>
    ⟨group.1, truncate (group.2.map QueuedOrder.volume).sum⟩

namespace LiveBook

def ordersSeen (depth : ℕ) : ℕ := depth * 10 % 2 ^ 64

def snapshot (instrumentId : String) (depth : ℕ) (timestamp : ℤ) (book : LiveBook) :
    OrderBookSnapshot where
  instrumentId := instrumentId
  timestamp := timestamp
  bids := bestLevels (· ≥ ·) depth (book.bids.take (ordersSeen depth))
  asks := bestLevels (· ≤ ·) depth (book.asks.take (ordersSeen depth))
  lastPrice := some book.lastprice

end LiveBook

/-- The records of the storage, of which only order book snapshots are read here. -/
inductive MarketRecord
  | OrderBookSnapshot (instrumentId : FixedArray 16) (bids asks : List (ℚ × ℤ)) (lastPrice : ℚ)
      (timestamp : ℤ)
  | other

namespace MarketRecord

def levels (stored : List (ℚ × ℤ)) : List PriceLevel :=
  (stored.filter fun level => 0 < level.1).map fun level => ⟨level.1, level.2⟩

def snapshot? : MarketRecord → Option QAExchange.OrderBookSnapshot
  | OrderBookSnapshot instrumentId bids asks lastPrice timestamp => some
      { instrumentId := WalRecord.fromFixedArray instrumentId
        timestamp := timestamp.tdiv 1000000
        bids := levels bids
        asks := levels asks
        lastPrice := if 0 < lastPrice then some lastPrice else none }
  | other => none

end MarketRecord

/-- `OltpHybridStorage::range_query`, whatever the storage holds. -/
abbrev RangeQuery := ℤ → ℤ → Except String (List MarketRecord)

/-- The history variables say for which depth the data was asked for, and what the book was then. -/
structure CachedOrderBook where
  data : OrderBookSnapshot
  cachedAt : ℕ
  depth : ℕ
  book : Option LiveBook

abbrev LiveBooks := String → Option LiveBook

/-- The part of the service that answers the queries. The time is in nanoseconds, and `moments`
is a history variable: the books of all moments so far. -/
structure DepthService where
  orderbookCache : String → Option CachedOrderBook
  ttl : ℕ
  storage : Option RangeQuery
  books : LiveBooks
  now : ℕ
  moments : List (ℕ × LiveBooks)

namespace DepthService

def new (ttlMs : ℕ) (storage : Option RangeQuery) (books : LiveBooks) (now : ℕ) : DepthService where
  orderbookCache _ := none
  ttl := ttlMs * 1000000
  storage := storage
  books := books
  now := now
  moments := [(now, books)]

def loadOrderbookFromStorage (instrumentId : String) (nanos : ℤ) (service : DepthService) :
    Except String OrderBookSnapshot :=
  match service.storage with
  | none => .error ("No orderbook snapshot found for " ++ instrumentId)
  | some rangeQuery =>
    match rangeQuery (nanos - 3600 * 1000000000) nanos with
    | .error text => .error ("Failed to query WAL: " ++ text)
    | .ok records =>
      match (records.reverse.filterMap MarketRecord.snapshot?).find? fun snapshot =>
          snapshot.instrumentId = instrumentId with
      | none => .error ("No orderbook snapshot found for " ++ instrumentId)
      | some snapshot => .ok snapshot

def updateOrderbook (instrumentId : String) (depth : ℕ) (data : OrderBookSnapshot)
    (service : DepthService) : DepthService :=
  { service with
    orderbookCache := Function.update service.orderbookCache instrumentId
      (some ⟨data, service.now, depth, service.books instrumentId⟩) }

def cachedOrderbook (instrumentId : String) (service : DepthService) :
    Option CachedOrderBook × DepthService :=
  match service.orderbookCache instrumentId with
  | none => (none, service)
  | some cached =>
    if service.now - cached.cachedAt < service.ttl then (some cached, service)
    else (none, { service with
      orderbookCache := Function.update service.orderbookCache instrumentId none })

/-- The wall clock shows `nanos`. -/
def getOrderbookSnapshot (instrumentId : String) (depth : ℕ) (nanos : ℤ)
    (service : DepthService) : Except String OrderBookSnapshot × DepthService :=
  let cached := service.cachedOrderbook instrumentId
  match cached.1 with
  | some hit => (.ok hit.data, cached.2)
  | none =>
    match cached.2.loadOrderbookFromStorage instrumentId nanos with
    | .ok snapshot => (.ok snapshot, cached.2.updateOrderbook instrumentId depth snapshot)
    | .error _ =>
      match cached.2.books instrumentId with
      | none => (.error ("Instrument not found: " ++ instrumentId), cached.2)
      | some book =>
        let snapshot := book.snapshot instrumentId depth (nanos.tdiv 1000000)
        (.ok snapshot, cached.2.updateOrderbook instrumentId depth snapshot)

def latestSnapshots (records : List MarketRecord) : String → Option OrderBookSnapshot :=
  (records.filterMap MarketRecord.snapshot?).foldl (fun latest snapshot =>
    match latest snapshot.instrumentId with
    | none => Function.update latest snapshot.instrumentId (some snapshot)
    | some existing =>
      if existing.timestamp < snapshot.timestamp then
        Function.update latest snapshot.instrumentId (some snapshot)
      else latest) fun _ => none

/-- `with_storage` fills the cache from the storage. There is no depth that was asked for. -/
def recoverRecentMarketData (minutes nanos : ℤ) (service : DepthService) : DepthService :=
  match service.storage with
  | none => service
  | some rangeQuery =>
    match rangeQuery (nanos - minutes * 60 * 1000000000) nanos with
    | .error _ => service
    | .ok records =>
      { service with
        orderbookCache := fun id =>
          match latestSnapshots records id with
          | none => service.orderbookCache id
          | some snapshot => some ⟨snapshot, service.now, 0, none⟩ }

/-- Time passes, the books or the storage change, a query comes in, or the cache is filled from
the storage. -/
inductive Input
  | elapse (nanos : ℕ)
  | changeBooks (books : LiveBooks)
  | changeStorage (storage : Option RangeQuery)
  | getOrderbookSnapshot (instrumentId : String) (depth : ℕ) (nanos : ℤ)
  | recoverRecentMarketData (minutes nanos : ℤ)

def apply (service : DepthService) : Input → DepthService
  | .elapse nanos => { service with now := service.now + nanos }
  | .changeBooks books => { service with books := books }
  | .changeStorage storage => { service with storage := storage }
  | .getOrderbookSnapshot instrumentId depth nanos =>
    (service.getOrderbookSnapshot instrumentId depth nanos).2
  | .recoverRecentMarketData minutes nanos => service.recoverRecentMarketData minutes nanos

def step (service : DepthService) (input : Input) : DepthService :=
  let after := service.apply input
  { after with moments := after.moments ++ [(after.now, after.books)] }

end DepthService

/-! ## Live depth

When the answers of a depth query are the best levels of the order book as it is, or was a
moment ago.
-/

def LiveBook.Shows (depth : ℕ) (book : LiveBook) (data : OrderBookSnapshot) : Prop :=
  data.bids = bestLevels (· ≥ ·) depth book.bids ∧
    data.asks = bestLevels (· ≤ ·) depth book.asks

instance (depth : ℕ) (book : LiveBook) (data : OrderBookSnapshot) :
    Decidable (book.Shows depth data) :=
  inferInstanceAs (Decidable (_ ∧ _))

def LiveBook.Seen (depth : ℕ) (book : LiveBook) : Prop :=
  (∀ order ∈ book.bids.drop (ordersSeen depth),
    order.price ∉ topKeys (· ≥ ·) QueuedOrder.price depth book.bids) ∧
  ∀ order ∈ book.asks.drop (ordersSeen depth),
    order.price ∉ topKeys (· ≤ ·) QueuedOrder.price depth book.asks

instance (depth : ℕ) (book : LiveBook) : Decidable (book.Seen depth) :=
  inferInstanceAs (Decidable (_ ∧ _))

def LiveBook.SameDepth (depth other : ℕ) (book : LiveBook) : Prop :=
  bestLevels (· ≥ ·) depth book.bids = bestLevels (· ≥ ·) other book.bids ∧
    bestLevels (· ≤ ·) depth book.asks = bestLevels (· ≤ ·) other book.asks

instance (depth other : ℕ) (book : LiveBook) : Decidable (book.SameDepth depth other) :=
  inferInstanceAs (Decidable (_ ∧ _))

theorem bestLevels_take {better : ℚ → ℚ → Prop} [DecidableRel better] [Std.Total better]
    [IsTrans ℚ better] [Std.Antisymm better] {orders : List QueuedOrder}
    (worse : ∀ order ∈ orders.drop seen,
      order.price ∉ topKeys better QueuedOrder.price depth orders) :
    bestLevels better depth (orders.take seen) = bestLevels better depth orders := by
  have split : orders.take seen ++ orders.drop seen = orders := List.take_append_drop seen orders
  have same : topGroups better QueuedOrder.price depth (orders.take seen) =
      topGroups better QueuedOrder.price depth (orders.take seen ++ orders.drop seen) := by
    apply topGroups_append
    rw [split]
    exact worse
  rw [split] at same
  rw [bestLevels, bestLevels, same]

theorem LiveBook.Seen.shows {book : LiveBook} (seen : book.Seen depth) (instrumentId : String)
    (timestamp : ℤ) : book.Shows depth (book.snapshot instrumentId depth timestamp) :=
  ⟨bestLevels_take seen.1, bestLevels_take seen.2⟩

namespace DepthService

/-- An answer has the best levels of the book at a moment that is not longer ago than the
entries of the cache live. Only without a book there is none. -/
def Live (service : DepthService) : Input → Prop
  | .getOrderbookSnapshot instrumentId depth nanos =>
    match (service.getOrderbookSnapshot instrumentId depth nanos).1 with
    | .ok data => ∃ moment ∈ service.moments, service.now ≤ moment.1 + service.ttl ∧
        ∃ book ∈ moment.2 instrumentId, book.Shows depth data
    | .error _ => service.books instrumentId = none
  | _ => True

instance (service : DepthService) : ∀ input, Decidable (Live service input)
  | .getOrderbookSnapshot instrumentId depth nanos => by
    unfold Live
    dsimp only
    cases (service.getOrderbookSnapshot instrumentId depth nanos).1 with
    | ok data =>
      exact inferInstanceAs (Decidable (∃ moment ∈ service.moments,
        service.now ≤ moment.1 + service.ttl ∧
          ∃ book ∈ moment.2 instrumentId, book.Shows depth data))
    | error text => exact inferInstanceAs (Decidable (service.books instrumentId = none))
  | .elapse _ => .isTrue trivial
  | .changeBooks _ => .isTrue trivial
  | .changeStorage _ => .isTrue trivial
  | .recoverRecentMarketData _ _ => .isTrue trivial

/-- A hit in the cache was not recovered, and the book of that time shows the same for the
depth that was asked for then. A snapshot from the storage shows the book as it is. Else the
orders that are looked at are enough. -/
def Answers (service : DepthService) : Input → Prop
  | .getOrderbookSnapshot instrumentId depth nanos =>
    match (service.cachedOrderbook instrumentId).1 with
    | some hit => ∃ book ∈ hit.book, book.SameDepth depth hit.depth
    | none =>
      match service.loadOrderbookFromStorage instrumentId nanos with
      | .ok data => ∃ book ∈ service.books instrumentId, book.Shows depth data
      | .error _ => ∀ book ∈ service.books instrumentId, book.Seen depth
  | _ => True

instance (service : DepthService) : ∀ input, Decidable (Answers service input)
  | .getOrderbookSnapshot instrumentId depth nanos => by
    unfold Answers
    dsimp only
    cases (service.cachedOrderbook instrumentId).1 with
    | some hit =>
      exact inferInstanceAs (Decidable (∃ book ∈ hit.book, book.SameDepth depth hit.depth))
    | none =>
      cases service.loadOrderbookFromStorage instrumentId nanos with
      | ok data =>
        exact inferInstanceAs (Decidable (∃ book ∈ service.books instrumentId,
          book.Shows depth data))
      | error text =>
        exact inferInstanceAs (Decidable (∀ book ∈ service.books instrumentId,
          book.Seen depth))
  | .elapse _ => .isTrue trivial
  | .changeBooks _ => .isTrue trivial
  | .changeStorage _ => .isTrue trivial
  | .recoverRecentMarketData _ _ => .isTrue trivial

/-! ## Runs -/

/-- An entry of the cache was right when it was made, unless it was recovered. -/
structure EntryRight (service : DepthService) (instrumentId : String) (entry : CachedOrderBook) :
    Prop where
  notLater : entry.cachedAt ≤ service.now
  shown : ∀ book ∈ entry.book, book.Shows entry.depth entry.data
  atMoment : ∀ book ∈ entry.book, ∃ moment ∈ service.moments, moment.1 = entry.cachedAt ∧
    moment.2 instrumentId = some book

structure Invariant (service : DepthService) : Prop where
  current : (service.now, service.books) ∈ service.moments
  cached : ∀ instrumentId entry, service.orderbookCache instrumentId = some entry →
    EntryRight service instrumentId entry

theorem invariant_new (ttlMs : ℕ) (storage : Option RangeQuery) (books : LiveBooks) (now : ℕ) :
    Invariant (new ttlMs storage books now) where
  current := List.mem_singleton_self _
  cached := by
    intro instrumentId entry isEntry
    cases isEntry

theorem Invariant.later {after : DepthService} (invariant : Invariant before)
    (current : (after.now, after.books) ∈ after.moments) (notEarlier : before.now ≤ after.now)
    (moments : ∀ moment ∈ before.moments, moment ∈ after.moments)
    (kept : ∀ instrumentId entry, after.orderbookCache instrumentId = some entry →
      before.orderbookCache instrumentId = some entry ∨ EntryRight after instrumentId entry) :
    Invariant after := by
  constructor
  · exact current
  · intro instrumentId entry isEntry
    rcases kept instrumentId entry isEntry with old | right
    · have wasRight := invariant.cached instrumentId entry old
      constructor
      · exact wasRight.notLater.trans notEarlier
      · exact wasRight.shown
      · intro book isBook
        rcases wasRight.atMoment book isBook with ⟨moment, member, isThen⟩
        exact ⟨moment, moments moment member, isThen⟩
    · exact right

theorem Invariant.noted (invariant : Invariant after) :
    Invariant { after with moments := after.moments ++ [(after.now, after.books)] } := by
  apply invariant.later
  · exact List.mem_append_right _ (List.mem_singleton_self _)
  · exact le_rfl
  · intro moment member
    exact List.mem_append_left _ member
  · intro instrumentId entry isEntry
    exact .inl isEntry

theorem cachedOrderbook_cases (instrumentId : String) (service : DepthService) :
    (∃ hit, service.orderbookCache instrumentId = some hit ∧
      service.now - hit.cachedAt < service.ttl ∧
      service.cachedOrderbook instrumentId = (some hit, service)) ∨
    ∃ cache, (∀ id entry, cache id = some entry → service.orderbookCache id = some entry) ∧
      service.cachedOrderbook instrumentId = (none, { service with orderbookCache := cache }) := by
  unfold cachedOrderbook
  cases found : service.orderbookCache instrumentId with
  | none => exact .inr ⟨service.orderbookCache, fun _ _ isEntry => isEntry, rfl⟩
  | some cached =>
    dsimp only
    split_ifs with fresh
    · exact .inl ⟨cached, rfl, fresh, rfl⟩
    · refine .inr ⟨_, ?_, rfl⟩
      intro id entry isEntry
      by_cases same : id = instrumentId
      · rw [same, Function.update_self] at isEntry
        cases isEntry
      · rw [Function.update_of_ne same] at isEntry
        exact isEntry

variable {service : DepthService}

section

variable (invariant : Invariant service)
include invariant

theorem Invariant.updateOrderbook
    (shown : ∀ book ∈ service.books instrumentId, book.Shows depth data) :
    Invariant (service.updateOrderbook instrumentId depth data) := by
  apply invariant.later
  · exact invariant.current
  · exact le_rfl
  · exact fun _ member => member
  · intro id entry isEntry
    by_cases same : id = instrumentId
    · right
      rw [same] at isEntry ⊢
      have isNew := (Function.update_self ..).symm.trans isEntry
      rw [← Option.some.inj isNew]
      constructor
      · exact le_rfl
      · exact shown
      · intro book isBook
        exact ⟨_, invariant.current, rfl, isBook⟩
    · left
      rw [← isEntry]
      exact (Function.update_of_ne same _ _).symm

theorem Invariant.getOrderbookSnapshot
    (answers : service.Answers (.getOrderbookSnapshot instrumentId depth nanos)) :
    service.Live (.getOrderbookSnapshot instrumentId depth nanos) ∧
      Invariant (service.getOrderbookSnapshot instrumentId depth nanos).2 := by
  unfold Live Answers at *
  dsimp only at answers ⊢
  rw [DepthService.getOrderbookSnapshot]
  rcases service.cachedOrderbook_cases instrumentId with
    ⟨hit, isEntry, fresh, isHit⟩ | ⟨cache, kept, isMiss⟩
  · rw [isHit] at answers ⊢
    dsimp only at answers ⊢
    rcases answers with ⟨book, isBook, sameDepth⟩
    have right := invariant.cached instrumentId hit isEntry
    rcases right.atMoment book isBook with ⟨moment, member, atTime, isThen⟩
    have shown := right.shown book isBook
    have notLater := right.notLater
    refine ⟨⟨moment, member, ?_, book, isThen, ?_⟩, invariant⟩
    · omega
    · exact ⟨shown.1.trans sameDepth.1.symm, shown.2.trans sameDepth.2.symm⟩
  · have invariantMiss : Invariant { service with orderbookCache := cache } := by
      apply invariant.later
      · exact invariant.current
      · exact le_rfl
      · exact fun _ member => member
      · intro id entry isEntry
        exact .inl (kept id entry isEntry)
    have sameStorage : loadOrderbookFromStorage instrumentId nanos
        { service with orderbookCache := cache } =
        service.loadOrderbookFromStorage instrumentId nanos := rfl
    rw [isMiss] at answers ⊢
    dsimp only at answers ⊢
    rw [sameStorage]
    have inTime : service.now ≤ service.now + service.ttl := Nat.le_add_right _ _
    cases loaded : service.loadOrderbookFromStorage instrumentId nanos with
    | ok data =>
      rw [loaded] at answers
      rcases answers with ⟨book, isBook, shown⟩
      refine ⟨⟨_, invariant.current, inTime, book, isBook, shown⟩, ?_⟩
      apply invariantMiss.updateOrderbook
      intro other isOther
      have same : other = book := Option.some.inj (isOther.symm.trans isBook)
      exact same ▸ shown
    | error text =>
      rw [loaded] at answers
      dsimp only at answers ⊢
      cases isBook : service.books instrumentId with
      | none => exact ⟨rfl, invariantMiss⟩
      | some book =>
        have shown := (answers book isBook).shows instrumentId (nanos.tdiv 1000000)
        refine ⟨⟨_, invariant.current, inTime, book, isBook, shown⟩, ?_⟩
        apply invariantMiss.updateOrderbook
        intro other isOther
        have same : other = book := Option.some.inj (isOther.symm.trans isBook)
        exact same ▸ shown

theorem Invariant.live (answers : service.Answers input) : service.Live input := by
  cases input with
  | getOrderbookSnapshot instrumentId depth nanos =>
    exact (invariant.getOrderbookSnapshot answers).1
  | _ => trivial

theorem Invariant.recover (minutes nanos : ℤ) :
    Invariant (service.recoverRecentMarketData minutes nanos) := by
  unfold recoverRecentMarketData
  cases service.storage with
  | none => exact invariant
  | some rangeQuery =>
    dsimp only
    cases rangeQuery (nanos - minutes * 60 * 1000000000) nanos with
    | error text => exact invariant
    | ok records =>
      apply invariant.later
      · exact invariant.current
      · exact le_rfl
      · exact fun _ member => member
      · intro id entry isEntry
        dsimp only at isEntry
        cases found : latestSnapshots records id with
        | none =>
          rw [found] at isEntry
          exact .inl isEntry
        | some snapshot =>
          rw [found] at isEntry
          cases isEntry
          right
          constructor
          · exact le_rfl
          · intro book absent
            cases absent
          · intro book absent
            cases absent

theorem Invariant.step (answers : service.Answers input) : Invariant (service.step input) := by
  cases input with
  | getOrderbookSnapshot instrumentId depth nanos =>
    exact (invariant.getOrderbookSnapshot answers).2.noted
  | recoverRecentMarketData minutes nanos => exact (invariant.recover minutes nanos).noted
  | changeStorage storage =>
    apply invariant.later
    · exact List.mem_append_right _ (List.mem_singleton_self _)
    · exact le_rfl
    · exact fun _ member => List.mem_append_left _ member
    · exact fun _ _ isEntry => .inl isEntry
  | changeBooks books =>
    apply invariant.later
    · exact List.mem_append_right _ (List.mem_singleton_self _)
    · exact le_rfl
    · exact fun _ member => List.mem_append_left _ member
    · exact fun _ _ isEntry => .inl isEntry
  | elapse nanos =>
    apply invariant.later
    · exact List.mem_append_right _ (List.mem_singleton_self _)
    · exact Nat.le_add_right _ _
    · exact fun _ member => List.mem_append_left _ member
    · exact fun _ _ isEntry => .inl isEntry

end

/-- Whatever happens to books and storage between the queries, each answer shows the live
depth. -/
theorem live_of_answers (ttlMs : ℕ) (storage : Option RangeQuery) (books : LiveBooks) (now : ℕ)
    {inputs : List Input} (along : Along step Answers inputs (new ttlMs storage books now)) :
    Along step Live inputs (new ttlMs storage books now) :=
  along.imp Invariant (fun _ _ invariant => invariant.live) (fun _ _ invariant => invariant.step)
    (invariant_new ttlMs storage books now)

def twoLevels : LiveBooks := fun instrumentId =>
  if instrumentId = "IF" then some ⟨[⟨2, 1⟩, ⟨1, 1⟩], [], 2⟩ else none

/-- The second query asks for more levels than the first one. -/
theorem deeperQuery_not_live :
    ¬Along step Live [.getOrderbookSnapshot "IF" 1 0, .getOrderbookSnapshot "IF" 2 0]
      (new 100 none twoLevels 0) := by
  decide +kernel

/-- The same depth from the cache, and another one when the entry is too old. -/
theorem expiredEntry_live :
    Along step Live [.getOrderbookSnapshot "IF" 1 0, .changeBooks fun _ => none,
      .getOrderbookSnapshot "IF" 1 0, .changeBooks twoLevels, .elapse 200000000,
      .getOrderbookSnapshot "IF" 2 0] (new 100 none twoLevels 0) := by
  apply live_of_answers
  decide +kernel

end DepthService

end QAExchange
