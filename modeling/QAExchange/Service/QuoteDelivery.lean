import QAExchange.Foundation.Runs
import QAExchange.Service.QuoteForwarding

/-! # Market events that reach the client

A bar is sent on the channel `kline_finished`, while the subscription asks for `kline`. An
empty list leaves the last subscription as it is, and the task of a subscription that was
replaced pushes what it has left beside the new one.
-/

namespace QAExchange

open Foundation

def FormerForwarder.left (forwarder : FormerForwarder) : List MarketDataEvent :=
  forwarder.handling.toList ++ forwarder.remaining

namespace QuoteForwarding

variable (showF64 : ℚ → String) (userId : String)

def patchOf (event : MarketDataEvent) : Option Value :=
  match convertMarketEventToDiff showF64 event with
  | .ok patch => patch
  | .error _ => none

def currentLeft (state : QuoteForwarding) : List MarketDataEvent :=
  state.current.handling.toList ++
    match state.broadcaster.subscribers userId with
    | none => []
    | some info => info.queue

def left (state : QuoteForwarding) : List MarketDataEvent :=
  state.former.flatMap FormerForwarder.left ++ currentLeft userId state

def merged (state : QuoteForwarding) : List Value :=
  state.pushed.filterMap PushedPatch.market?

/-- The patches of the events that the client asks for are merged in the order of the
broadcasts, and all of them are when the tasks have nothing left. -/
structure Delivers (state : QuoteForwarding) : Prop where
  inOrder : merged state <+: state.expected.filterMap (patchOf showF64)
  complete : left userId state = [] →
    merged state = state.expected.filterMap (patchOf showF64)

/-! ## The condition -/

def isKLine : MarketDataEvent → Bool
  | .KLineFinished .. => true
  | _ => false

def isUpdate : MarketDataEvent → Bool
  | .OrderBookUpdate .. => true
  | _ => false

/-- The channel has room for the event. No bar of the list is finished, and after an empty
list nothing that the last subscription takes is broadcast but updates of the book. -/
def Agreed (event : MarketDataEvent) (state : QuoteForwarding) : Prop :=
  (∀ info ∈ state.broadcaster.subscribers userId, info.subscription.takes event = true →
      info.queue.length < state.broadcaster.config.channelCapacity ∧
        (state.wanted = [] → isUpdate event = true)) ∧
    ¬ (isKLine event = true ∧ state.wants event = true)

instance (event : MarketDataEvent) (state : QuoteForwarding) :
    Decidable (Agreed userId event state) := inferInstanceAs (Decidable (_ ∧ _))

/-- The first tasks have nothing left. -/
def FirstDone (count : ℕ) (state : QuoteForwarding) : Prop :=
  ∀ forwarder ∈ state.former.take count, forwarder.left = []

/-- A task pushes when those of the subscriptions before its own have nothing left. -/
def InTurn (state : QuoteForwarding) : Input → Prop
  | .broadcast event => Agreed userId event state
  | .push none => FirstDone state.former.length state
  | .push (some index) => FirstDone index state
  | .subscribeQuote _ | .receive _ => True

instance (count : ℕ) (state : QuoteForwarding) : Decidable (FirstDone count state) :=
  inferInstanceAs (Decidable (∀ forwarder ∈ state.former.take count, forwarder.left = []))

instance (state : QuoteForwarding) : ∀ input, Decidable (InTurn userId state input)
  | .broadcast event => inferInstanceAs (Decidable (Agreed userId event state))
  | .push none => inferInstanceAs (Decidable (FirstDone state.former.length state))
  | .push (some index) => inferInstanceAs (Decidable (FirstDone index state))
  | .subscribeQuote _ => .isTrue trivial
  | .receive _ => .isTrue trivial

/-! ## The invariant -/

/-- The subscription of the user is the one of its last list that was not empty. -/
structure Subscribed (state : QuoteForwarding) (info : SubscriberInfo) : Prop where
  running : state.current.running = true
  connected : info.connected = true
  channels : info.subscription.channels = quoteChannels
  instruments : info.subscription.instruments ≠ []
  wanted : state.wanted ≠ [] → info.subscription.instruments = state.wanted

structure Invariant (state : QuoteForwarding) : Prop where
  accounted : merged state ++ (left userId state).filterMap (patchOf showF64) =
    state.expected.filterMap (patchOf showF64)
  settled : ∀ forwarder ∈ state.former, forwarder.running = false → forwarder.left = []
  onChannel : ∀ event ∈ left userId state, event.channel ∈ quoteChannels
  absent : state.broadcaster.subscribers userId = none →
    state.wanted = [] ∧ state.current.handling = none
  subscribed : ∀ info, state.broadcaster.subscribers userId = some info → Subscribed state info

variable {showF64 userId}

theorem Invariant.delivers (invariant : Invariant showF64 userId state) :
    Delivers showF64 userId state where
  inOrder := ⟨_, invariant.accounted⟩
  complete := by
    intro nothing
    have accounted := invariant.accounted
    rw [nothing, List.filterMap_nil, List.append_nil] at accounted
    exact accounted

theorem invariant_new (config : BroadcasterConfig) : Invariant showF64 userId (new config) where
  accounted := rfl
  settled _ member := nomatch member
  onChannel _ member := nomatch member
  absent _ := ⟨rfl, rfl⟩
  subscribed _ found := nomatch found

theorem convert_of_onChannel {event : MarketDataEvent} (onChannel : event.channel ∈ quoteChannels) :
    convertMarketEventToDiff showF64 event = .ok (patchOf showF64 event) := by
  cases event with
  | KLineFinished instrumentId period kline timestamp =>
    have other : "kline_finished" ∉ quoteChannels := by decide
    exact absurd onChannel other
  | _ => rfl

theorem pushEvent_of_onChannel {forwarder : Forwarder} (handles : forwarder.handling = some event)
    (onChannel : event.channel ∈ quoteChannels) :
    pushEvent showF64 forwarder =
      ((patchOf showF64 event).toList.map .market, { forwarder with handling := none }) := by
  simp only [pushEvent, handles, convert_of_onChannel onChannel]
  cases patchOf showF64 event <;> rfl

theorem pushEvent_none {forwarder : Forwarder} (handlesNone : forwarder.handling = none) :
    pushEvent showF64 forwarder = ([], forwarder) := by
  simp only [pushEvent, handlesNone]

theorem market_patches (patches : List Value) :
    (patches.map PushedPatch.market).filterMap PushedPatch.market? = patches := by
  induction patches with
  | nil => rfl
  | cons patch patches induction => exact congrArg (patch :: ·) induction

/-! ## The steps -/

section Steps

variable {state : QuoteForwarding}

theorem left_receiveFormer {forwarder : FormerForwarder}
    (settled : forwarder.running = false → forwarder.left = []) :
    (receiveFormer forwarder).left = forwarder.left ∧
      ((receiveFormer forwarder).running = false → (receiveFormer forwarder).left = []) := by
  rw [receiveFormer]
  split_ifs with idle
  · exact ⟨rfl, settled⟩
  · rcases not_or.mp idle with ⟨running, notHandling⟩
    have handlesNone : forwarder.handling = none := Option.not_isSome_iff_eq_none.mp notHandling
    cases remaining : forwarder.remaining with
    | nil =>
      constructor
      · simp [FormerForwarder.left, remaining]
      · intro _
        simp [FormerForwarder.left, handlesNone]
    | cons event rest =>
      constructor
      · simp [FormerForwarder.left, handlesNone, remaining]
      · intro stopped
        exact absurd stopped running

theorem split_former {forwarders : List FormerForwarder} {index : ℕ}
    {forwarder : FormerForwarder} (found : forwarders[index]? = some forwarder) :
    ∃ before after, forwarders = before ++ forwarder :: after ∧ forwarders.take index = before ∧
      ∀ other, forwarders.set index other = before ++ other :: after := by
  rcases List.getElem?_eq_some_iff.mp found with ⟨inside, same⟩
  refine ⟨forwarders.take index, forwarders.drop (index + 1), ?_, rfl, ?_⟩
  · rw [← same, List.getElem_cons_drop, List.take_append_drop]
  · intro other
    rw [List.set_eq_take_append_cons_drop, if_pos inside]

theorem flatMap_split (before after : List FormerForwarder) (forwarder : FormerForwarder) :
    (before ++ forwarder :: after).flatMap FormerForwarder.left =
      before.flatMap FormerForwarder.left ++
        (forwarder.left ++ after.flatMap FormerForwarder.left) := by
  rw [List.flatMap_append, List.flatMap_cons]

theorem Subscribed.congr {after : QuoteForwarding} (subscribed : Subscribed state info)
    (running : after.current.running = true) (wanted : after.wanted = state.wanted) :
    Subscribed after info where
  running := running
  connected := subscribed.connected
  channels := subscribed.channels
  instruments := subscribed.instruments
  wanted := by
    rw [wanted]
    exact subscribed.wanted

theorem Invariant.receiveFormerAt (invariant : Invariant showF64 userId state) (index : ℕ) :
    Invariant showF64 userId (QuoteForwarding.receiveFormerAt index state) := by
  rw [QuoteForwarding.receiveFormerAt]
  cases found : state.former[index]? with
  | none => exact invariant
  | some forwarder =>
    rcases split_former found with ⟨before, after, split, _, replaced⟩
    have member : forwarder ∈ state.former := List.mem_of_getElem? found
    rcases left_receiveFormer (invariant.settled forwarder member) with ⟨sameOne, settledOne⟩
    have sameLeft : left userId { state with
        former := state.former.set index (receiveFormer forwarder) } = left userId state := by
      change (state.former.set index (receiveFormer forwarder)).flatMap
        FormerForwarder.left ++ currentLeft userId state = left userId state
      rw [left, replaced, flatMap_split, sameOne, ← flatMap_split, ← split]
    refine ⟨?_, ?_, ?_, invariant.absent, ?_⟩
    · rw [sameLeft]
      exact invariant.accounted
    · intro other isOther
      change other ∈ state.former.set index (receiveFormer forwarder) at isOther
      rcases List.mem_or_eq_of_mem_set isOther with isOld | rfl
      · exact invariant.settled other isOld
      · exact settledOne
    · rw [sameLeft]
      exact invariant.onChannel
    · intro info isInfo
      have subscribed := invariant.subscribed info isInfo
      exact subscribed.congr subscribed.running rfl

/-- The event that comes next is pushed. -/
theorem Invariant.accounted_push (invariant : Invariant showF64 userId state)
    (wasLeft : left userId state = event :: events) (isLeft : left userId after = events)
    (pushed : after.pushed = state.pushed ++ (patchOf showF64 event).toList.map .market)
    (expected : after.expected = state.expected) :
    merged after ++ (left userId after).filterMap (patchOf showF64) =
      after.expected.filterMap (patchOf showF64) := by
  have accounted := invariant.accounted
  have next : (event :: events).filterMap (patchOf showF64) =
      (patchOf showF64 event).toList ++ events.filterMap (patchOf showF64) := by
    rw [List.filterMap_cons]
    cases patchOf showF64 event <;> rfl
  rw [wasLeft, next] at accounted
  rw [expected, isLeft, ← accounted, merged, pushed, List.filterMap_append, market_patches,
    List.append_assoc]
  rfl

/-- A task that pushes has its event in turn, and what it has left comes next. -/
theorem Invariant.pushFormer (invariant : Invariant showF64 userId state) (index : ℕ)
    (firstDone : FirstDone index state) :
    Invariant showF64 userId (QuoteForwarding.pushFormer showF64 index state) := by
  rw [QuoteForwarding.pushFormer]
  cases found : state.former[index]? with
  | none => exact invariant
  | some forwarder =>
    rcases split_former found with ⟨before, after, split, isBefore, replaced⟩
    dsimp only
    cases handles : forwarder.handling with
    | none =>
      rw [pushEvent_none handles, List.append_nil, replaced, ← split]
      exact invariant
    | some event =>
      have nothingBefore : before.flatMap FormerForwarder.left = [] := by
        apply List.flatMap_eq_nil_iff.mpr
        rw [← isBefore]
        exact firstDone
      have wasLeft : left userId state = event :: (forwarder.remaining ++
          after.flatMap FormerForwarder.left ++ currentLeft userId state) := by
        rw [left, split, flatMap_split, nothingBefore, FormerForwarder.left, handles]
        simp
      have onChannel : event.channel ∈ quoteChannels := by
        apply invariant.onChannel
        rw [wasLeft]
        exact List.mem_cons_self
      rw [pushEvent_of_onChannel handles onChannel, replaced]
      have isLeft : ∀ pushed, left userId { state with
          pushed
          former := before ++ { forwarder with handling := none } :: after } =
            forwarder.remaining ++ after.flatMap FormerForwarder.left ++
              currentLeft userId state := by
        intro pushed
        change (before ++ { forwarder with handling := none } :: after).flatMap
          FormerForwarder.left ++ currentLeft userId state = _
        rw [flatMap_split, nothingBefore]
        simp [FormerForwarder.left]
      refine ⟨?_, ?_, ?_, invariant.absent, ?_⟩
      · exact invariant.accounted_push wasLeft (isLeft _) rfl rfl
      · intro other member stopped
        change other ∈ before ++ { forwarder with handling := none } :: after at member
        have wasSettled := invariant.settled
        rw [split] at wasSettled
        rcases List.mem_append.mp member with isBefore | member
        · exact wasSettled other (List.mem_append_left _ isBefore) stopped
        · rcases List.mem_cons.mp member with rfl | isAfter
          · have nothing := wasSettled forwarder
              (List.mem_append_right before List.mem_cons_self) stopped
            rw [FormerForwarder.left, handles] at nothing
            cases nothing
          · exact wasSettled other
              (List.mem_append_right before (List.mem_cons_of_mem _ isAfter)) stopped
      · rw [isLeft]
        intro other member
        apply invariant.onChannel
        rw [wasLeft]
        exact List.mem_cons_of_mem event member
      · intro info isInfo
        have subscribed := invariant.subscribed info isInfo
        exact subscribed.congr subscribed.running rfl

theorem Invariant.receiveCurrent (invariant : Invariant showF64 userId state) :
    Invariant showF64 userId (QuoteForwarding.receiveCurrent userId state) := by
  rw [QuoteForwarding.receiveCurrent]
  split_ifs with idle
  · exact invariant
  · have handlesNone : state.current.handling = none :=
      Option.not_isSome_iff_eq_none.mp (not_or.mp idle).2
    cases found : state.broadcaster.subscribers userId with
    | none => exact invariant
    | some info =>
      dsimp only
      cases queued : info.queue with
      | nil => exact invariant
      | cons event events =>
        have subscribed := invariant.subscribed info found
        have isInfo : (state.broadcaster.read info.receiver).subscribers userId =
            some { info with queue := events } := by
          simp only [MarketDataBroadcaster.read, found, Option.map_some, if_true, queued,
            List.tail_cons]
        have sameLeft : left userId { state with
            broadcaster := state.broadcaster.read info.receiver
            current := { state.current with handling := some event } } =
              left userId state := by
          apply congrArg (state.former.flatMap FormerForwarder.left ++ ·)
          simp only [currentLeft, isInfo, found, handlesNone, queued]
          rfl
        refine ⟨?_, invariant.settled, ?_, ?_, ?_⟩
        · rw [sameLeft]
          exact invariant.accounted
        · rw [sameLeft]
          exact invariant.onChannel
        · intro missing
          change (state.broadcaster.read info.receiver).subscribers userId = none at missing
          rw [isInfo] at missing
          cases missing
        · intro other isOther
          change (state.broadcaster.read info.receiver).subscribers userId = some other
            at isOther
          rw [isInfo] at isOther
          cases isOther
          exact ⟨subscribed.running, subscribed.connected, subscribed.channels,
            subscribed.instruments, subscribed.wanted⟩

theorem broadcasterAfter_eq
    (isRunning : ∀ info, state.broadcaster.subscribers userId = some info → running = true) :
    broadcasterAfter userId running state = state.broadcaster := by
  rw [broadcasterAfter]
  cases found : state.broadcaster.subscribers userId with
  | none => rfl
  | some info => exact if_pos (isRunning info found)

theorem Invariant.pushCurrent (invariant : Invariant showF64 userId state)
    (firstDone : FirstDone state.former.length state) :
    Invariant showF64 userId (QuoteForwarding.pushCurrent showF64 userId state) := by
  have running : ∀ info, state.broadcaster.subscribers userId = some info →
      state.current.running = true := fun info found => (invariant.subscribed info found).running
  rw [QuoteForwarding.pushCurrent]
  cases handles : state.current.handling with
  | none =>
    rw [pushEvent_none handles]
    dsimp only
    rw [broadcasterAfter_eq running, List.append_nil]
    exact invariant
  | some event =>
    have nothingBefore : state.former.flatMap FormerForwarder.left = [] := by
      apply List.flatMap_eq_nil_iff.mpr
      rw [FirstDone, List.take_length] at firstDone
      exact firstDone
    have onChannel : event.channel ∈ quoteChannels := by
      apply invariant.onChannel
      rw [left, currentLeft, handles]
      exact List.mem_append_right _ List.mem_cons_self
    rw [pushEvent_of_onChannel handles onChannel]
    dsimp only
    rw [broadcasterAfter_eq running]
    have wasLeft : left userId state = event ::
        currentLeft userId { state with current := { state.current with handling := none } } := by
      rw [left, nothingBefore, currentLeft, handles]
      rfl
    have isLeft : ∀ pushed, left userId { state with
        pushed
        current := { state.current with handling := none } } =
          currentLeft userId
            { state with current := { state.current with handling := none } } := by
      intro pushed
      change state.former.flatMap FormerForwarder.left ++ _ = _
      rw [nothingBefore]
      rfl
    refine ⟨?_, invariant.settled, ?_, ?_, ?_⟩
    · exact invariant.accounted_push wasLeft (isLeft _) rfl rfl
    · rw [isLeft]
      intro other member
      apply invariant.onChannel
      rw [wasLeft]
      exact List.mem_cons_of_mem event member
    · intro missing
      exact ⟨(invariant.absent missing).1, rfl⟩
    · intro info found
      exact (invariant.subscribed info found).congr (running info found) rfl

theorem Invariant.handleSubscribeQuote (invariant : Invariant showF64 userId state)
    (insList : String) :
    Invariant showF64 userId (QuoteForwarding.handleSubscribeQuote userId insList state) := by
  rw [QuoteForwarding.handleSubscribeQuote]
  by_cases isEmpty : parseInsList insList = []
  · rw [if_pos isEmpty]
    refine ⟨invariant.accounted, invariant.settled, invariant.onChannel, ?_, ?_⟩
    · intro missing
      exact ⟨rfl, (invariant.absent missing).2⟩
    · intro info found
      rcases invariant.subscribed info found with ⟨running, connected, channels, notEmpty, _⟩
      exact ⟨running, connected, channels, notEmpty, fun different => absurd rfl different⟩
  · rw [if_neg isEmpty]
    have detached : (detach userId state).flatMap FormerForwarder.left =
        currentLeft userId state := by
      rw [detach, currentLeft]
      cases found : state.broadcaster.subscribers userId with
      | none =>
        rw [(invariant.absent found).2]
        rfl
      | some info => exact List.append_nil _
    have isInfo : (state.broadcaster.subscribe userId (parseInsList insList)
        quoteChannels).subscribers userId = some
          { receiver := state.broadcaster.receivers
            queue := []
            connected := true
            subscription := ⟨parseInsList insList, quoteChannels⟩
            stats := .new
            sends := [] } := Function.update_self userId _ _
    have sameLeft : ∀ pushed wanted, left userId { state with
        pushed
        former := state.former ++ detach userId state
        current := ⟨none, true⟩
        broadcaster := state.broadcaster.subscribe userId (parseInsList insList) quoteChannels
        wanted } = left userId state := by
      intro pushed wanted
      change (state.former ++ detach userId state).flatMap FormerForwarder.left ++ _ = _
      rw [List.flatMap_append, detached]
      simp only [currentLeft, isInfo]
      exact List.append_nil _
    refine ⟨?_, ?_, ?_, ?_, ?_⟩
    · dsimp only
      rw [sameLeft, ← invariant.accounted, merged, List.filterMap_append]
      change merged state ++ [] ++ _ = _
      rw [List.append_nil]
    · intro forwarder member stopped
      rcases List.mem_append.mp member with isOld | isNew
      · exact invariant.settled forwarder isOld stopped
      · rw [detach] at isNew
        cases found : state.broadcaster.subscribers userId with
        | none =>
          rw [found] at isNew
          cases isNew
        | some info =>
          rw [found] at isNew
          rw [List.mem_singleton.mp isNew] at stopped
          have running := (invariant.subscribed info found).running
          rw [running] at stopped
          cases stopped
    · rw [sameLeft]
      exact invariant.onChannel
    · intro missing
      change (state.broadcaster.subscribe userId _ quoteChannels).subscribers userId = none
        at missing
      rw [isInfo] at missing
      cases missing
    · intro info found
      change (state.broadcaster.subscribe userId _ quoteChannels).subscribers userId = some info
        at found
      rw [isInfo] at found
      cases found
      exact ⟨rfl, rfl, rfl, isEmpty, fun _ => rfl⟩

theorem sendAll_singleton (config : BroadcasterConfig) (info : SubscriberInfo)
    (event : MarketDataEvent) (connected : info.connected = true)
    (roomy : info.subscription.takes event = true → info.queue.length < config.channelCapacity) :
    ∃ stats sends, (info.sendAll config [event]).1 =
      { info with
        queue := if info.subscription.takes event then info.queue ++ [event] else info.queue
        stats, sends } := by
  have notGone : info.connected ≠ false := by
    rw [connected]
    exact nofun
  rw [SubscriberInfo.sendAll]
  by_cases taken : info.subscription.takes event = true
  · rw [if_pos taken, if_pos taken]
    refine ⟨info.stats.recordSuccess, .sent :: info.sends, ?_⟩
    simp only [SubscriberInfo.sendAll, SubscriberInfo.send, if_neg notGone, if_pos (roomy taken)]
  · rw [if_neg taken, if_neg taken]
    exact ⟨info.stats, info.sends, rfl⟩

/-- What is asked for and what is taken differ only in events without a patch. -/
theorem Subscribed.taken_iff (subscribed : Subscribed state info)
    (found : state.broadcaster.subscribers userId = some info)
    (agreed : Agreed userId event state) :
    (state.wants event = true → info.subscription.takes event = true) ∧
      (info.subscription.takes event = true → state.wants event = true ∨
        isUpdate event = true) := by
  have takes : info.subscription.takes event =
      (info.subscription.takesInstrument event.instrumentId &&
        quoteChannels.contains event.channel) := by
    rw [Subscription.takes, subscribed.channels]
    rfl
  have takesInstrument : info.subscription.takesInstrument event.instrumentId =
      info.subscription.instruments.any fun id => instrumentMatches id event.instrumentId := by
    rw [Subscription.takesInstrument, List.isEmpty_eq_false_iff.mpr subscribed.instruments,
      Bool.false_or]
  constructor
  · intro wanted
    have notKLine : isKLine event ≠ true := fun kLine => agreed.2 ⟨kLine, wanted⟩
    rw [wants, Bool.and_eq_true] at wanted
    have notEmpty : state.wanted ≠ [] := by
      intro none
      rw [none] at wanted
      cases wanted.2
    rw [takes, takesInstrument, subscribed.wanted notEmpty, wanted.2, Bool.true_and]
    cases event with
    | KLineFinished instrumentId period kline timestamp => exact absurd rfl notKLine
    | OrderBookUpdate instrumentId side price volume timestamp => cases wanted.1
    | FactorUpdate instrumentId factors period timestamp => cases wanted.1
    | _ => rfl
  · intro taken
    by_cases isEmpty : state.wanted = []
    · exact .inr ((agreed.1 info found taken).2 isEmpty)
    · rw [takes, takesInstrument, subscribed.wanted isEmpty, Bool.and_eq_true] at taken
      cases event with
      | OrderBookUpdate instrumentId side price volume timestamp => exact .inr rfl
      | KLineFinished instrumentId period kline timestamp =>
        have other : quoteChannels.contains "kline_finished" = false := by decide
        rw [MarketDataEvent.channel, other] at taken
        cases taken.2
      | FactorUpdate instrumentId factors period timestamp =>
        have other : quoteChannels.contains "factor" = false := by decide
        rw [MarketDataEvent.channel, other] at taken
        cases taken.2
      | _ => exact .inl taken.1

theorem patchOf_of_isUpdate (update : isUpdate event = true) : patchOf showF64 event = none := by
  cases event with
  | OrderBookUpdate instrumentId side price volume timestamp => rfl
  | _ => cases update

theorem Invariant.broadcastEvent (invariant : Invariant showF64 userId state)
    (agreed : Agreed userId event state) :
    Invariant showF64 userId (QuoteForwarding.broadcastEvent event state) := by
  cases found : state.broadcaster.subscribers userId with
  | none =>
    have isNone : (state.broadcaster.broadcast event).subscribers userId = none := by
      simp only [MarketDataBroadcaster.broadcast, MarketDataBroadcaster.sendToAll, found,
        Option.map_none]
    have notWanted : state.wants event = false := by
      rw [wants, (invariant.absent found).1, List.any_nil, Bool.and_false]
    have sameLeft : left userId (QuoteForwarding.broadcastEvent event state) =
        left userId state := by
      apply congrArg (state.former.flatMap FormerForwarder.left ++ ·)
      simp only [currentLeft, QuoteForwarding.broadcastEvent, isNone, found]
    refine ⟨?_, invariant.settled, ?_, ?_, ?_⟩
    · rw [sameLeft]
      simp only [QuoteForwarding.broadcastEvent, notWanted]
      exact invariant.accounted
    · rw [sameLeft]
      exact invariant.onChannel
    · intro _
      exact invariant.absent found
    · intro info isInfo
      change (state.broadcaster.broadcast event).subscribers userId = some info at isInfo
      rw [isNone] at isInfo
      cases isInfo
  | some info =>
    have subscribed := invariant.subscribed info found
    rcases subscribed.taken_iff found agreed with ⟨takesWanted, wantsTaken⟩
    have roomy : info.subscription.takes event = true →
        info.queue.length < state.broadcaster.config.channelCapacity :=
      fun taken => (agreed.1 info found taken).1
    rcases sendAll_singleton state.broadcaster.config info event subscribed.connected roomy with
      ⟨stats, sends, sent⟩
    have isInfo : (state.broadcaster.broadcast event).subscribers userId = some
        { info with
          queue := if info.subscription.takes event then info.queue ++ [event] else info.queue
          stats, sends } := by
      simp only [MarketDataBroadcaster.broadcast, MarketDataBroadcaster.sendToAll, found,
        Option.map_some, sent]
    have isLeft : left userId (QuoteForwarding.broadcastEvent event state) =
        left userId state ++ if info.subscription.takes event then [event] else [] := by
      simp only [left, currentLeft, QuoteForwarding.broadcastEvent, isInfo, found]
      split_ifs <;> simp
    refine ⟨?_, invariant.settled, ?_, ?_, ?_⟩
    · have accounted := invariant.accounted
      have single : [event].filterMap (patchOf showF64) = (patchOf showF64 event).toList := by
        rw [List.filterMap_cons]
        cases patchOf showF64 event <;> rfl
      rw [isLeft, List.filterMap_append, ← List.append_assoc]
      change merged state ++ _ ++ _ = (if state.wants event then state.expected ++ [event]
        else state.expected).filterMap (patchOf showF64)
      rw [accounted]
      by_cases wanted : state.wants event = true
      · rw [if_pos wanted, if_pos (takesWanted wanted), List.filterMap_append]
      · rw [if_neg wanted]
        by_cases taken : info.subscription.takes event = true
        · have update := (wantsTaken taken).resolve_left wanted
          rw [if_pos taken, single, patchOf_of_isUpdate update]
          exact List.append_nil _
        · rw [if_neg taken]
          exact List.append_nil _
    · rw [isLeft]
      intro other member
      rcases List.mem_append.mp member with isOld | isNew
      · exact invariant.onChannel other isOld
      · by_cases taken : info.subscription.takes event = true
        · rw [if_pos taken] at isNew
          rw [List.mem_singleton.mp isNew]
          rw [Subscription.takes, Bool.and_eq_true, subscribed.channels] at taken
          exact List.contains_iff_mem.mp taken.2
        · rw [if_neg taken] at isNew
          cases isNew
    · intro missing
      change (state.broadcaster.broadcast event).subscribers userId = none at missing
      rw [isInfo] at missing
      cases missing
    · intro other isOther
      change (state.broadcaster.broadcast event).subscribers userId = some other at isOther
      rw [isInfo] at isOther
      cases isOther
      exact ⟨subscribed.running, subscribed.connected, subscribed.channels,
        subscribed.instruments, subscribed.wanted⟩

theorem Invariant.step (invariant : Invariant showF64 userId state) (input : Input)
    (inTurn : InTurn userId state input) :
    Invariant showF64 userId (QuoteForwarding.step showF64 userId state input) := by
  cases input with
  | subscribeQuote insList => exact invariant.handleSubscribeQuote insList
  | broadcast event => exact invariant.broadcastEvent inTurn
  | receive former =>
    cases former with
    | none => exact invariant.receiveCurrent
    | some index => exact invariant.receiveFormerAt index
  | push former =>
    cases former with
    | none => exact invariant.pushCurrent inTurn
    | some index => exact invariant.pushFormer index inTurn

end Steps

/-- In every run in which no bar of the list is finished, nothing of the last subscription is
broadcast after an empty list, and the tasks push in turn, the client gets the patches of the
events of its list in order. -/
theorem deliversQuotes_of_along (showF64 : ℚ → String) (userId : String) (config : BroadcasterConfig)
    (inputs : List Input) (inTurn : Along (step showF64 userId) (InTurn userId) inputs
      (new config)) : Delivers showF64 userId (inputs.foldl (step showF64 userId) (new config)) := by
  have invariant : Invariant showF64 userId (inputs.foldl (step showF64 userId) (new config)) := by
    apply foldl_along (Invariant showF64 userId) _ inTurn (invariant_new config)
    intro state input holds allowed
    exact holds.step input allowed
  exact invariant.delivers

def showWhole (number : ℚ) : String := toString number.num ++ ".0"

def config : BroadcasterConfig := ⟨10000, 5⟩

def subscribeAndTrade : List Input :=
  [.subscribeQuote "SHFE.cu2501, IF2501", .broadcast (.LastPrice "CFFEX.IF2501" 3800 1),
    .receive none, .push none]

theorem subscribeAndTrade_delivers :
    Delivers showWhole "u1" (subscribeAndTrade.foldl (step showWhole "u1") (new config)) :=
  deliversQuotes_of_along showWhole "u1" config subscribeAndTrade (by decide +kernel)

def minuteBar : KLine := ⟨60000, 1, 2, 1, 2, 5, 8, 0, 0, true⟩

def finishBar : List Input :=
  [.subscribeQuote "IF2501", .broadcast (.KLineFinished "IF2501" 4 minuteBar 120000)]

def emptyTheList : List Input :=
  [.subscribeQuote "IF2501", .subscribeQuote "", .broadcast (.LastPrice "IF2501" 3800 1),
    .receive none, .push none]

/-- The task of the first list pushes after that of the second one. -/
def extendTheList : List Input :=
  [.subscribeQuote "IF2501", .broadcast (.LastPrice "IF2501" 3800 1),
    .subscribeQuote "IF2501,cu2501", .broadcast (.LastPrice "IF2501" 3801 2),
    .receive none, .push none, .receive (some 0), .push (some 0)]

/-- The last price of IF2501 in a patch. -/
def lastPriceOf (patch : Value) : Option String := do
  let quotes ← getField "quotes" patch.asObject
  let quote ← getField "IF2501" quotes.asObject
  match ← getField "last_price" quote.asObject with
  | .number text => some text
  | _ => none

theorem quotes_not_delivered :
    ¬ Delivers showWhole "u1" (finishBar.foldl (step showWhole "u1") (new config)) ∧
      ¬ Delivers showWhole "u1" (emptyTheList.foldl (step showWhole "u1") (new config)) ∧
      ¬ Delivers showWhole "u1" (extendTheList.foldl (step showWhole "u1") (new config)) := by
  have lacksBar : left "u1" (finishBar.foldl (step showWhole "u1") (new config)) = [] := by
    decide +kernel
  have nothingElse : (merged (finishBar.foldl (step showWhole "u1") (new config))).length <
      ((finishBar.foldl (step showWhole "u1") (new config)).expected.filterMap
        (patchOf showWhole)).length := by
    decide +kernel
  have tooMuch : ((emptyTheList.foldl (step showWhole "u1") (new config)).expected.filterMap
      (patchOf showWhole)).length <
        (merged (emptyTheList.foldl (step showWhole "u1") (new config))).length := by
    decide +kernel
  refine ⟨?_, ?_, ?_⟩
  · intro delivers
    rw [delivers.complete lacksBar] at nothingElse
    exact absurd nothingElse (lt_irrefl _)
  · intro delivers
    exact absurd delivers.inOrder.length_le (not_le.mpr tooMuch)
  · intro delivers
    have ordered := (delivers.inOrder.map lastPriceOf).eq_of_length (by decide +kernel)
    revert ordered
    decide +kernel

end QuoteForwarding

end QAExchange
