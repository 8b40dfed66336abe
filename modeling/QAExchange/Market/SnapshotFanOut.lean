import QAExchange.Foundation.Runs

/-! # The fan-out of market snapshots

The generator sends its snapshots into one channel. Every subscriber has a thread of its own
that takes snapshots out of this channel and puts them into the channel of the subscriber.
-/

namespace QAExchange

open Foundation

variable {Snapshot : Type}

/-- A snapshot and how many have been sent before it. -/
structure SentSnapshot (Snapshot : Type) where
  number : ℕ
  snapshot : Snapshot
  deriving DecidableEq

/-- A subscriber and its forwarding thread. `since` is a history variable: how many snapshots had
been sent when it subscribed. -/
structure SnapshotSubscriber (Snapshot : Type) where
  since : ℕ
  running : Bool
  held : Option (SentSnapshot Snapshot)
  channel : List (SentSnapshot Snapshot)
  connected : Bool
  received : List (SentSnapshot Snapshot)

/-- `sent` is a history variable: all snapshots that have been sent. -/
structure MarketSnapshotGenerator (Snapshot : Type) where
  snapshotRx : List (SentSnapshot Snapshot)
  sent : List (SentSnapshot Snapshot)
  subscribers : List (SnapshotSubscriber Snapshot)

namespace MarketSnapshotGenerator

def new : MarketSnapshotGenerator Snapshot where
  snapshotRx := []
  sent := []
  subscribers := []

def send (snapshot : Snapshot) (generator : MarketSnapshotGenerator Snapshot) :
    MarketSnapshotGenerator Snapshot :=
  { generator with
    snapshotRx := generator.snapshotRx ++ [⟨generator.sent.length, snapshot⟩]
    sent := generator.sent ++ [⟨generator.sent.length, snapshot⟩] }

def subscribe (generator : MarketSnapshotGenerator Snapshot) : MarketSnapshotGenerator Snapshot :=
  { generator with
    subscribers := generator.subscribers ++
      [{ since := generator.sent.length
         running := true
         held := none
         channel := []
         connected := true
         received := [] }] }

/-- The steps of a subscriber: its thread calls `try_recv`, or sends what it has taken, which
fails without a receiver and ends the thread; the receiver takes a snapshot out of its channel,
or is dropped. -/
inductive SubscriberStep
  | tryRecv
  | forward
  | receive
  | dropReceiver

inductive Input (Snapshot : Type)
  | send (snapshot : Snapshot)
  | subscribe
  | step (index : ℕ) (step : SubscriberStep)

end MarketSnapshotGenerator

namespace SnapshotSubscriber

def Takes (subscriber : SnapshotSubscriber Snapshot) : Prop :=
  subscriber.running = true ∧ subscriber.held = none

instance (subscriber : SnapshotSubscriber Snapshot) : Decidable subscriber.Takes :=
  decidable_of_iff (subscriber.running = true ∧ subscriber.held.isNone = true)
    (and_congr_right fun _ => Option.isNone_iff_eq_none)

def advance (snapshotRx : List (SentSnapshot Snapshot)) (subscriber : SnapshotSubscriber Snapshot) :
    MarketSnapshotGenerator.SubscriberStep →
      List (SentSnapshot Snapshot) × SnapshotSubscriber Snapshot
  | .tryRecv =>
    match snapshotRx with
    | [] => ([], subscriber)
    | snapshot :: rest =>
      if subscriber.Takes then (rest, { subscriber with held := some snapshot })
      else (snapshot :: rest, subscriber)
  | .forward =>
    match subscriber.held with
    | none => (snapshotRx, subscriber)
    | some snapshot =>
      if subscriber.connected then
        (snapshotRx, { subscriber with
          channel := subscriber.channel ++ [snapshot]
          held := none })
      else (snapshotRx, { subscriber with
        running := false
        held := none })
  | .receive =>
    match subscriber.channel with
    | [] => (snapshotRx, subscriber)
    | snapshot :: rest => (snapshotRx, { subscriber with
        channel := rest
        received := subscriber.received ++ [snapshot] })
  | .dropReceiver => (snapshotRx, { subscriber with connected := false })

def got (subscriber : SnapshotSubscriber Snapshot) : List (SentSnapshot Snapshot) :=
  subscriber.received ++ subscriber.channel ++ subscriber.held.toList

/-- The snapshots that were sent after its subscription. -/
def isSince (subscriber : SnapshotSubscriber Snapshot) (snapshot : SentSnapshot Snapshot) : Bool :=
  decide (subscriber.since ≤ snapshot.number)

end SnapshotSubscriber

namespace MarketSnapshotGenerator

def step (generator : MarketSnapshotGenerator Snapshot) :
    Input Snapshot → MarketSnapshotGenerator Snapshot
  | .send snapshot => generator.send snapshot
  | .subscribe => generator.subscribe
  | .step index step =>
    match generator.subscribers[index]? with
    | none => generator
    | some subscriber =>
      let moved := subscriber.advance generator.snapshotRx step
      { generator with
        snapshotRx := moved.1
        subscribers := generator.subscribers.set index moved.2 }

end MarketSnapshotGenerator

namespace SnapshotSubscriber

variable {sent rest : List (SentSnapshot Snapshot)} {subscriber : SnapshotSubscriber Snapshot}

/-- Every snapshot since its subscription has come to a subscriber or can still come to it, once
and in the order of sending, as long as it has its receiver. -/
def Gets (sent snapshotRx : List (SentSnapshot Snapshot))
    (subscriber : SnapshotSubscriber Snapshot) : Prop :=
  subscriber.connected = true →
    (subscriber.got ++ snapshotRx).filter subscriber.isSince = sent.filter subscriber.isSince

instance [DecidableEq Snapshot] (sent snapshotRx : List (SentSnapshot Snapshot))
    (subscriber : SnapshotSubscriber Snapshot) : Decidable (subscriber.Gets sent snapshotRx) :=
  inferInstanceAs (Decidable (_ → _))

theorem Gets.send (gets : subscriber.Gets sent snapshotRx) (snapshot : SentSnapshot Snapshot) :
    subscriber.Gets (sent ++ [snapshot]) (snapshotRx ++ [snapshot]) := by
  intro connected
  rw [← List.append_assoc, List.filter_append, gets connected, List.filter_append]

theorem gets_taken_iff {snapshot : SentSnapshot Snapshot}
    (gets : subscriber.Gets sent (snapshot :: rest)) :
    subscriber.Gets sent rest ↔
      (subscriber.connected = true → subscriber.isSince snapshot = false) := by
  apply imp_congr_right
  intro connected
  have before := gets connected
  rw [List.filter_append, List.filter_cons] at before
  rw [List.filter_append, ← before]
  cases mine : subscriber.isSince snapshot with
  | false => simp
  | true =>
    apply iff_of_false _ (by decide)
    intro same
    have lengths := congrArg List.length same
    rw [if_pos rfl, List.length_append, List.length_append, List.length_cons] at lengths
    omega

theorem Gets.advance (gets : subscriber.Gets sent snapshotRx)
    (step : MarketSnapshotGenerator.SubscriberStep) :
    (subscriber.advance snapshotRx step).2.Gets sent (subscriber.advance snapshotRx step).1 := by
  cases step with
  | tryRecv =>
    unfold SnapshotSubscriber.advance
    cases snapshotRx with
    | nil => exact gets
    | cons snapshot rest =>
      dsimp only
      split_ifs with takes
      · intro connected
        have before := gets connected
        rw [got, takes.2, Option.toList_none, List.append_nil] at before
        rw [got, Option.toList_some, List.append_assoc _ [snapshot], List.singleton_append]
        exact before
      · exact gets
  | forward =>
    unfold SnapshotSubscriber.advance
    cases isHeld : subscriber.held with
    | none => exact gets
    | some snapshot =>
      dsimp only
      split_ifs with isConnected
      · intro connected
        have before := gets connected
        rw [got, isHeld, Option.toList_some] at before
        rw [got, Option.toList_none, List.append_nil, ← List.append_assoc]
        exact before
      · intro connected
        exact absurd connected isConnected
  | receive =>
    unfold SnapshotSubscriber.advance
    cases waiting : subscriber.channel with
    | nil => exact gets
    | cons snapshot rest =>
      intro connected
      have before := gets connected
      rw [got, waiting] at before
      rw [got, List.append_assoc _ [snapshot], List.singleton_append]
      exact before
  | dropReceiver =>
    intro connected
    cases connected

theorem advance_snapshotRx (snapshotRx : List (SentSnapshot Snapshot))
    (subscriber : SnapshotSubscriber Snapshot) (step : MarketSnapshotGenerator.SubscriberStep) :
    (subscriber.advance snapshotRx step).1 = snapshotRx ∧
        ¬(step = .tryRecv ∧ subscriber.Takes ∧ snapshotRx ≠ []) ∨
      ∃ snapshot rest, step = .tryRecv ∧ subscriber.Takes ∧ snapshotRx = snapshot :: rest ∧
        (subscriber.advance snapshotRx step).1 = rest := by
  cases step with
  | tryRecv =>
    cases snapshotRx with
    | nil => exact .inl ⟨rfl, fun takes => takes.2.2 rfl⟩
    | cons snapshot rest =>
      rw [SnapshotSubscriber.advance]
      split_ifs with takes
      · exact .inr ⟨snapshot, rest, rfl, takes, rfl, rfl⟩
      · exact .inl ⟨rfl, fun taken => takes taken.2.1⟩
  | forward =>
    refine .inl ⟨?_, fun taken => by cases taken.1⟩
    unfold SnapshotSubscriber.advance
    cases subscriber.held with
    | none => rfl
    | some snapshot =>
      dsimp only
      split_ifs
      · rfl
      · rfl
  | receive =>
    refine .inl ⟨?_, fun taken => by cases taken.1⟩
    unfold SnapshotSubscriber.advance
    cases subscriber.channel with
    | nil => rfl
    | cons snapshot rest => rfl
  | dropReceiver => exact .inl ⟨rfl, fun taken => by cases taken.1⟩

end SnapshotSubscriber

namespace MarketSnapshotGenerator

def FansOut (generator : MarketSnapshotGenerator Snapshot) : Prop :=
  ∀ subscriber ∈ generator.subscribers, subscriber.Gets generator.sent generator.snapshotRx

instance [DecidableEq Snapshot] (generator : MarketSnapshotGenerator Snapshot) :
    Decidable generator.FansOut :=
  inferInstanceAs (Decidable (∀ subscriber ∈ generator.subscribers, _))

def TakesOwn (generator : MarketSnapshotGenerator Snapshot) : Input Snapshot → Prop
  | .step index .tryRecv => ∀ subscriber ∈ generator.subscribers[index]?, subscriber.Takes →
      ∀ snapshot ∈ generator.snapshotRx.head?,
        ∀ other ∈ generator.subscribers.eraseIdx index, other.connected = true →
          other.isSince snapshot = false
  | _ => True

def Numbered (generator : MarketSnapshotGenerator Snapshot) : Prop :=
  (∀ snapshot ∈ generator.sent, snapshot.number < generator.sent.length) ∧
    ∀ snapshot ∈ generator.snapshotRx, snapshot ∈ generator.sent

theorem step_cases (generator : MarketSnapshotGenerator Snapshot) (index : ℕ)
    (step : SubscriberStep) :
    (generator.subscribers[index]? = none ∧ generator.step (.step index step) = generator) ∨
    ∃ before subscriber after, generator.subscribers = before ++ subscriber :: after ∧
      generator.subscribers[index]? = some subscriber ∧
      generator.subscribers.eraseIdx index = before ++ after ∧
      generator.step (.step index step) =
        { generator with
          snapshotRx := (subscriber.advance generator.snapshotRx step).1
          subscribers :=
            before ++ (subscriber.advance generator.snapshotRx step).2 :: after } := by
  cases found : generator.subscribers[index]? with
  | none =>
    refine .inl ⟨rfl, ?_⟩
    simp only [MarketSnapshotGenerator.step, found]
  | some subscriber =>
    rcases List.getElem?_eq_some_iff.mp found with ⟨inside, isSubscriber⟩
    refine .inr ⟨generator.subscribers.take index, subscriber,
      generator.subscribers.drop (index + 1), ?_, rfl, List.eraseIdx_eq_take_drop_succ .., ?_⟩
    · rw [← isSubscriber, List.getElem_cons_drop, List.take_append_drop]
    · simp only [MarketSnapshotGenerator.step, found, List.set_eq_take_append_cons_drop, inside,
        if_true]

theorem Numbered.step {generator : MarketSnapshotGenerator Snapshot}
    (numbered : generator.Numbered) (input : Input Snapshot) : (generator.step input).Numbered := by
  cases input with
  | send snapshot =>
    constructor
    · intro each member
      change each.number < (generator.sent ++ [_]).length
      rw [List.length_append, List.length_singleton]
      rcases List.mem_append.mp member with old | new
      · have below := numbered.1 each old
        omega
      · rw [List.mem_singleton.mp new]
        exact Nat.lt_succ_self _
    · intro each member
      rcases List.mem_append.mp member with old | new
      · exact List.mem_append_left _ (numbered.2 each old)
      · exact List.mem_append_right _ new
  | subscribe => exact numbered
  | step index step =>
    rcases generator.step_cases index step with ⟨_, same⟩ | ⟨_, subscriber, _, _, _, _, moved⟩
    · rw [same]
      exact numbered
    · rw [moved]
      refine ⟨numbered.1, ?_⟩
      intro each member
      apply numbered.2
      rcases subscriber.advance_snapshotRx generator.snapshotRx step with
        ⟨same, _⟩ | ⟨snapshot, rest, _, _, split, taken⟩
      · rw [← same]
        exact member
      · have remains : each ∈ rest := taken ▸ member
        rw [split]
        exact List.mem_cons_of_mem _ remains

theorem fansOut_step_iff {generator : MarketSnapshotGenerator Snapshot}
    (numbered : generator.Numbered) (fansOut : generator.FansOut) (input : Input Snapshot) :
    (generator.step input).FansOut ↔ generator.TakesOwn input := by
  cases input with
  | send snapshot =>
    apply iff_of_true _ trivial
    intro subscriber member
    exact (fansOut subscriber member).send _
  | subscribe =>
    apply iff_of_true _ trivial
    intro subscriber member
    rcases List.mem_append.mp member with old | new
    · exact fansOut subscriber old
    · rw [List.mem_singleton.mp new]
      intro _
      have none_since (snapshots : List (SentSnapshot Snapshot))
          (areSent : ∀ snapshot ∈ snapshots, snapshot ∈ generator.sent) :
          snapshots.filter (fun snapshot => decide (generator.sent.length ≤ snapshot.number)) =
            [] := by
        apply List.filter_eq_nil_iff.mpr
        intro snapshot member
        have below := numbered.1 snapshot (areSent snapshot member)
        rw [decide_eq_true_eq]
        omega
      exact (none_since generator.snapshotRx numbered.2).trans
        (none_since generator.sent fun _ member => member).symm
  | step index step =>
    rcases generator.step_cases index step with
      ⟨absent, same⟩ | ⟨before, subscriber, after, split, found, erased, moved⟩
    · rw [same]
      apply iff_of_true fansOut
      cases step with
      | tryRecv =>
        intro subscriber isThere
        rw [absent] at isThere
        cases isThere
      | _ => trivial
    · rw [FansOut, split] at fansOut
      have own : (subscriber.advance generator.snapshotRx step).2.Gets generator.sent
          (subscriber.advance generator.snapshotRx step).1 :=
        (fansOut subscriber (List.mem_append_right _ List.mem_cons_self)).advance step
      have others : ∀ other ∈ before ++ after,
          other.Gets generator.sent generator.snapshotRx := by
        intro other member
        rcases List.mem_append.mp member with inBefore | inAfter
        · exact fansOut other (List.mem_append_left _ inBefore)
        · exact fansOut other (List.mem_append_right _ (List.mem_cons_of_mem _ inAfter))
      have fansOut_iff : (generator.step (.step index step)).FansOut ↔
          ∀ other ∈ before ++ after,
            other.Gets generator.sent (subscriber.advance generator.snapshotRx step).1 := by
        rw [moved, FansOut, List.forall_mem_append, List.forall_mem_cons, List.forall_mem_append]
        apply and_congr_right
        intro _
        exact and_iff_right own
      rw [fansOut_iff]
      rcases subscriber.advance_snapshotRx generator.snapshotRx step with
        ⟨same, notTaken⟩ | ⟨snapshot, rest, isTryRecv, takes, waiting, taken⟩
      · rw [same]
        apply iff_of_true others
        cases step with
        | tryRecv =>
          intro each isThere takes snapshot isHead
          rw [found] at isThere
          cases isThere
          apply absurd (⟨rfl, takes, _⟩ : _ ∧ _ ∧ generator.snapshotRx ≠ []) notTaken
          intro isNil
          rw [isNil] at isHead
          cases isHead
        | _ => trivial
      · subst isTryRecv
        have own_iff : generator.TakesOwn (.step index .tryRecv) ↔
            ∀ other ∈ before ++ after, other.connected = true →
              other.isSince snapshot = false := by
          rw [TakesOwn, found, waiting, erased]
          constructor
          · intro takesOwn
            exact takesOwn subscriber rfl takes snapshot rfl
          · intro takesOwn each isThere _ head isHead
            cases isHead
            exact takesOwn
        rw [own_iff, taken]
        rw [waiting] at others
        apply forall₂_congr
        intro other member
        exact SnapshotSubscriber.gets_taken_iff (others other member)

/-- In every order of the steps the subscribers get their snapshots throughout, exactly if every
thread only takes what no other subscriber has to get. -/
theorem fansOut_along_iff (inputs : List (Input Snapshot)) :
    (∀ first, first <+: inputs → FansOut (first.foldl step new)) ↔
      Along step TakesOwn inputs new := by
  have start : FansOut (new : MarketSnapshotGenerator Snapshot) := List.forall_mem_nil _
  rw [forall_reached_iff inputs start]
  apply along_congr fun generator => generator.Numbered ∧ generator.FansOut
  · intro generator input holds
    exact fansOut_step_iff holds.1 holds.2 input
  · intro generator input holds takesOwn
    exact ⟨holds.1.step input, takesOwn⟩
  · exact ⟨⟨List.forall_mem_nil _, List.forall_mem_nil _⟩, start⟩

/-- Of two subscribers, one gets the snapshot. -/
theorem twoSubscribers_not_fansOut :
    ¬∀ first, first <+: ([.subscribe, .subscribe, .send 1, .step 0 .tryRecv] : List (Input ℕ)) →
      FansOut (first.foldl step new) := by
  intro fansOut
  have last := fansOut _ (List.prefix_refl _)
  revert last
  decide

end MarketSnapshotGenerator

end QAExchange
