import QAExchange.Notification.SessionIndex

/-! # Delivery of notifications

What the broker has accepted for a user waits in a queue, in the channel of a gateway, in
its batch, or to be pushed next. As long as the gateway is mentioned once for the user, each
step passes on what waits in the order in which it was accepted.
-/

namespace QAExchange

open Foundation NotificationPusher NotificationGateway

/-! ## Stages of a gateway -/

namespace NotificationPusher

def waiting (pusher : NotificationPusher) : List NotificationMessage :=
  pusher.sending ++ pusher.batch ++ pusher.channel

variable {pusher : NotificationPusher}

theorem waiting_eq_nil :
    pusher.waiting = [] ↔ pusher.sending = [] ∧ pusher.batch = [] ∧ pusher.channel = [] := by
  simp [waiting]

theorem flatMap_of_single {α : Type} {keys : List String} (distinct : keys.Nodup)
    {given : String → List α} {wanted : String} (others : ∀ key, key ≠ wanted → given key = []) :
    keys.flatMap given = if wanted ∈ keys then given wanted else [] := by
  induction keys with
  | nil => rfl
  | cons key keys induction =>
    rcases List.nodup_cons.mp distinct with ⟨absent, restDistinct⟩
    rw [List.flatMap_cons, induction restDistinct]
    by_cases isKey : key = wanted
    · rw [← isKey, if_neg absent, if_pos List.mem_cons_self, List.append_nil]
    · rw [others key isKey, List.nil_append]
      simp [Ne.symm isKey]

variable {chosen : NotificationMessage → Bool} {userId : String}

theorem filter_grouped
    (ofUser : ∀ notification, chosen notification = true → notification.userId = userId)
    (order : IterationOrder) (batch : List NotificationMessage) :
    (grouped order batch).filter chosen = batch.filter chosen := by
  let users := (batch.map NotificationMessage.userId).dedup
  have distinct : (order.arrange users).Nodup :=
    (order.perm users).nodup_iff.mpr (List.nodup_dedup _)
  have others : ∀ user, user ≠ userId →
      (batch.filter fun notification => notification.userId = user).filter chosen = [] := by
    intro user different
    apply List.filter_eq_nil_iff.mpr
    intro notification member isChosen
    have isUser := of_decide_eq_true (List.mem_filter.mp member).2
    exact different (isUser.symm.trans (ofUser notification isChosen))
  have own : (batch.filter fun notification => notification.userId = userId).filter chosen =
      batch.filter chosen := by
    rw [List.filter_filter]
    apply List.filter_congr
    intro notification _
    cases isChosen : chosen notification with
    | false => rfl
    | true => exact decide_eq_true (ofUser notification isChosen)
  rw [grouped, List.filter_flatMap, flatMap_of_single distinct others, own]
  split_ifs with member
  · rfl
  · symm
    apply List.filter_eq_nil_iff.mpr
    intro notification inBatch isChosen
    apply member
    apply (order.perm users).mem_iff.mpr
    apply List.mem_dedup.mpr
    rw [← ofUser notification isChosen]
    exact List.mem_map_of_mem inBatch

theorem mem_grouped {order : IterationOrder} {batch : List NotificationMessage}
    {notification : NotificationMessage} (member : notification ∈ grouped order batch) :
    notification ∈ batch := by
  rcases List.mem_flatMap.mp member with ⟨user, _, inGroup⟩
  exact (List.mem_filter.mp inGroup).1

theorem grouped_nil (order : IterationOrder) : grouped order [] = [] := by
  apply List.eq_nil_iff_forall_not_mem.mpr
  intro notification member
  cases mem_grouped member

theorem filter_waiting_flush
    (ofUser : ∀ notification, chosen notification = true → notification.userId = userId)
    (order : IterationOrder) (idle : pusher.sending = []) :
    (pusher.flush order).waiting.filter chosen = pusher.waiting.filter chosen := by
  rw [waiting, waiting, idle, flush]
  simp only [List.append_nil, List.nil_append, List.filter_append, filter_grouped ofUser]

/-- What is received comes behind what waits, among the notifications of one priority. -/
theorem filter_waiting_receive
    (ofUser : ∀ notification, chosen notification = true → notification.userId = userId)
    (ofPriority : ∀ notification, chosen notification = true → notification.priority = priority)
    (order : IterationOrder) (notification : NotificationMessage) (idle : pusher.sending = [])
    (batched : ∀ other ∈ pusher.batch, other.priority ≠ 0) :
    (pusher.receive order notification).waiting.filter chosen =
      (pusher.sending ++ pusher.batch ++ notification :: pusher.channel).filter chosen := by
  rw [receive]
  split_ifs with urgent
  · by_cases isChosen : chosen notification = true
    · -- nothing of the batch has this priority
      have none : pusher.batch.filter chosen = [] := by
        apply List.filter_eq_nil_iff.mpr
        intro other member otherChosen
        apply batched other member
        rw [ofPriority other otherChosen, ← ofPriority notification isChosen, urgent]
      simp only [waiting, idle, List.filter_append, none, List.nil_append,
        List.filter_cons_of_pos isChosen, List.singleton_append]
    · simp only [waiting, idle, List.filter_append, List.nil_append,
        List.filter_cons_of_neg isChosen, List.filter_nil]
  · have longer : ({ pusher with batch := pusher.batch ++ [notification] } :
        NotificationPusher).waiting.filter chosen =
          (pusher.sending ++ pusher.batch ++ notification :: pusher.channel).filter chosen := by
      simp only [waiting, List.append_assoc, List.singleton_append]
    dsimp only
    split_ifs
    · rw [filter_waiting_flush ofUser order (by exact idle)]
      exact longer
    · exact longer

theorem mem_waiting :
    notification ∈ pusher.waiting ↔ notification ∈ pusher.sending ∨ notification ∈ pusher.batch ∨
      notification ∈ pusher.channel := by
  rw [waiting, List.mem_append, List.mem_append, or_assoc]

section

variable (order : IterationOrder)
include order

theorem waiting_flush_subset (pusher : NotificationPusher) :
    (pusher.flush order).waiting ⊆ pusher.waiting := by
  intro notification member
  rcases mem_waiting.mp member with inGroups | inBatch | inChannel
  · exact mem_waiting.mpr (.inr (.inl (mem_grouped inGroups)))
  · cases inBatch
  · exact mem_waiting.mpr (.inr (.inr inChannel))

theorem waiting_receive_subset (notification : NotificationMessage) (pusher : NotificationPusher) :
    (pusher.receive order notification).waiting ⊆ notification :: pusher.waiting := by
  have longer : ({ pusher with batch := pusher.batch ++ [notification] } :
      NotificationPusher).waiting ⊆ notification :: pusher.waiting := by
    intro other member
    rcases mem_waiting.mp member with inSending | inBatch | inChannel
    · exact List.mem_cons_of_mem _ (mem_waiting.mpr (.inl inSending))
    · rcases List.mem_append.mp inBatch with old | isNew
      · exact List.mem_cons_of_mem _ (mem_waiting.mpr (.inr (.inl old)))
      · rw [List.mem_singleton.mp isNew]
        exact List.mem_cons_self
    · exact List.mem_cons_of_mem _ (mem_waiting.mpr (.inr (.inr inChannel)))
  rw [receive]
  split_ifs
  · intro other member
    rcases mem_waiting.mp member with isNew | inBatch | inChannel
    · rw [List.mem_singleton.mp isNew]
      exact List.mem_cons_self
    · exact List.mem_cons_of_mem _ (mem_waiting.mpr (.inr (.inl inBatch)))
    · exact List.mem_cons_of_mem _ (mem_waiting.mpr (.inr (.inr inChannel)))
  · dsimp only
    split_ifs
    · exact List.Subset.trans (waiting_flush_subset order _) longer
    · exact longer

theorem receiveNext_cases (hasSender : Bool) (pusher : NotificationPusher) :
    (∃ notification rest, pusher.channel = notification :: rest ∧
      pusher.receiveNext order hasSender =
        { pusher with channel := rest }.receive order notification) ∨
    (pusher.channel = [] ∧ hasSender = true ∧ pusher.receiveNext order hasSender = pusher) ∨
    (pusher.channel = [] ∧ hasSender = false ∧
      pusher.receiveNext order hasSender = { pusher with running := false }) := by
  rw [receiveNext]
  cases channel : pusher.channel with
  | cons notification rest => exact .inl ⟨notification, rest, rfl, rfl⟩
  | nil =>
    cases hasSender with
    | true => exact .inr (.inl ⟨rfl, rfl, rfl⟩)
    | false => exact .inr (.inr ⟨rfl, rfl, rfl⟩)

theorem waiting_receiveNext_subset (hasSender : Bool) (pusher : NotificationPusher) :
    (pusher.receiveNext order hasSender).waiting ⊆ pusher.waiting := by
  rcases pusher.receiveNext_cases order hasSender with
    ⟨notification, rest, channel, next⟩ | ⟨_, _, next⟩ | ⟨_, _, next⟩
  · rw [next]
    apply List.Subset.trans (waiting_receive_subset order notification _)
    intro other member
    rcases List.mem_cons.mp member with rfl | inRest
    · apply mem_waiting.mpr
      rw [channel]
      exact .inr (.inr List.mem_cons_self)
    · rcases mem_waiting.mp inRest with inSending | inBatch | inChannel
      · exact mem_waiting.mpr (.inl inSending)
      · exact mem_waiting.mpr (.inr (.inl inBatch))
      · apply mem_waiting.mpr
        rw [channel]
        exact .inr (.inr (List.mem_cons_of_mem _ inChannel))
  · rw [next]
    exact fun _ member => member
  · rw [next]
    exact fun _ member => member

theorem receive_gateway (notification : NotificationMessage) (pusher : NotificationPusher) :
    (pusher.receive order notification).gateway = pusher.gateway ∧
      (pusher.receive order notification).running = pusher.running := by
  rw [receive]
  split_ifs
  · exact ⟨rfl, rfl⟩
  · dsimp only
    split_ifs <;> exact ⟨rfl, rfl⟩

theorem batched_receive (notification : NotificationMessage)
    (batched : ∀ other ∈ pusher.batch, other.priority ≠ 0) :
    ∀ other ∈ (pusher.receive order notification).batch, other.priority ≠ 0 := by
  rw [receive]
  split_ifs with urgent
  · exact batched
  · dsimp only
    split_ifs
    · intro other member
      cases member
    · intro other member
      rcases List.mem_append.mp member with old | isNew
      · exact batched other old
      · rw [List.mem_singleton.mp isNew]
        exact urgent

end

end NotificationPusher

namespace NotificationGateway

def sentTo (sessionId : String) (pushes : List Push) : List NotificationMessage :=
  (pushes.filter fun push => push.session.sessionId = sessionId).map Push.notification

theorem sentTo_pushNotification {gateway : NotificationGateway} (occurs : gateway.OccursOnce)
    {session : SessionInfo} (live : gateway.sessions.get session.sessionId = some session)
    {notification : NotificationMessage} (ofUser : notification.userId = session.userId)
    (admitted : session.admits notification = true) :
    sentTo session.sessionId (gateway.pushNotification notification) = [notification] := by
  have once := occurs session.userId session.sessionId
  rw [if_pos ⟨session, live, rfl⟩] at once
  have ids : ∀ ids : List String, sentTo session.sessionId
      (ids.filterMap fun id => gateway.pushTo notification id) =
        List.replicate (ids.count session.sessionId) notification := by
    intro ids
    induction ids with
    | nil => rfl
    | cons id ids induction =>
      rw [List.filterMap_cons]
      by_cases isId : id = session.sessionId
      · have sent : gateway.pushTo notification id = some ⟨session, notification⟩ := by
          rw [pushTo, isId, live, Option.bind_some, if_pos admitted]
        rw [sent, isId, List.count_cons_self, List.replicate_succ, ← induction]
        dsimp only
        rw [sentTo, List.filter_cons_of_pos (by simp)]
        rfl
      · rw [List.count_cons_of_ne isId, ← induction]
        cases sent : gateway.pushTo notification id with
        | none => rfl
        | some push =>
          dsimp only
          rw [sentTo, List.filter_cons_of_neg]
          · rfl
          · rw [pushTo] at sent
            rcases Option.bind_eq_some_iff.mp sent with ⟨other, found, isSent⟩
            split_ifs at isSent
            cases isSent
            have otherId := (KeyedRows.get_eq_some.mp found).2
            simpa [otherId] using isId
  rw [pushNotification, ofUser, ids, once]
  rfl

theorem notification_of_mem_sentTo {gateway : NotificationGateway}
    (member : other ∈ sentTo sessionId (gateway.pushNotification notification)) :
    other = notification := by
  rcases List.mem_map.mp member with ⟨push, isPush, rfl⟩
  rcases mem_pushNotification.mp (List.mem_filter.mp isPush).1 with ⟨_, _, _, _, _, rfl⟩
  rfl

end NotificationGateway

namespace NotificationBroker

theorem publish_cases (order : IterationOrder) (notification : NotificationMessage)
    (broker : NotificationBroker) :
    ((broker.publish order notification).1 = .ok .Sent ∧
      (broker.publish order notification).2.priorityQueues =
        Function.update broker.priorityQueues notification.level
          (broker.priorityQueues notification.level ++ [notification])) ∨
    ((broker.publish order notification).1 ≠ .ok .Sent ∧
      (broker.publish order notification).2.priorityQueues = broker.priorityQueues) := by
  rw [publish]
  split_ifs with known
  · exact .inr ⟨by simp, rfl⟩
  · dsimp only
    split_ifs
    · exact .inr ⟨by simp, rfl⟩
    · exact .inl ⟨rfl, rfl⟩

theorem publish_gatewaySenders (order : IterationOrder) (notification : NotificationMessage)
    (broker : NotificationBroker) :
    (broker.publish order notification).2.gatewaySenders = broker.gatewaySenders := by
  rw [publish]
  split_ifs
  · rfl
  · dsimp only
    split_ifs <;> rfl

end NotificationBroker

/-! ## Runs of the system -/

namespace NotificationSystem

/-- A gateway with a session of the user is mentioned once for the user, and has a sender. -/
def Reaches (gatewayId userId : String) (system : NotificationSystem) : Prop :=
  (∃ session ∈ (system.pushers gatewayId).gateway.sessions.rows, session.userId = userId) →
    (system.broker.userGateways userId).count gatewayId = 1 ∧
      gatewayId ∈ system.broker.gatewaySenders

/-- A new session has a new id. What is routed reaches the gateways with a session of its user
once. A pusher whose channel has ended has nothing in its batch. -/
def Allowed (gatewayIds : List String) (system : NotificationSystem) : NotificationStep → Prop
  | .registerSession gatewayId sessionId _ =>
    (system.pushers gatewayId).gateway.sessions.get sessionId = none
  | .process => ∀ notification ∈ system.nextRouted, ∀ gatewayId ∈ gatewayIds,
      system.Reaches gatewayId notification.userId
  | .receive gatewayId _ =>
    let pusher := system.pushers gatewayId
    pusher.channel = [] → gatewayId ∉ system.broker.gatewaySenders → pusher.batch = []
  | _ => True

instance (gatewayId userId : String) (system : NotificationSystem) :
    Decidable (system.Reaches gatewayId userId) := inferInstanceAs (Decidable (_ → _ ∧ _))

instance decidableAllowed (gatewayIds : List String) (system : NotificationSystem) :
    ∀ next, Decidable (Allowed gatewayIds system next)
  | .registerSession .. => inferInstanceAs (Decidable (_ = none))
  | .process => inferInstanceAs (Decidable (∀ notification ∈ system.nextRouted,
      ∀ gatewayId ∈ gatewayIds, system.Reaches gatewayId notification.userId))
  | .receive .. => inferInstanceAs (Decidable (_ = [] → _ ∉ _ → _ = []))
  | .unregisterSession .. | .subscribeChannel .. | .unsubscribeChannel .. | .subscribe ..
  | .unsubscribe .. | .publish .. | .tick .. | .push .. | .dropSenders => .isTrue trivial

/-- The index of every gateway is right, the queues have their levels, nothing urgent is in a
batch, and a task that has ended has nothing left. -/
structure Sound (system : NotificationSystem) : Prop where
  occurs : ∀ gatewayId, (system.pushers gatewayId).gateway.OccursOnce
  levels : ∀ level, ∀ notification ∈ system.broker.priorityQueues level,
    notification.level = level
  batched : ∀ gatewayId, ∀ notification ∈ (system.pushers gatewayId).batch,
    notification.priority ≠ 0
  ended : ∀ gatewayId, (system.pushers gatewayId).running = false →
    gatewayId ∉ system.broker.gatewaySenders ∧ (system.pushers gatewayId).waiting = []

theorem sound_new (gatewayIds : List String) : (new gatewayIds).Sound where
  occurs := fun _ => occursOnce_new
  levels := fun _ _ member => nomatch member
  batched := fun _ _ member => nomatch member
  ended := fun _ stopped => nomatch stopped

variable {system : NotificationSystem} {change : NotificationPusher → NotificationPusher}

theorem Sound.onPusher (sound : system.Sound) (gatewayId : String)
    (occurs : (change (system.pushers gatewayId)).gateway.OccursOnce)
    (batched : ∀ notification ∈ (change (system.pushers gatewayId)).batch,
      notification.priority ≠ 0) (ended : (change (system.pushers gatewayId)).running = false →
      gatewayId ∉ system.broker.gatewaySenders ∧ (change (system.pushers gatewayId)).waiting = []) :
    (system.onPusher gatewayId change).Sound := by
  have pusher : ∀ other, (system.onPusher gatewayId change).pushers other =
      if other = gatewayId then change (system.pushers gatewayId) else system.pushers other := by
    intro other
    exact Function.update_apply _ _ _ _
  refine ⟨?_, sound.levels, ?_, ?_⟩
  · intro other
    rw [pusher]
    split_ifs
    · exact occurs
    · exact sound.occurs other
  · intro other
    rw [pusher]
    split_ifs
    · exact batched
    · exact sound.batched other
  · intro other
    rw [pusher]
    split_ifs with same
    · rw [same]
      exact ended
    · exact sound.ended other

theorem Sound.onGateway (sound : system.Sound) (gatewayId : String)
    {change : NotificationGateway → NotificationGateway}
    (occurs : (change (system.pushers gatewayId).gateway).OccursOnce) :
    (system.onGateway gatewayId change).Sound :=
  sound.onPusher gatewayId occurs (sound.batched gatewayId) (sound.ended gatewayId)

theorem Sound.whenIdle (sound : system.Sound) (gatewayId : String)
    (occurs : (change (system.pushers gatewayId)).gateway = (system.pushers gatewayId).gateway)
    (batched : ∀ notification ∈ (change (system.pushers gatewayId)).batch,
      notification.priority ≠ 0) (ended : (system.pushers gatewayId).sending = [] →
      (change (system.pushers gatewayId)).running = false →
        gatewayId ∉ system.broker.gatewaySenders ∧
          (change (system.pushers gatewayId)).waiting = []) :
    (system.whenIdle gatewayId change).Sound := by
  apply sound.onPusher gatewayId
  · split_ifs
    · rw [occurs]
      exact sound.occurs gatewayId
    · exact sound.occurs gatewayId
  · split_ifs
    · exact batched
    · exact sound.batched gatewayId
  · split_ifs with idle
    · exact ended idle.2
    · exact sound.ended gatewayId

theorem Sound.receive (sound : system.Sound) (gatewayIds : List String) (gatewayId : String)
    (order : IterationOrder) (allowed : Allowed gatewayIds system (.receive gatewayId order)) :
    (system.step (.receive gatewayId order)).Sound := by
  let pusher := system.pushers gatewayId
  let hasSender : Bool := gatewayId ∈ system.broker.gatewaySenders
  have cases := pusher.receiveNext_cases order hasSender
  apply sound.whenIdle gatewayId
  · rcases cases with ⟨notification, rest, _, next⟩ | ⟨_, _, next⟩ | ⟨_, _, next⟩
    · exact (congrArg gateway next).trans
        (receive_gateway order notification _).1
    · exact congrArg gateway next
    · have same := congrArg gateway next
      exact same
  · change ∀ notification ∈ (pusher.receiveNext order hasSender).batch, _
    rcases cases with ⟨notification, rest, _, next⟩ | ⟨_, _, next⟩ | ⟨_, _, next⟩
    · rw [next]
      exact batched_receive order notification (sound.batched gatewayId)
    · rw [next]
      exact sound.batched gatewayId
    · rw [next]
      exact sound.batched gatewayId
  · intro idle stopped
    change (pusher.receiveNext order hasSender).running = false at stopped
    change _ ∧ (pusher.receiveNext order hasSender).waiting = []
    rcases cases with ⟨notification, rest, channel, next⟩ | ⟨_, _, next⟩ | ⟨ended, noSender, next⟩
    · rw [next, (receive_gateway order notification _).2] at stopped
      have nothing := (sound.ended gatewayId stopped).2
      rw [waiting] at nothing
      change _ ++ pusher.channel = [] at nothing
      rw [channel] at nothing
      simp at nothing
    · rw [next] at stopped ⊢
      exact sound.ended gatewayId stopped
    · have absent := of_decide_eq_false noSender
      refine ⟨absent, ?_⟩
      rw [next]
      change pusher.sending ++ pusher.batch ++ pusher.channel = []
      rw [idle, allowed ended absent, ended]
      rfl

theorem Sound.publish (sound : system.Sound) (notification : NotificationMessage)
    (order : IterationOrder) : (system.step (.publish notification order)).Sound := by
  refine ⟨sound.occurs, ?_, sound.batched, ?_⟩
  · rcases system.broker.publish_cases order notification with ⟨_, queues⟩ | ⟨_, queues⟩
    · change ∀ level, ∀ other ∈ (system.broker.publish order notification).2.priorityQueues level, _
      rw [queues]
      intro level other member
      by_cases isLevel : level = notification.level
      · rw [isLevel, Function.update_self] at member
        rcases List.mem_append.mp member with old | isNew
        · rw [isLevel]
          exact sound.levels _ other old
        · rw [isLevel, List.mem_singleton.mp isNew]
      · rw [Function.update_of_ne isLevel] at member
        exact sound.levels level other member
    · change ∀ level, ∀ other ∈ (system.broker.publish order notification).2.priorityQueues level, _
      rw [queues]
      exact sound.levels
  · change ∀ gatewayId, _ → gatewayId ∉
      (system.broker.publish order notification).2.gatewaySenders ∧ _
    rw [NotificationBroker.publish_gatewaySenders]
    exact sound.ended

theorem routeNotification_gateway (notification : NotificationMessage) (system : NotificationSystem)
    (gatewayId : String) :
    ((system.routeNotification notification).pushers gatewayId).gateway =
      (system.pushers gatewayId).gateway := by
  rw [routeNotification]
  dsimp only
  split_ifs <;> rfl

theorem routeNotification_batch (notification : NotificationMessage) (system : NotificationSystem)
    (gatewayId : String) :
    ((system.routeNotification notification).pushers gatewayId).batch =
      (system.pushers gatewayId).batch := by
  rw [routeNotification]
  dsimp only
  split_ifs <;> rfl

theorem routeNotification_running (notification : NotificationMessage)
    (system : NotificationSystem) (gatewayId : String) :
    ((system.routeNotification notification).pushers gatewayId).running =
      (system.pushers gatewayId).running := by
  rw [routeNotification]
  dsimp only
  split_ifs <;> rfl

theorem Sound.process (sound : system.Sound) : system.process.Sound := by
  rw [NotificationSystem.process]
  cases routed : system.nextRouted with
  | none => exact ⟨sound.occurs, sound.levels, sound.batched, sound.ended⟩
  | some notification =>
    have pusher : ∀ gatewayId, (system.routeNotification notification).pushers gatewayId =
        system.pushers gatewayId ∨ gatewayId ∈ system.broker.gatewaySenders := by
      intro gatewayId
      rw [routeNotification]
      dsimp only
      split_ifs with hasSender
      · exact .inr hasSender
      · exact .inl rfl
    refine ⟨?_, ?_, ?_, ?_⟩
    · intro gatewayId
      change ((system.routeNotification notification).pushers gatewayId).gateway.OccursOnce
      rw [routeNotification_gateway]
      exact sound.occurs gatewayId
    · intro level other member
      dsimp only at member
      by_cases isLevel : level = system.processor.level
      · rw [isLevel, Function.update_self] at member
        rw [isLevel]
        exact sound.levels _ other (List.mem_of_mem_tail member)
      · rw [Function.update_of_ne isLevel] at member
        exact sound.levels level other member
    · intro gatewayId
      change ∀ other ∈ ((system.routeNotification notification).pushers gatewayId).batch, _
      rw [routeNotification_batch]
      exact sound.batched gatewayId
    · intro gatewayId stopped
      change ((system.routeNotification notification).pushers gatewayId).running = false at stopped
      change _ ∧ ((system.routeNotification notification).pushers gatewayId).waiting = []
      rw [routeNotification_running] at stopped
      have before := sound.ended gatewayId stopped
      rcases pusher gatewayId with same | hasSender
      · rw [same]
        exact before
      · exact absurd hasSender before.1

theorem Sound.step {gatewayIds : List String} (sound : system.Sound) (next : NotificationStep)
    (allowed : Allowed gatewayIds system next) : (system.step next).Sound := by
  cases next with
  | registerSession gatewayId sessionId userId =>
    exact sound.onGateway gatewayId ((sound.occurs gatewayId).registerSession allowed userId)
  | unregisterSession gatewayId sessionId =>
    exact sound.onGateway gatewayId ((sound.occurs gatewayId).unregisterSession sessionId)
  | subscribeChannel gatewayId sessionId channel =>
    exact sound.onGateway gatewayId ((sound.occurs gatewayId).changeSubscriptions _ sessionId)
  | unsubscribeChannel gatewayId sessionId channel =>
    exact sound.onGateway gatewayId ((sound.occurs gatewayId).changeSubscriptions _ sessionId)
  | subscribe userId gatewayId => exact ⟨sound.occurs, sound.levels, sound.batched, sound.ended⟩
  | unsubscribe userId gatewayId => exact ⟨sound.occurs, sound.levels, sound.batched, sound.ended⟩
  | publish notification order => exact sound.publish notification order
  | process => exact sound.process
  | receive gatewayId order => exact sound.receive gatewayIds gatewayId order allowed
  | tick gatewayId order =>
    apply sound.whenIdle gatewayId
    · rfl
    · intro notification member
      cases member
    · intro idle stopped
      have before := sound.ended gatewayId stopped
      rcases waiting_eq_nil.mp before.2 with ⟨_, batch, channel⟩
      refine ⟨before.1, waiting_eq_nil.mpr ⟨?_, rfl, channel⟩⟩
      change grouped order (system.pushers gatewayId).batch = []
      rw [batch]
      exact grouped_nil order
  | push gatewayId =>
    apply sound.onPusher gatewayId
    · exact sound.occurs gatewayId
    · exact sound.batched gatewayId
    · intro stopped
      have before := sound.ended gatewayId stopped
      rcases waiting_eq_nil.mp before.2 with ⟨sending, batch, channel⟩
      refine ⟨before.1, waiting_eq_nil.mpr ⟨?_, batch, channel⟩⟩
      rw [pushNext, sending]
      rfl
  | dropSenders =>
    refine ⟨sound.occurs, sound.levels, sound.batched, ?_⟩
    intro gatewayId stopped
    exact ⟨fun member => (nomatch member), (sound.ended gatewayId stopped).2⟩

/-! ## A session that stays -/

def Registered (gatewayId sessionId userId : String) (system : NotificationSystem) : Prop :=
  ∃ session ∈ (system.pushers gatewayId).gateway.sessions.get sessionId, session.userId = userId

def Stays (gatewayId sessionId : String) : NotificationStep → Prop
  | .registerSession otherGateway otherSession _ =>
    ¬ (otherGateway = gatewayId ∧ otherSession = sessionId)
  | .unregisterSession otherGateway otherSession =>
    ¬ (otherGateway = gatewayId ∧ otherSession = sessionId)
  | _ => True

theorem pushers_onPusher (gatewayId other : String)
    (change : NotificationPusher → NotificationPusher) (system : NotificationSystem) :
    (system.onPusher gatewayId change).pushers other =
      if other = gatewayId then change (system.pushers other) else system.pushers other := by
  rw [onPusher]
  dsimp only
  by_cases same : other = gatewayId
  · rw [same, Function.update_self, if_pos rfl]
  · rw [Function.update_of_ne same, if_neg same]

variable {gatewayId sessionId userId : String}

theorem Registered.onGateway {other : String} {change : NotificationGateway → NotificationGateway}
    (registered : Registered gatewayId sessionId userId system) (keeps : gatewayId = other →
      ∀ session ∈ (system.pushers gatewayId).gateway.sessions.get sessionId,
        ∃ next ∈ (change (system.pushers gatewayId).gateway).sessions.get sessionId,
          next.userId = session.userId) :
    Registered gatewayId sessionId userId (system.onGateway other change) := by
  rcases registered with ⟨session, found, isUser⟩
  rw [Registered, NotificationSystem.onGateway, pushers_onPusher]
  split_ifs with same
  · rcases keeps same session found with ⟨next, isNext, sameUser⟩
    exact ⟨next, isNext, sameUser.trans isUser⟩
  · exact ⟨session, found, isUser⟩

theorem get_changeSubscriptions (change : Finset String → Finset String)
    {gateway : NotificationGateway} (changed sessionId : String) {session : SessionInfo}
    (found : gateway.sessions.get sessionId = some session) :
    ∃ next ∈ (gateway.changeSubscriptions change changed).sessions.get sessionId,
      next.userId = session.userId := by
  rw [changeSubscriptions]
  cases isThere : gateway.sessions.get changed with
  | none => exact ⟨session, found, rfl⟩
  | some other =>
    dsimp only
    rw [KeyedRows.get_insert]
    have isId := (KeyedRows.get_eq_some.mp isThere).2
    split_ifs with same
    · have isOther : changed = sessionId := isId.symm.trans same
      rw [isOther, found] at isThere
      cases isThere
      exact ⟨_, rfl, rfl⟩
    · exact ⟨session, found, rfl⟩

theorem gateway_whenIdle (gatewayId other : String)
    (same : (change (system.pushers gatewayId)).gateway = (system.pushers gatewayId).gateway) :
    ((system.whenIdle gatewayId change).pushers other).gateway =
      (system.pushers other).gateway := by
  rw [whenIdle, pushers_onPusher]
  split_ifs with isOther
  · rw [isOther]
    exact same
  · rfl
  · rfl

theorem gateway_process (system : NotificationSystem) (gatewayId : String) :
    (system.process.pushers gatewayId).gateway = (system.pushers gatewayId).gateway := by
  rw [process]
  cases system.nextRouted with
  | none => rfl
  | some notification => exact routeNotification_gateway notification system gatewayId

theorem receiveNext_gateway (order : IterationOrder) (hasSender : Bool)
    (pusher : NotificationPusher) :
    (pusher.receiveNext order hasSender).gateway = pusher.gateway := by
  rcases pusher.receiveNext_cases order hasSender with
    ⟨notification, rest, _, next⟩ | ⟨_, _, next⟩ | ⟨_, _, next⟩
  · rw [next]
    exact (receive_gateway order notification _).1
  · rw [next]
  · rw [next]

theorem Registered.step (registered : Registered gatewayId sessionId userId system)
    (next : NotificationStep) (stays : Stays gatewayId sessionId next) :
    Registered gatewayId sessionId userId (system.step next) := by
  have unchanged : ∀ after : NotificationSystem,
      (after.pushers gatewayId).gateway = (system.pushers gatewayId).gateway →
        Registered gatewayId sessionId userId after := by
    intro after same
    rw [Registered, same]
    exact registered
  cases next with
  | registerSession other otherSession otherUser =>
    apply registered.onGateway
    intro same session found
    rw [get_registerSession,
      if_neg fun isSession => stays ⟨same.symm, isSession⟩]
    exact ⟨session, found, rfl⟩
  | unregisterSession other otherSession =>
    apply registered.onGateway
    intro same session found
    rw [unregisterSession]
    cases (system.pushers gatewayId).gateway.sessions.get otherSession with
    | none => exact ⟨session, found, rfl⟩
    | some gone =>
      dsimp only
      rw [KeyedRows.get_remove, if_neg fun isSession => stays ⟨same.symm, isSession.symm⟩]
      exact ⟨session, found, rfl⟩
  | subscribeChannel other otherSession channel =>
    apply registered.onGateway
    intro _ session found
    exact get_changeSubscriptions _ otherSession sessionId found
  | unsubscribeChannel other otherSession channel =>
    apply registered.onGateway
    intro _ session found
    exact get_changeSubscriptions _ otherSession sessionId found
  | subscribe otherUser other => exact registered
  | unsubscribe otherUser other => exact registered
  | publish notification order => exact registered
  | process => exact unchanged _ (gateway_process system gatewayId)
  | receive other order =>
    exact unchanged _ (gateway_whenIdle other gatewayId (receiveNext_gateway order _ _))
  | tick other order => exact unchanged _ (gateway_whenIdle other gatewayId rfl)
  | push other =>
    apply unchanged
    change ((system.onPusher other pushNext).pushers gatewayId).gateway = _
    rw [pushers_onPusher]
    split_ifs <;> rfl
  | dropSenders => exact registered

/-! ## What waits is passed on -/

section Conservation

variable {chosen : NotificationMessage → Bool} {userId : String} {priority : Fin 256}
  {gatewayId sessionId : String} {system : NotificationSystem}

def waitingFor (gatewayId : String) (level : Fin 4) (system : NotificationSystem) :
    List NotificationMessage :=
  (system.pushers gatewayId).waiting ++ system.broker.priorityQueues level

def sentBy (gatewayId sessionId : String) (system : NotificationSystem)
    (next : NotificationStep) : List NotificationMessage :=
  sentTo sessionId (system.pushes gatewayId next)

theorem waitingFor_onGateway (level : Fin 4) (other : String)
    (change : NotificationGateway → NotificationGateway) :
    (system.onGateway other change).waitingFor gatewayId level =
      system.waitingFor gatewayId level := by
  rw [waitingFor, waitingFor, onGateway, pushers_onPusher]
  split_ifs <;> rfl

variable {level : Fin 4}

theorem waitingFor_publish (order : IterationOrder) (notification : NotificationMessage)
    (ofLevel : ∀ other, chosen other = true → other.level = level) :
    ((system.step (.publish notification order)).waitingFor gatewayId level).filter chosen =
      (system.waitingFor gatewayId level).filter chosen ++
        (system.accepted (.publish notification order)).filter chosen := by
  rw [waitingFor, waitingFor, accepted, step]
  dsimp only
  rcases system.broker.publish_cases order notification with
    ⟨isSent, queues⟩ | ⟨notSent, queues⟩
  · rw [if_pos isSent, queues]
    by_cases isLevel : notification.level = level
    · rw [isLevel, Function.update_self, List.filter_append, List.filter_append,
        List.filter_append, List.append_assoc]
    · have other : chosen notification = false := by
        cases isChosen : chosen notification with
        | false => rfl
        | true => exact absurd (ofLevel notification isChosen) isLevel
      rw [Function.update_of_ne (Ne.symm isLevel), List.filter_cons_of_neg (by simp [other]),
        List.filter_nil, List.append_nil]
  · rw [if_neg notSent, queues, List.filter_nil, List.append_nil]

theorem waiting_routeNotification (notification : NotificationMessage) (gatewayId : String) :
    ((system.routeNotification notification).pushers gatewayId).waiting =
      (system.pushers gatewayId).waiting ++
        if gatewayId ∈ system.broker.gatewaySenders then
          List.replicate ((system.broker.userGateways notification.userId).count gatewayId)
            notification
        else [] := by
  rw [routeNotification]
  dsimp only
  split_ifs
  · simp only [waiting, List.append_assoc]
  · rw [List.append_nil]

theorem queue_of_nextRouted (routed : system.nextRouted = some notification) :
    system.broker.priorityQueues system.processor.level =
      notification :: (system.broker.priorityQueues system.processor.level).tail := by
  rw [nextRouted] at routed
  split_ifs at routed
  exact (List.cons_head?_tail routed).symm

theorem waitingFor_process (sound : system.Sound) (allowed : Allowed gatewayIds system .process)
    (isGateway : gatewayId ∈ gatewayIds) (registered : Registered gatewayId sessionId userId system)
    (ofUser : ∀ other, chosen other = true → other.userId = userId)
    (ofLevel : ∀ other, chosen other = true → other.level = level) :
    (system.process.waitingFor gatewayId level).filter chosen =
      (system.waitingFor gatewayId level).filter chosen := by
  rw [process]
  cases routed : system.nextRouted with
  | none => rfl
  | some notification =>
    have queue := queue_of_nextRouted routed
    let rest := (system.broker.priorityQueues system.processor.level).tail
    change (((system.routeNotification notification).pushers gatewayId).waiting ++
      Function.update system.broker.priorityQueues system.processor.level rest level).filter
        chosen = _
    rw [waiting_routeNotification, waitingFor, List.filter_append, List.filter_append,
      List.filter_append, List.append_assoc]
    congr 1
    by_cases isChosen : chosen notification = true
    · have isLevel : system.processor.level = level := by
        rw [← ofLevel notification isChosen]
        symm
        apply sound.levels
        rw [queue]
        exact List.mem_cons_self
      have isUser := ofUser notification isChosen
      rcases registered with ⟨session, found, sessionUser⟩
      have reaches := allowed notification routed gatewayId isGateway
        ⟨session, (KeyedRows.get_eq_some.mp found).1, sessionUser.trans isUser.symm⟩
      rw [if_pos reaches.2, reaches.1, ← isLevel, Function.update_self, queue,
        List.filter_cons_of_pos isChosen, List.replicate_one, List.filter_cons_of_pos isChosen]
      rfl
    · have copies : (if gatewayId ∈ system.broker.gatewaySenders then
          List.replicate ((system.broker.userGateways notification.userId).count gatewayId)
            notification else []).filter chosen = [] := by
        split_ifs
        · rw [List.filter_replicate_of_neg isChosen]
        · rfl
      rw [copies, List.nil_append]
      by_cases isLevel : level = system.processor.level
      · rw [isLevel, Function.update_self, queue, List.filter_cons_of_neg isChosen]
      · rw [Function.update_of_ne isLevel]

theorem waitingFor_whenIdle (other : String) (level : Fin 4)
    (same : (system.pushers other).sending = [] →
      (change (system.pushers other)).waiting.filter chosen =
        (system.pushers other).waiting.filter chosen) :
    ((system.whenIdle other change).waitingFor gatewayId level).filter chosen =
      (system.waitingFor gatewayId level).filter chosen := by
  rw [waitingFor, waitingFor, List.filter_append, List.filter_append, whenIdle, pushers_onPusher]
  split_ifs with isOther idle
  · rw [isOther, same (isOther ▸ idle.2)]
    rfl
  · rfl
  · rfl

theorem waitingFor_receive (sound : system.Sound)
    (ofUser : ∀ other, chosen other = true → other.userId = userId)
    (ofPriority : ∀ other, chosen other = true → other.priority = priority)
    (other : String) (order : IterationOrder) (level : Fin 4) :
    ((system.step (.receive other order)).waitingFor gatewayId level).filter chosen =
      (system.waitingFor gatewayId level).filter chosen := by
  apply waitingFor_whenIdle
  intro idle
  rcases (system.pushers other).receiveNext_cases order
      (decide (other ∈ system.broker.gatewaySenders)) with
    ⟨notification, rest, channel, next⟩ | ⟨_, _, next⟩ | ⟨_, _, next⟩
  · let shorter : NotificationPusher := { system.pushers other with channel := rest }
    have shorterIdle : shorter.sending = [] := idle
    have shorterBatched : ∀ waiting ∈ shorter.batch, waiting.priority ≠ 0 := sound.batched other
    have before : (system.pushers other).waiting =
        shorter.sending ++ shorter.batch ++ notification :: shorter.channel := by
      rw [waiting, channel]
    rw [next, before]
    exact filter_waiting_receive ofUser ofPriority order notification
      shorterIdle shorterBatched
  · rw [next]
  · rw [next]
    rfl

theorem waitingFor_tick (ofUser : ∀ other, chosen other = true → other.userId = userId)
    (other : String) (order : IterationOrder) (level : Fin 4) :
    ((system.step (.tick other order)).waitingFor gatewayId level).filter chosen =
      (system.waitingFor gatewayId level).filter chosen := by
  apply waitingFor_whenIdle
  intro idle
  exact filter_waiting_flush ofUser order idle

theorem waitingFor_push (sound : system.Sound)
    (registered : Registered gatewayId sessionId userId system)
    (ofUser : ∀ other, chosen other = true → other.userId = userId)
    (admits : ∀ session ∈ (system.pushers gatewayId).gateway.sessions.get sessionId,
      ∀ other, chosen other = true → session.admits other = true) (other : String) (level : Fin 4) :
    (system.sentBy gatewayId sessionId (.push other)).filter chosen ++
        ((system.step (.push other)).waitingFor gatewayId level).filter chosen =
      (system.waitingFor gatewayId level).filter chosen := by
  rw [sentBy, pushes]
  by_cases isOther : other = gatewayId
  · have pushers : (system.step (.push other)).pushers gatewayId =
        (system.pushers gatewayId).pushNext := by
      change (system.onPusher other pushNext).pushers gatewayId = _
      rw [pushers_onPusher, if_pos isOther.symm]
    rw [if_pos isOther, waitingFor, pushers]
    change _ ++ (_ ++ system.broker.priorityQueues level).filter chosen = _
    rw [waitingFor, List.filter_append, List.filter_append, ← List.append_assoc]
    congr 1
    rw [waiting, waiting, pushNext]
    dsimp only
    cases sending : (system.pushers gatewayId).sending with
    | nil => rfl
    | cons notification rest =>
      rw [List.head?_cons, Option.toList_some, List.flatMap_cons, List.flatMap_nil,
        List.append_nil, List.tail_cons, List.cons_append, List.cons_append]
      by_cases isChosen : chosen notification = true
      · rcases registered with ⟨session, found, sessionUser⟩
        have isId := (KeyedRows.get_eq_some.mp found).2
        have sent := sentTo_pushNotification (sound.occurs gatewayId)
          (by rw [isId]; exact found)
          ((ofUser notification isChosen).trans sessionUser.symm)
          (admits session found notification isChosen)
        rw [isId] at sent
        rw [sent, List.filter_cons_of_pos isChosen, List.filter_cons_of_pos isChosen]
        rfl
      · have nothing : (sentTo sessionId
            ((system.pushers gatewayId).gateway.pushNotification notification)).filter
              chosen = [] := by
          apply List.filter_eq_nil_iff.mpr
          intro sent member
          rw [notification_of_mem_sentTo member]
          exact isChosen
        rw [nothing, List.filter_cons_of_neg isChosen]
        rfl
  · have pushers : (system.step (.push other)).pushers gatewayId = system.pushers gatewayId := by
      change (system.onPusher other pushNext).pushers gatewayId = _
      rw [pushers_onPusher, if_neg (Ne.symm isOther)]
    rw [if_neg isOther, waitingFor, pushers]
    rfl

def Listens (gatewayId sessionId : String) (chosen : NotificationMessage → Bool)
    (system : NotificationSystem) (next : NotificationStep) : Prop :=
  Stays gatewayId sessionId next ∧
    ∀ session ∈ (system.pushers gatewayId).gateway.sessions.get sessionId,
      ∀ notification, chosen notification = true → session.admits notification = true

/-- What a step sends to the session comes from the front of what waits, and what it accepts
goes to its end. -/
theorem step_conserves (isGateway : gatewayId ∈ gatewayIds) (sound : system.Sound)
    (registered : Registered gatewayId sessionId userId system)
    (allowed : Allowed gatewayIds system next)
    (listens : Listens gatewayId sessionId chosen system next)
    (ofUser : ∀ other, chosen other = true → other.userId = userId)
    (ofPriority : ∀ other, chosen other = true → other.priority = priority)
    (ofLevel : ∀ other, chosen other = true → other.level = level) :
    (system.sentBy gatewayId sessionId next).filter chosen ++
        ((system.step next).waitingFor gatewayId level).filter chosen =
      (system.waitingFor gatewayId level).filter chosen ++
        (system.accepted next).filter chosen := by
  have silent : ∀ {after : List NotificationMessage}, after.filter chosen =
      (system.waitingFor gatewayId level).filter chosen →
        ([] : List NotificationMessage).filter chosen ++ after.filter chosen =
          (system.waitingFor gatewayId level).filter chosen ++
            ([] : List NotificationMessage).filter chosen := by
    intro after same
    rw [same, List.filter_nil, List.nil_append, List.append_nil]
  cases next with
  | registerSession other otherSession otherUser =>
    exact silent (congrArg (List.filter chosen) (waitingFor_onGateway level other _))
  | unregisterSession other otherSession =>
    exact silent (congrArg (List.filter chosen) (waitingFor_onGateway level other _))
  | subscribeChannel other otherSession channel =>
    exact silent (congrArg (List.filter chosen) (waitingFor_onGateway level other _))
  | unsubscribeChannel other otherSession channel =>
    exact silent (congrArg (List.filter chosen) (waitingFor_onGateway level other _))
  | subscribe otherUser other => exact silent rfl
  | unsubscribe otherUser other => exact silent rfl
  | publish notification order => exact waitingFor_publish order notification ofLevel
  | process => exact silent (waitingFor_process sound allowed isGateway registered ofUser ofLevel)
  | receive other order => exact silent (waitingFor_receive sound ofUser ofPriority other order level)
  | tick other order => exact silent (waitingFor_tick ofUser other order level)
  | push other =>
    rw [waitingFor_push sound registered ofUser listens.2 other level]
    exact (List.append_nil _).symm
  | dropSenders => exact silent rfl

end Conservation

/-! ## Runs -/

def Finished (gatewayIds : List String) (system : NotificationSystem) : Prop :=
  (∀ level, system.broker.priorityQueues level = []) ∧
    ∀ gatewayId ∈ gatewayIds, (system.pushers gatewayId).running = false

instance (gatewayIds : List String) (system : NotificationSystem) :
    Decidable (Finished gatewayIds system) := inferInstanceAs (Decidable (_ ∧ _))

def chosenOf (userId : String) (priority : Fin 256) (wanted : NotificationMessage → Bool)
    (notification : NotificationMessage) : Bool :=
  notification.userId = userId ∧ notification.priority = priority ∧ wanted notification

/-- To a session that is registered from some state of the run to its end, with a filter that
admits them, exactly the notifications of its user that are accepted from there on are sent
once and in the order of their acceptance, for each priority. Before them it may get what was
accepted earlier. -/
def Delivers (gatewayIds : List String) (run : List NotificationStep) : Prop :=
  ∀ before after, run = before ++ after → ∀ gatewayId ∈ gatewayIds,
    ∀ sessionId userId priority wanted,
      let system := before.foldl step (new gatewayIds)
      let chosen := chosenOf userId priority wanted
      Registered gatewayId sessionId userId system →
      Along step (Listens gatewayId sessionId chosen) after system →
      ∃ earlier, (∀ notification ∈ earlier,
          notification ∈ outputs step accepted before (new gatewayIds)) ∧
        (outputs step (sentBy gatewayId sessionId) after system).filter chosen =
          earlier ++ (outputs step accepted after system).filter chosen

theorem level_of_chosen {priority : Fin 256} {wanted : NotificationMessage → Bool}
    {notification : NotificationMessage}
    (isChosen : chosenOf userId priority wanted notification = true) :
    notification.level = ⟨min priority 3, by omega⟩ := by
  have ofPriority := (of_decide_eq_true isChosen).2.1
  rw [NotificationMessage.level]
  simp only [ofPriority]

structure Known (known : List NotificationMessage) (system : NotificationSystem) : Prop where
  queues : ∀ level, ∀ notification ∈ system.broker.priorityQueues level, notification ∈ known
  pushers : ∀ gatewayId, ∀ notification ∈ (system.pushers gatewayId).waiting,
    notification ∈ known

variable {known : List NotificationMessage}

section

variable (isKnown : Known known system)
include isKnown

/-- A task that only passes on what it has. -/
theorem Known.onPusher (gatewayId : String) (passes : (change (system.pushers gatewayId)).waiting ⊆
      (system.pushers gatewayId).waiting) :
    Known (known ++ []) (system.onPusher gatewayId change) := by
  rw [List.append_nil]
  refine ⟨isKnown.queues, ?_⟩
  intro other notification member
  rw [pushers_onPusher] at member
  split_ifs at member with same
  · rw [same] at member
    exact isKnown.pushers gatewayId notification (passes member)
  · exact isKnown.pushers other notification member

theorem Known.onGateway (gatewayId : String) (change : NotificationGateway → NotificationGateway) :
    Known (known ++ []) (system.onGateway gatewayId change) :=
  isKnown.onPusher gatewayId fun _ member => member

theorem Known.whenIdle (gatewayId : String) (passes : (change (system.pushers gatewayId)).waiting ⊆
      (system.pushers gatewayId).waiting) :
    Known (known ++ []) (system.whenIdle gatewayId change) := by
  apply isKnown.onPusher
  split_ifs
  · exact passes
  · exact fun _ member => member

theorem Known.publish (notification : NotificationMessage) (order : IterationOrder) :
    Known (known ++ system.accepted (.publish notification order))
      (system.step (.publish notification order)) := by
  have old : ∀ other ∈ known, other ∈ known ++ system.accepted (.publish notification order) :=
    fun other member => List.mem_append_left _ member
  refine ⟨?_, fun gatewayId other member => old other (isKnown.pushers gatewayId other member)⟩
  intro level other member
  change other ∈ (system.broker.publish order notification).2.priorityQueues level at member
  rcases system.broker.publish_cases order notification with ⟨isSent, queues⟩ | ⟨_, queues⟩
  · rw [queues] at member
    by_cases isLevel : level = notification.level
    · rw [isLevel, Function.update_self] at member
      rcases List.mem_append.mp member with inQueue | isNew
      · exact old other (isKnown.queues _ other inQueue)
      · rw [accepted, if_pos isSent]
        exact List.mem_append_right _ isNew
    · rw [Function.update_of_ne isLevel] at member
      exact old other (isKnown.queues level other member)
  · rw [queues] at member
    exact old other (isKnown.queues level other member)

theorem Known.process : Known (known ++ []) system.process := by
  rw [List.append_nil, NotificationSystem.process]
  cases routed : system.nextRouted with
  | none => exact ⟨isKnown.queues, isKnown.pushers⟩
  | some notification =>
    have queue := queue_of_nextRouted routed
    refine ⟨?_, ?_⟩
    · intro level other member
      dsimp only at member
      by_cases isLevel : level = system.processor.level
      · rw [isLevel, Function.update_self] at member
        exact isKnown.queues _ other (List.mem_of_mem_tail member)
      · rw [Function.update_of_ne isLevel] at member
        exact isKnown.queues level other member
    · intro gatewayId other member
      change other ∈ ((system.routeNotification notification).pushers gatewayId).waiting at member
      rw [waiting_routeNotification] at member
      rcases List.mem_append.mp member with old | isCopy
      · exact isKnown.pushers gatewayId other old
      · split_ifs at isCopy
        · rw [List.eq_of_mem_replicate isCopy]
          apply isKnown.queues system.processor.level
          rw [queue]
          exact List.mem_cons_self
        · cases isCopy

theorem Known.step (next : NotificationStep) :
    Known (known ++ system.accepted next) (system.step next) := by
  have same : Known (known ++ []) system := by
    rw [List.append_nil]
    exact isKnown
  cases next with
  | registerSession other otherSession otherUser => exact isKnown.onGateway other _
  | unregisterSession other otherSession => exact isKnown.onGateway other _
  | subscribeChannel other otherSession channel => exact isKnown.onGateway other _
  | unsubscribeChannel other otherSession channel => exact isKnown.onGateway other _
  | subscribe otherUser other => exact ⟨same.queues, same.pushers⟩
  | unsubscribe otherUser other => exact ⟨same.queues, same.pushers⟩
  | publish notification order => exact isKnown.publish notification order
  | process => exact isKnown.process
  | receive other order =>
    exact isKnown.whenIdle other (waiting_receiveNext_subset order _ _)
  | tick other order =>
    exact isKnown.whenIdle other (waiting_flush_subset order _)
  | push other =>
    apply isKnown.onPusher other
    intro notification member
    rcases mem_waiting.mp member with inSending | inBatch
    · exact mem_waiting.mpr (.inl (List.mem_of_mem_tail inSending))
    · exact mem_waiting.mpr (.inr inBatch)
  | dropSenders => exact ⟨same.queues, same.pushers⟩

end

/-- In a run whose steps are allowed, and which passes on all that waits, the notifications are
delivered. -/
theorem delivers_of_along {gatewayIds : List String} {run : List NotificationStep}
    (along : Along step (Allowed gatewayIds) run (new gatewayIds))
    (finished : Finished gatewayIds (run.foldl step (new gatewayIds))) :
    Delivers gatewayIds run := by
  intro before after split gatewayId isGateway sessionId userId priority wanted system chosen
    registered listens
  rw [split] at along finished
  rw [List.foldl_append] at finished
  rcases (along_append before after (new gatewayIds)).mp along with ⟨first, second⟩
  have sound : system.Sound := foldl_along Sound
    (fun system next sound allowed => sound.step next allowed) first (sound_new gatewayIds)
  have known : Known ([] ++ outputs step accepted before (new gatewayIds)) system :=
    outputs_invariant Known (fun known system next isKnown => isKnown.step next) before
      ⟨fun _ _ member => (nomatch member), fun _ _ member => (nomatch member)⟩
  let level : Fin 4 := ⟨min priority 3, by omega⟩
  have ofUser : ∀ notification, chosen notification = true → notification.userId = userId :=
    fun _ isChosen => (of_decide_eq_true isChosen).1
  have ofPriority : ∀ notification, chosen notification = true →
      notification.priority = priority := fun _ isChosen => (of_decide_eq_true isChosen).2.1
  have ofLevel : ∀ notification, chosen notification = true → notification.level = level :=
    fun _ isChosen => level_of_chosen isChosen
  let final := after.foldl step system
  have finalSound : final.Sound := foldl_along Sound
    (fun system next sound allowed => sound.step next allowed) second sound
  -- nothing waits in the end
  have nothing : final.waitingFor gatewayId level = [] := by
    rw [waitingFor, finished.1 level,
      (finalSound.ended gatewayId (finished.2 gatewayId isGateway)).2]
    rfl
  have conserved := outputs_conserved
    (fun system => (system.waitingFor gatewayId level).filter chosen)
    (fun system => system.Sound ∧ Registered gatewayId sessionId userId system)
    (fun system next holds allowed =>
      ⟨holds.1.step next allowed.1, holds.2.step next allowed.2.1⟩)
    (fun system next holds allowed => step_conserves isGateway holds.1 holds.2 allowed.1 allowed.2
      ofUser ofPriority ofLevel)
    (along_and second listens) ⟨sound, registered⟩
  rw [← outputs_filter, ← outputs_filter] at conserved
  change _ ++ (final.waitingFor gatewayId level).filter chosen = _ at conserved
  rw [nothing, List.filter_nil, List.append_nil] at conserved
  refine ⟨(system.waitingFor gatewayId level).filter chosen, ?_, conserved⟩
  intro notification member
  rcases List.mem_append.mp (List.mem_filter.mp member).1 with waiting | queued
  · exact known.pushers gatewayId notification waiting
  · exact known.queues level notification queued

/-- A notification of an account, which waits in a batch until the timer ticks. -/
theorem flushedBatch_delivered : Delivers ["gateway_01"] [
    .subscribe "user_01" "gateway_01", .registerSession "gateway_01" "session_01" "user_01",
    .publish ⟨"message_01", .AccountUpdate, "user_01", 2⟩ .asIs, .process, .process, .process,
    .receive "gateway_01" .asIs, .tick "gateway_01" .asIs, .push "gateway_01", .dropSenders,
    .receive "gateway_01" .asIs] :=
  delivers_of_along (by decide +kernel) (by decide +kernel)

instance (gatewayId sessionId : String) : ∀ next, Decidable (Stays gatewayId sessionId next)
  | .registerSession .. | .unregisterSession .. => inferInstanceAs (Decidable (¬ (_ ∧ _)))
  | .subscribeChannel .. | .unsubscribeChannel .. | .subscribe .. | .unsubscribe .. | .publish ..
  | .process | .receive .. | .tick .. | .push .. | .dropSenders => .isTrue trivial

theorem listens_of_unfiltered (chosen : NotificationMessage → Bool)
    (unfiltered : Along step (fun system next => Stays gatewayId sessionId next ∧
      ∀ session ∈ (system.pushers gatewayId).gateway.sessions.get sessionId,
        session.subscriptions = ∅) steps system) :
    Along step (Listens gatewayId sessionId chosen) steps system := by
  apply unfiltered.imp (fun _ => True)
  · intro system next _ isUnfiltered
    refine ⟨isUnfiltered.1, ?_⟩
    intro session found notification _
    exact decide_eq_true (.inl (isUnfiltered.2 session found))
  · exact fun _ _ _ _ => trivial
  · trivial

/-- The senders are dropped before the timer ticks: the batch is lost. -/
theorem batch_lost :
    let run : List NotificationStep := [
      .subscribe "user_01" "gateway_01", .registerSession "gateway_01" "session_01" "user_01",
      .publish ⟨"message_01", .AccountUpdate, "user_01", 2⟩ .asIs, .process, .process, .process,
      .receive "gateway_01" .asIs, .dropSenders, .receive "gateway_01" .asIs]
    Finished ["gateway_01"] (run.foldl step (new ["gateway_01"])) ∧
      ¬ Delivers ["gateway_01"] run := by
  intro run
  refine ⟨by decide +kernel, ?_⟩
  intro delivers
  rcases delivers (run.take 2) (run.drop 2) rfl "gateway_01" (by decide) "session_01" "user_01" 2
    (fun _ => true) ⟨⟨"session_01", "user_01", ∅⟩, by decide +kernel, rfl⟩
    (listens_of_unfiltered _ (by decide +kernel)) with ⟨earlier, _, sent⟩
  have nothing : (outputs step (sentBy "gateway_01" "session_01") (run.drop 2)
      ((run.take 2).foldl step (new ["gateway_01"]))).filter
        (chosenOf "user_01" 2 fun _ => true) = [] := by
    decide +kernel
  have published : (outputs step accepted (run.drop 2)
      ((run.take 2).foldl step (new ["gateway_01"]))).filter
        (chosenOf "user_01" 2 fun _ => true) =
          [⟨"message_01", .AccountUpdate, "user_01", 2⟩] := by
    decide +kernel
  rw [nothing, published] at sent
  simp at sent

/-- A user that is subscribed once for each of two sessions gets everything twice. -/
example :
    let notification : NotificationMessage := ⟨"message_01", .RiskAlert, "user_01", 0⟩
    outputs step (sentBy "gateway_01" "session_01") [
      .registerSession "gateway_01" "session_01" "user_01", .subscribe "user_01" "gateway_01",
      .registerSession "gateway_01" "session_02" "user_01", .subscribe "user_01" "gateway_01",
      .publish notification .asIs, .process, .receive "gateway_01" .asIs, .push "gateway_01",
      .receive "gateway_01" .asIs, .push "gateway_01"] (new ["gateway_01"]) =
        [notification, notification] := by
  decide +kernel

end NotificationSystem

end QAExchange
