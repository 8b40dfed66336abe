import QAExchange.Foundation.Runs
import QAExchange.Notification.NotificationBroker

/-! # The index of the sessions

A session that is registered once is in the index once. When its id is registered again,
the first user keeps the id in the index, and the notifications of that user go to the
session of the other.
-/

namespace QAExchange

open Foundation

inductive RegistrationCall
  | register (sessionId userId : String)
  | unregister (sessionId : String)

namespace NotificationGateway

def call (gateway : NotificationGateway) : RegistrationCall → NotificationGateway
  | .register sessionId userId => gateway.registerSession sessionId userId
  | .unregister sessionId => gateway.unregisterSession sessionId

/-- Each session is in the index once, under its user, and nothing else is; the counter is
right; and what is sent for a notification goes to sessions of its user. -/
structure IndexSound (gateway : NotificationGateway) : Prop where
  once : ∀ session ∈ gateway.sessions.rows, ∀ user,
    (gateway.userSessions user).count session.sessionId = if session.userId = user then 1 else 0
  live : ∀ user, ∀ id ∈ gateway.userSessions user, ∃ session ∈ gateway.sessions.rows,
    session.sessionId = id
  counted : gateway.activeSessions.toNat = gateway.sessions.rows.length
  confidential : ∀ notification, ∀ push ∈ gateway.pushNotification notification,
    push.session.userId = notification.userId

def Fresh (gateway : NotificationGateway) : RegistrationCall → Prop
  | .register sessionId _ => gateway.sessions.get sessionId = none ∧
      gateway.sessions.rows.length + 1 < 2 ^ 64
  | .unregister _ => True

/-- An id is in the index of a user once if it is that of a session of the user, and not at
all if not. -/
def OccursOnce (gateway : NotificationGateway) : Prop :=
  ∀ user id, (gateway.userSessions user).count id =
    if ∃ session ∈ gateway.sessions.get id, session.userId = user then 1 else 0

structure Indexed (gateway : NotificationGateway) : Prop where
  occurs : gateway.OccursOnce
  counted : gateway.activeSessions.toNat = gateway.sessions.rows.length

variable {gateway : NotificationGateway}

theorem mem_pushNotification :
    push ∈ gateway.pushNotification notification ↔
      ∃ id ∈ gateway.userSessions notification.userId, ∃ session ∈ gateway.sessions.get id,
        session.admits notification = true ∧ push = ⟨session, notification⟩ := by
  rw [pushNotification, List.mem_filterMap]
  constructor
  · rintro ⟨id, member, sent⟩
    rw [pushTo] at sent
    rcases Option.bind_eq_some_iff.mp sent with ⟨session, found, isSent⟩
    split_ifs at isSent with admitted
    cases isSent
    exact ⟨id, member, session, found, admitted, rfl⟩
  · rintro ⟨id, member, session, found, admitted, rfl⟩
    refine ⟨id, member, ?_⟩
    rw [pushTo, Option.mem_def.mp found, Option.bind_some, if_pos admitted]

theorem indexSound_iff (gateway : NotificationGateway) : gateway.IndexSound ↔ gateway.Indexed := by
  constructor
  · intro sound
    refine ⟨?_, sound.counted⟩
    intro user id
    cases found : gateway.sessions.get id with
    | none =>
      rw [if_neg (by simp)]
      apply List.count_eq_zero.mpr
      intro member
      rcases sound.live user id member with ⟨session, isSession, isId⟩
      exact KeyedRows.get_eq_none.mp found session isSession isId
    | some session =>
      rcases KeyedRows.get_eq_some.mp found with ⟨member, isId⟩
      have times := sound.once session member user
      rw [isId] at times
      rw [times]
      simp
  · intro indexed
    refine ⟨?_, ?_, indexed.counted, ?_⟩
    · intro session member user
      have found := KeyedRows.get_eq_some.mpr ⟨member, rfl⟩
      rw [indexed.occurs, found]
      simp
    · intro user id member
      have times := indexed.occurs user id
      have some := List.count_pos_iff.mpr member
      split_ifs at times with live
      · rcases live with ⟨session, found, _⟩
        exact ⟨session, KeyedRows.get_eq_some.mp found⟩
      · omega
    · intro notification push member
      rcases mem_pushNotification.mp member with ⟨id, inIndex, session, found, _, rfl⟩
      have times := indexed.occurs notification.userId id
      have some := List.count_pos_iff.mpr inIndex
      split_ifs at times with live
      · rcases live with ⟨other, isOther, isUser⟩
        rw [Option.mem_def] at found isOther
        rw [found] at isOther
        cases isOther
        exact isUser
      · omega

theorem occursOnce_new : new.OccursOnce := by
  intro user id
  rfl

theorem count_registerSession (sessionId userId user id : String) (gateway : NotificationGateway) :
    ((gateway.registerSession sessionId userId).userSessions user).count id =
      (gateway.userSessions user).count id +
        if user = userId ∧ sessionId = id then 1 else 0 := by
  rw [registerSession]
  dsimp only
  by_cases isUser : user = userId
  · rw [isUser, Function.update_self, List.count_append, List.count_singleton]
    simp [beq_iff_eq]
  · rw [Function.update_of_ne isUser, if_neg fun same => isUser same.1, Nat.add_zero]

theorem get_registerSession (sessionId userId id : String) (gateway : NotificationGateway) :
    (gateway.registerSession sessionId userId).sessions.get id =
      if sessionId = id then some ⟨sessionId, userId, ∅⟩ else gateway.sessions.get id :=
  KeyedRows.get_insert _ _ _

theorem OccursOnce.registerSession (occurs : gateway.OccursOnce)
    (isNew : gateway.sessions.get sessionId = none) (userId : String) :
    (gateway.registerSession sessionId userId).OccursOnce := by
  intro user id
  rw [count_registerSession, occurs, get_registerSession]
  by_cases isId : sessionId = id
  · rw [← isId, isNew]
    simp [eq_comm]
  · simp [isId]

/-- A registration keeps the index if and only if its id is new and the counter has room. -/
theorem indexed_registerSession_iff (indexed : gateway.Indexed) (sessionId userId : String) :
    (gateway.registerSession sessionId userId).Indexed ↔
      gateway.Fresh (.register sessionId userId) := by
  have counter : (gateway.registerSession sessionId userId).activeSessions.toNat =
      (gateway.sessions.rows.length + 1) % 2 ^ 64 := by
    rw [← indexed.counted]
    exact BitVec.toNat_add _ _
  constructor
  · intro after
    have isNew : gateway.sessions.get sessionId = none := by
      by_contra live
      rcases Option.ne_none_iff_exists'.mp live with ⟨session, found⟩
      -- the first user keeps the id
      have before := indexed.occurs session.userId sessionId
      have again := after.occurs session.userId sessionId
      rw [count_registerSession, before, get_registerSession, if_pos rfl, found] at again
      by_cases sameUser : session.userId = userId
      · simp [sameUser] at again
      · simp [sameUser, Ne.symm sameUser] at again
    refine ⟨isNew, ?_⟩
    have counted := after.counted
    rw [counter, registerSession] at counted
    dsimp only at counted
    rw [KeyedRows.length_insert isNew] at counted
    have below := Nat.mod_lt (gateway.sessions.rows.length + 1) (Nat.two_pow_pos 64)
    omega
  · rintro ⟨isNew, room⟩
    refine ⟨indexed.occurs.registerSession isNew userId, ?_⟩
    · rw [counter, Nat.mod_eq_of_lt room, registerSession]
      exact (KeyedRows.length_insert isNew).symm

theorem OccursOnce.unregisterSession (occurs : gateway.OccursOnce) (sessionId : String) :
    (gateway.unregisterSession sessionId).OccursOnce := by
  rw [NotificationGateway.unregisterSession]
  cases found : gateway.sessions.get sessionId with
  | none => exact occurs
  | some session =>
    intro user id
    dsimp only
    rw [KeyedRows.get_remove]
    have before := occurs user id
    by_cases isUser : user = session.userId
    · rw [isUser, Function.update_self]
      by_cases isGone : id = sessionId
      · rw [if_pos isGone, isGone, if_neg (by simp)]
        exact List.count_eq_zero.mpr (by simp)
      · rw [if_neg isGone, ← isUser, List.count_filter (by simpa using isGone), before]
    · rw [Function.update_of_ne isUser, before]
      by_cases isGone : id = sessionId
      · rw [if_pos isGone, isGone, found]
        simp [Ne.symm isUser]
      · rw [if_neg isGone]

theorem Indexed.unregisterSession (indexed : gateway.Indexed) (sessionId : String) :
    (gateway.unregisterSession sessionId).Indexed := by
  refine ⟨indexed.occurs.unregisterSession sessionId, ?_⟩
  rw [NotificationGateway.unregisterSession]
  cases found : gateway.sessions.get sessionId with
  | none => exact indexed.counted
  | some session =>
    have shorter := KeyedRows.length_remove found
    have counted := indexed.counted
    have some : 1 ≤ gateway.activeSessions := by
      rw [BitVec.le_def, counted]
      change 1 ≤ _
      omega
    dsimp only
    rw [BitVec.toNat_sub_of_le some, counted]
    change _ - 1 = _
    omega

theorem OccursOnce.changeSubscriptions (occurs : gateway.OccursOnce)
    (change : Finset String → Finset String) (sessionId : String) :
    (gateway.changeSubscriptions change sessionId).OccursOnce := by
  rw [NotificationGateway.changeSubscriptions]
  cases found : gateway.sessions.get sessionId with
  | none => exact occurs
  | some session =>
    have isId := (KeyedRows.get_eq_some.mp found).2
    intro user id
    dsimp only
    rw [KeyedRows.get_insert, occurs user id]
    by_cases same : session.sessionId = id
    · rw [if_pos same, ← same, isId, found]
      simp
    · rw [if_neg same]

/-- The index is right after a call if and only if the call is fresh. -/
theorem indexSound_call_iff (sound : gateway.IndexSound) (sessionCall : RegistrationCall) :
    (gateway.call sessionCall).IndexSound ↔ gateway.Fresh sessionCall := by
  have indexed := (indexSound_iff gateway).mp sound
  rw [indexSound_iff]
  cases sessionCall with
  | register sessionId userId => exact indexed_registerSession_iff indexed sessionId userId
  | unregister sessionId =>
    refine iff_of_true ?_ trivial
    exact indexed.unregisterSession sessionId

/-- The index is right in all of a run if and only if every registration is of an id that no
session has at the time, and the counter has room for it. -/
theorem indexSound_throughout_iff (calls : List RegistrationCall) :
    (∀ first, first <+: calls → (first.foldl call new).IndexSound) ↔
      Along call Fresh calls new := by
  have begins : new.IndexSound := (indexSound_iff new).mpr ⟨occursOnce_new, rfl⟩
  rw [forall_reached_iff calls begins]
  apply along_congr IndexSound
  · intro gateway sessionCall sound
    exact indexSound_call_iff sound sessionCall
  · intro gateway sessionCall _ stillSound
    exact stillSound
  · exact begins

/-- A session id that is used again without being free: what is for the first user is sent to
the session of the second one. -/
theorem registeredAgain_leaks :
    let gateway := [RegistrationCall.register "session_01" "user_01",
      .register "session_01" "user_02"].foldl call new
    gateway.pushNotification ⟨"message", .AccountUpdate, "user_01", 2⟩ =
        [⟨⟨"session_01", "user_02", ∅⟩, ⟨"message", .AccountUpdate, "user_01", 2⟩⟩] ∧
      ¬ gateway.IndexSound := by
  intro gateway
  have sent : gateway.pushNotification ⟨"message", .AccountUpdate, "user_01", 2⟩ =
      [⟨⟨"session_01", "user_02", ∅⟩, ⟨"message", .AccountUpdate, "user_01", 2⟩⟩] := by
    decide +kernel
  refine ⟨sent, ?_⟩
  intro sound
  have isUser := sound.confidential ⟨"message", .AccountUpdate, "user_01", 2⟩ _
    (sent ▸ List.mem_singleton_self _)
  revert isUser
  decide

end NotificationGateway

end QAExchange
