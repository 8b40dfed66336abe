import Mathlib.Data.List.Induction
import QAExchange.Storage.UnifiedRecovery
import QAExchange.Storage.WalOrder

/-! # Recovered orders

The recovery manager opens the directory of all accounts as if it were one log. Each
user has a log in a directory of its own below it, and what is in there is not read.
-/

namespace QAExchange

open Foundation Action WalManager WalRecord

/-! ## What recovery is for -/

/-- The text names a directory of its own, which does not look like a log file, or it is
empty. -/
def IsDirectoryName (text : String) : Prop :=
  '/' ∉ text.toList ∧ Char.ofNat 0 ∉ text.toList ∧ text ≠ "." ∧ text ≠ ".." ∧
    ¬ ['.', 'l', 'o', 'g'] <:+ text.toList

instance (text : String) : Decidable (IsDirectoryName text) := by
  unfold IsDirectoryName
  infer_instance

namespace OrderStatusCall

structure Valid (call : OrderStatusCall) : Prop where
  orderId : Fits 64 call.orderId
  userId : Fits 32 call.userId
  instrumentId : Fits 16 call.instrumentId
  directory : IsDirectoryName call.userId

instance (call : OrderStatusCall) : Decidable call.Valid :=
  decidable_of_iff (Fits 64 call.orderId ∧ Fits 32 call.userId ∧ Fits 16 call.instrumentId ∧
      IsDirectoryName call.userId)
    ⟨fun ⟨orderId, userId, instrumentId, directory⟩ => ⟨orderId, userId, instrumentId, directory⟩,
      fun valid => ⟨valid.orderId, valid.userId, valid.instrumentId, valid.directory⟩⟩

def SamePair (left right : OrderStatusCall) : Prop :=
  left.userId = right.userId ∧ left.orderId = right.orderId

/-- The entry for the call. A message that does not fit its array is cut there. -/
def recovered (call : OrderStatusCall) (sequence : ℕ) : RecoveredOrder where
  orderId := call.orderId
  userId := call.userId
  instrumentId := call.instrumentId
  exchangeId := UnifiedRecoveryManager.exchangeId call.instrumentId
  direction := call.direction
  offset := call.offset
  status := call.status
  volumeOrign := call.volumeOrign
  volumeLeft := call.volumeLeft
  volumeFilled := call.volumeFilled
  limitPrice := call.limitPrice
  avgPrice := call.avgPrice
  frozenMargin := call.frozenMargin
  frozenAmount := call.frozenAmount
  lastMsg := fromFixedArray (toFixedArray 128 call.lastMsg)
  timestamp := call.timestamp
  lastSequence := sequence

/-- The last of the calls for its user and order. -/
def IsLast (calls : List OrderStatusCall) (call : OrderStatusCall) : Prop :=
  ∃ earlier later, calls = earlier ++ call :: later ∧ ∀ other ∈ later, ¬ SamePair other call

end OrderStatusCall

open OrderStatusCall

/-- One entry for each user and order of the calls, from the last call for them. -/
structure HoldsLast (calls : List OrderStatusCall) (orders : List RecoveredOrder) : Prop where
  single : orders.Pairwise fun left right =>
    ¬ (left.userId = right.userId ∧ left.orderId = right.orderId)
  complete : ∀ call, IsLast calls call → ∃ order ∈ orders, order = call.recovered order.lastSequence
  sound : ∀ order ∈ orders, ∃ call, IsLast calls call ∧ order = call.recovered order.lastSequence

def RecoversOrders (codec : EntryCodec WalRecord) (calls : List OrderStatusCall) (seconds : ℤ) :
    Prop :=
  let logged := TradeGateway.logOrderStatuses codec calls .empty
  ∃ recovered,
    UnifiedRecoveryManager.recover codec .fullRecovery logged.2 seconds = .ok recovered ∧
      HoldsLast logged.1 recovered.orders.rows

namespace OrderStatusCall

variable {calls : List OrderStatusCall} {call : OrderStatusCall}

theorem isLast_concat :
    IsLast (calls ++ [added]) call ↔
      call = added ∨ IsLast calls call ∧ ¬ SamePair added call := by
  constructor
  · rintro ⟨earlier, later, isAppend, final⟩
    rcases List.eq_nil_or_concat later with rfl | ⟨front, last, rfl⟩
    · have same := (List.append_inj' isAppend rfl).2
      exact .inl (List.singleton_inj.mp same).symm
    · rw [List.concat_eq_append, ← List.cons_append, ← List.append_assoc] at isAppend
      rcases List.append_inj' isAppend rfl with ⟨rest, same⟩
      have isAdded : last = added := (List.singleton_inj.mp same).symm
      subst isAdded
      refine .inr ⟨⟨earlier, front, rest, ?_⟩, final last (by simp)⟩
      intro other member
      exact final other (by simp [member])
  · rintro (rfl | ⟨⟨earlier, later, rfl, final⟩, different⟩)
    · exact ⟨calls, [], rfl, by simp⟩
    · refine ⟨earlier, later ++ [added], by simp, ?_⟩
      intro other member
      rcases List.mem_append.mp member with old | isAdded
      · exact final other old
      · rwa [List.mem_singleton.mp isAdded]

theorem IsLast.mem (isLast : IsLast calls call) : call ∈ calls := by
  rcases isLast with ⟨earlier, later, rfl, _⟩
  simp

theorem exists_isLast (member : call ∈ calls) : ∃ last, IsLast calls last ∧ SamePair last call := by
  induction calls using List.reverseRecOn with
  | nil => cases member
  | append_singleton calls added induction =>
    by_cases same : SamePair added call
    · exact ⟨added, isLast_concat.mpr (.inl rfl), same⟩
    · have old : call ∈ calls := by
        rcases List.mem_append.mp member with old | isAdded
        · exact old
        · exact absurd ⟨rfl, rfl⟩ (List.mem_singleton.mp isAdded ▸ same)
      rcases induction old with ⟨last, isLast, pair⟩
      refine ⟨last, isLast_concat.mpr (.inr ⟨isLast, ?_⟩), pair⟩
      intro samePair
      exact same ⟨samePair.1.trans pair.1, samePair.2.trans pair.2⟩

theorem Valid.recoveredOrder_record (valid : call.Valid) (sequence : ℕ) :
    UnifiedRecoveryManager.recoveredOrder sequence call.record = some (call.recovered sequence) := by
  simp only [record, UnifiedRecoveryManager.recoveredOrder, recovered,
    fromFixedArray_toFixedArray valid.orderId, fromFixedArray_toFixedArray valid.userId,
    fromFixedArray_toFixedArray valid.instrumentId]

theorem key_recovered_inj {left right : OrderStatusCall} (user : left.userId = right.userId)
    (same : (left.recovered first).key = (right.recovered second).key) : SamePair left right := by
  refine ⟨user, ?_⟩
  have lists := congrArg String.toList same
  simp only [RecoveredOrder.key, recovered, String.toList_append, user] at lists
  exact String.toList_injective (List.append_cancel_left lists)

end OrderStatusCall

structure Logged (codec : EntryCodec WalRecord) (root : WalRoot) (written : List OrderStatusCall) :
    Prop where
  made : ∀ userId manager, root.accountWals userId = some manager → userId ∈ root.accounts
  missing : ∀ call ∈ written, root.accountWals call.userId ≠ none
  holds : ∀ userId manager, root.accountWals userId = some manager → ∃ layout appended,
    Ordered codec manager layout [] appended ∧
      appended.map Prod.snd =
        (written.filter fun call => call.userId = userId).map OrderStatusCall.record
  instruments : root.instruments = []

namespace Logged

variable {codec : EntryCodec WalRecord} {root : WalRoot} {written : List OrderStatusCall}

theorem empty (codec : EntryCodec WalRecord) : Logged codec .empty [] where
  made := by simp [WalRoot.empty]
  missing := by simp
  holds := by simp [WalRoot.empty]
  instruments := rfl

theorem none_of_missing (logged : Logged codec root written) {userId : String}
    (missing : root.accountWals userId = none) :
    written.filter (fun call => call.userId = userId) = [] := by
  rw [List.filter_eq_nil_iff]
  intro call member
  simp only [decide_eq_true_eq]
  intro same
  exact logged.missing call member (same ▸ missing)

theorem replace (logged : Logged codec root written) (accounts : List String) {userId : String}
    (kept : ∀ other ∈ root.accounts, other ∈ accounts) (known : userId ∈ accounts)
    (manager : WalManager) (more : List OrderStatusCall)
    (owner : ∀ call ∈ more, call.userId = userId)
    (holds : ∃ layout appended, Ordered codec manager layout [] appended ∧
      appended.map Prod.snd =
        ((written ++ more).filter fun call => call.userId = userId).map OrderStatusCall.record) :
    Logged codec { root with
      accounts := accounts
      accountWals := Function.update root.accountWals userId (some manager) }
      (written ++ more) := by
  constructor
  · intro other found isManager
    dsimp only at isManager ⊢
    by_cases same : other = userId
    · rwa [same]
    · rw [Function.update_of_ne same] at isManager
      exact kept other (logged.made other found isManager)
  · intro call member
    dsimp only
    by_cases same : call.userId = userId
    · simp [same]
    · rw [Function.update_of_ne same]
      rcases List.mem_append.mp member with old | isNew
      · exact logged.missing call old
      · exact absurd (owner call isNew) same
  · intro other found isManager
    dsimp only at isManager
    by_cases same : other = userId
    · subst same
      rw [Function.update_self] at isManager
      cases isManager
      exact holds
    · rw [Function.update_of_ne same] at isManager
      rcases logged.holds other found isManager with ⟨layout, appended, ordered, records⟩
      have others : more.filter (fun call => call.userId = other) = [] := by
        rw [List.filter_eq_nil_iff]
        intro call member
        simp only [decide_eq_true_eq, owner call member]
        exact fun equal => same equal.symm
      refine ⟨layout, appended, ordered, ?_⟩
      rw [List.filter_append, others, List.append_nil]
      exact records
  · exact logged.instruments

theorem getOrCreate (logged : Logged codec root written) (userId : String) (seconds : ℤ) :
    ∃ manager after,
      exec (TradeGateway.getOrCreateAccountWal codec userId seconds) root = (.ok manager, after) ∧
        after.accountWals userId = some manager ∧ Logged codec after written := by
  rw [TradeGateway.getOrCreateAccountWal, exec_bind_ok (exec_read _ _)]
  cases found : root.accountWals userId with
  | some manager => exact ⟨manager, root, rfl, found, logged⟩
  | none =>
    have isNew : userId ∈ root.accounts ++ [userId] := by simp
    have added := logged.replace (root.accounts ++ [userId])
      (fun other member => List.mem_append_left _ member) isNew
      (WalManager.new codec [] seconds) [] (by simp)
      ⟨_, [], ordered_new codec seconds .default, by
        rw [List.append_nil, logged.none_of_missing found]
        rfl⟩
    rw [List.append_nil] at added
    exact ⟨_, _, rfl, Function.update_self _ _ _, added⟩

theorem logOrderStatus (logged : Logged codec root written) (call : OrderStatusCall) :
    match exec (TradeGateway.logOrderStatus codec call) root with
    | (.ok _, after) => Logged codec after (written ++ [call])
    | (.error _, after) => Logged codec after written := by
  rcases logged.getOrCreate call.userId call.seconds with ⟨manager, middle, found, isManager, logged⟩
  rcases logged.holds _ manager isManager with ⟨layout, appended, ordered, records⟩
  have known := logged.made _ manager isManager
  rw [TradeGateway.logOrderStatus, exec_bind_ok found]
  dsimp only
  rcases exec_append_eq codec call.seconds ⟨call.entryTimestamp, call.record⟩ manager with
    ⟨serializes, ran⟩ | ⟨_, text, count, ran⟩
  · rw [ran, exec_bind_ok (exec_update _ _)]
    apply logged.replace _ (fun _ member => member) known
    · simp
    · refine ⟨_, _, ordered.wroteNumbered call.seconds _ serializes.stored (by simp), ?_⟩
      rw [List.map_append, records, List.filter_append, List.map_append]
      simp only [List.filter_cons, List.filter_nil, decide_true, if_true]
      rfl
  · rw [ran, exec_bind_ok (exec_update _ _)]
    have kept := logged.replace _ (fun _ member => member) known (manager.advanced count) []
      (by simp) ⟨layout, appended, ordered.skipped count, by rwa [List.append_nil]⟩
    rwa [List.append_nil] at kept

theorem logOrderStatuses : ∀ {calls : List OrderStatusCall} {root : WalRoot}
    {written : List OrderStatusCall}, Logged codec root written →
    Logged codec (TradeGateway.logOrderStatuses codec calls root).2
      (written ++ (TradeGateway.logOrderStatuses codec calls root).1)
  | [], _, _, logged => by
    rw [TradeGateway.logOrderStatuses, List.append_nil]
    exact logged
  | call :: calls, root, written, logged => by
    have step := logged.logOrderStatus call
    rw [TradeGateway.logOrderStatuses]
    rcases ran : exec (TradeGateway.logOrderStatus codec call) root with ⟨_ | _, after⟩
    · rw [ran] at step
      exact step.logOrderStatuses
    · rw [ran] at step
      have rest : Logged codec _ (written ++ [call] ++ (TradeGateway.logOrderStatuses codec calls
        after).1) := step.logOrderStatuses
      rwa [List.append_assoc, List.singleton_append] at rest

end Logged

/-! ## What recovery reads -/

namespace UnifiedRecoveryManager

def absorb (recovered : UnifiedRecoveryResult) (entry : WalEntry WalRecord) :
    UnifiedRecoveryResult :=
  processRecord .fullRecovery entry.sequence entry.record { recovered with
    stats := recovered.stats.record entry.record
    lastSequence := max recovered.lastSequence entry.sequence }

theorem exec_forM_recoverEntry (entries : List (WalEntry WalRecord))
    (recovered : UnifiedRecoveryResult) :
    exec (forM entries (recoverEntry .fullRecovery (processRecord .fullRecovery))) recovered =
      (.ok (), entries.foldl absorb recovered) := by
  induction entries generalizing recovered with
  | nil => rfl
  | cons entry entries induction =>
    have first : exec (recoverEntry .fullRecovery (processRecord .fullRecovery) entry) recovered =
        (.ok (), absorb recovered entry) := rfl
    rw [List.forM_cons, exec_bind_ok first, induction, List.foldl_cons]

theorem shouldUpdate_of_newer {order : RecoveredOrder} {orders : KeyedRows RecoveredOrder.key}
    (newer : ∀ existing ∈ orders.rows, existing.lastSequence < order.lastSequence) :
    shouldUpdate order orders = true := by
  rw [shouldUpdate]
  cases found : orders.rows.find? fun existing => existing.key = order.key with
  | none => rfl
  | some existing => exact decide_eq_true (newer existing (List.mem_of_find?_eq_some found))

theorem holdsLast_insert {call : OrderStatusCall} {sequence : ℕ}
    {orders : KeyedRows RecoveredOrder.key} (held : HoldsLast calls orders.rows)
    (user : ∀ other ∈ calls, other.userId = call.userId) :
    HoldsLast (calls ++ [call]) (orders.insert (call.recovered sequence)).rows := by
  have different : ∀ {other : OrderStatusCall} {first : ℕ}, IsLast calls other →
      ((other.recovered first).key ≠ (call.recovered sequence).key ↔ ¬ SamePair call other) := by
    intro other first isLast
    apply not_congr
    constructor
    · intro same
      exact key_recovered_inj (user other isLast.mem).symm same.symm
    · intro same
      simp only [RecoveredOrder.key, OrderStatusCall.recovered, same.1, same.2]
  constructor
  · apply (orders.insert (call.recovered sequence)).sorted.imp
    intro left right before same
    simp only [RecoveredOrder.key, same.1, same.2] at before
    exact lt_irrefl _ before
  · intro other isLast
    rcases isLast_concat.mp isLast with rfl | ⟨old, apart⟩
    · exact ⟨_, KeyedRows.mem_insert.mpr (.inl rfl), rfl⟩
    · rcases held.complete other old with ⟨order, member, isOrder⟩
      refine ⟨order, KeyedRows.mem_insert.mpr (.inr ⟨member, ?_⟩), isOrder⟩
      rw [isOrder]
      exact (different old).mpr apart
  · intro order member
    rcases KeyedRows.mem_insert.mp member with rfl | ⟨old, otherKey⟩
    · exact ⟨call, isLast_concat.mpr (.inl rfl), rfl⟩
    · rcases held.sound order old with ⟨other, isLast, isOrder⟩
      refine ⟨other, isLast_concat.mpr (.inr ⟨isLast, ?_⟩), isOrder⟩
      rw [isOrder] at otherKey
      exact (different isLast).mp otherKey

theorem holdsLast_foldl {userId : String} : ∀ {calls before : List OrderStatusCall}
    {entries : List (WalEntry WalRecord)} {recovered : UnifiedRecoveryResult},
    HoldsLast before recovered.orders.rows →
    (∀ call ∈ before ++ calls, call.userId = userId) → (∀ call ∈ calls, call.Valid) →
    entries.map WalEntry.record = calls.map OrderStatusCall.record →
    (entries.map WalEntry.sequence).Pairwise (· < ·) →
    (∀ order ∈ recovered.orders.rows, ∀ entry ∈ entries, order.lastSequence < entry.sequence) →
    HoldsLast (before ++ calls) (entries.foldl absorb recovered).orders.rows
  | [], before, entries, recovered, held, _, _, records, _, _ => by
    have none : entries = [] := List.map_eq_nil_iff.mp records
    rw [none, List.append_nil]
    exact held
  | call :: calls, before, [], _, _, _, _, records, _, _ => by cases records
  | call :: calls, before, entry :: entries, recovered, held, user, valid, records, increasing,
      newer => by
      rcases List.cons_eq_cons.mp records with ⟨isRecord, records⟩
      rcases List.pairwise_cons.mp increasing with ⟨smaller, increasing⟩
      have owner : call.userId = userId := user call (by simp)
      have orders : (absorb recovered entry).orders =
          recovered.orders.insert (call.recovered entry.sequence) := by
        have update : shouldUpdate (call.recovered entry.sequence) recovered.orders = true :=
          shouldUpdate_of_newer fun existing member => newer existing member entry (by simp)
        rw [absorb, processRecord, isRecord, (valid call (by simp)).recoveredOrder_record]
        simp only [update]
        rfl
      have held : HoldsLast (before ++ [call]) (absorb recovered entry).orders.rows := by
        rw [orders]
        apply holdsLast_insert held
        intro other member
        rw [owner]
        exact user other (by simp [member])
      have appended : before ++ [call] ++ calls = before ++ call :: calls := by simp
      have newer : ∀ order ∈ (absorb recovered entry).orders.rows, ∀ later ∈ entries,
          order.lastSequence < later.sequence := by
        intro order member later isLater
        rw [orders] at member
        rcases KeyedRows.mem_insert.mp member with rfl | ⟨old, _⟩
        · exact smaller later.sequence (List.mem_map_of_mem isLater)
        · exact newer order old later (List.mem_cons_of_mem _ isLater)
      have validRest : ∀ call ∈ calls, call.Valid := fun other member =>
        valid other (List.mem_cons_of_mem _ member)
      rw [← appended] at user ⊢
      rw [List.foldl_cons]
      exact holdsLast_foldl held user validRest records increasing newer

section Recover

variable {codec : EntryCodec WalRecord} {root : WalRoot} {written : List OrderStatusCall}

theorem exec_replayDirectory (roundTrip : codec.RoundTrip) {manager : WalManager}
    {layout : Layout WalRecord} {appended : List (ℕ × WalRecord)}
    (ordered : Ordered codec manager layout [] appended) {files : List WalFile} {seconds : ℤ}
    (opened : (WalManager.new codec files seconds).files = manager.files) (failure : String)
    (recovered : UnifiedRecoveryResult) :
    exec (replayDirectory codec .fullRecovery (processRecord .fullRecovery) failure files seconds)
      recovered = (.ok (), layout.entries.foldl absorb recovered) := by
  have replayed : exec (WalManager.replay codec
      (recoverEntry .fullRecovery (processRecord .fullRecovery)) manager.files) recovered =
      (.ok (), layout.entries.foldl absorb recovered) := by
    rw [ordered.stores.files, replay_segments roundTrip _ ordered.stores.stored]
    exact exec_forM_recoverEntry _ _
  rw [← opened] at replayed
  simp only [exec, replayDirectory] at replayed ⊢
  rw [replayed]

theorem files_new {files : List WalFile} (some : files ≠ []) (seconds : ℤ) :
    (WalManager.new codec files seconds).files = files := by
  rw [WalManager.new]
  cases last : files.getLast? with
  | none => exact absurd (List.getLast?_eq_none_iff.mp last) some
  | some latest => rfl

theorem exec_recoverAccountWal (roundTrip : codec.RoundTrip) (logged : Logged codec root written)
    (valid : ∀ call ∈ written, call.Valid) (seconds : ℤ) :
    ∃ recovered,
      exec (recoverAccountWal codec .fullRecovery root seconds) .default = (.ok (), recovered) ∧
        HoldsLast (written.filter fun call => call.userId = "") recovered.orders.rows := by
  have nothing : HoldsLast [] UnifiedRecoveryResult.default.orders.rows := by
    constructor
    · exact .nil
    · intro call isLast
      cases isLast.mem
    · intro order member
      cases member
  rw [recoverAccountWal]
  cases found : root.accountWals "" with
  | none =>
    rw [logged.none_of_missing found]
    cases isEmpty : root.accounts.isEmpty with
    | true => exact ⟨_, rfl, nothing⟩
    | false =>
      have files : accountFiles root = [] := by rw [accountFiles, found]
      rw [files]
      exact ⟨_, exec_replayDirectory roundTrip (ordered_new codec seconds .default) rfl
        "Account WAL replay failed: " _, nothing⟩
  | some manager =>
    have known := logged.made "" manager found
    have isFull : root.accounts.isEmpty = false :=
      List.isEmpty_eq_false_iff.mpr (List.ne_nil_of_mem known)
    have files : accountFiles root = manager.files := by rw [accountFiles, found]
    rcases logged.holds "" manager found with ⟨layout, appended, ordered, records⟩
    have some : manager.files ≠ [] := by
      rw [ordered.stores.files]
      have segments := ordered.stores.nonempty ordered.linked
      simpa using segments
    rw [isFull, files]
    refine ⟨_, exec_replayDirectory roundTrip ordered (files_new some seconds) _ _, ?_⟩
    have increasing := ordered.increasing
    have same := ordered.appended_eq
    rw [List.append_nil] at increasing same
    rw [same, List.map_map] at records
    have user : ∀ call ∈ [] ++ written.filter (fun call => call.userId = ""),
        call.userId = "" := by
      intro call member
      simpa using (List.mem_filter.mp member).2
    have validUser : ∀ call ∈ written.filter (fun call => call.userId = ""), call.Valid :=
      fun call member => valid call (List.mem_filter.mp member).1
    apply holdsLast_foldl nothing user validUser records increasing
    intro order member
    cases member

theorem recover_logged (roundTrip : codec.RoundTrip) (logged : Logged codec root written)
    (valid : ∀ call ∈ written, call.Valid) (seconds : ℤ) :
    ∃ recovered, recover codec .fullRecovery root seconds = .ok recovered ∧
      HoldsLast (written.filter fun call => call.userId = "") recovered.orders.rows := by
  rcases exec_recoverAccountWal roundTrip logged valid seconds with ⟨recovered, ran, held⟩
  refine ⟨recovered, ?_, held⟩
  have instruments : recoverInstrumentWals codec .fullRecovery root seconds = pure () := by
    rw [recoverInstrumentWals, logged.instruments]
    rfl
  have both : exec (do
      runIf (RecoveryConfig.fullRecovery.recoverAccounts ||
        RecoveryConfig.fullRecovery.recoverUsers) (recoverAccountWal codec .fullRecovery root seconds)
      runIf (RecoveryConfig.fullRecovery.recoverKlines ||
        RecoveryConfig.fullRecovery.recoverFactors)
        (recoverInstrumentWals codec .fullRecovery root seconds)) .default =
      (.ok (), recovered) := by
    rw [instruments]
    exact exec_bind_ok ran
  rw [recover, both]

end Recover

end UnifiedRecoveryManager

open UnifiedRecoveryManager

theorem TradeGateway.mem_logOrderStatuses :
    ∀ {calls : List OrderStatusCall} {root : WalRoot} {call : OrderStatusCall},
      call ∈ (logOrderStatuses codec calls root).1 → call ∈ calls
  | [], _, _, member => by cases member
  | first :: calls, root, call, member => by
    rw [logOrderStatuses] at member
    rcases ran : exec (logOrderStatus codec first) root with ⟨_ | _, after⟩
    · rw [ran] at member
      exact List.mem_cons_of_mem _ (mem_logOrderStatuses member)
    · rw [ran] at member
      rcases List.mem_cons.mp member with rfl | later
      · exact List.mem_cons_self
      · exact List.mem_cons_of_mem _ (mem_logOrderStatuses later)

open TradeGateway

/-- Recovery returns the last state of every order that was logged if and only if only the
user whose id is empty has logged orders. -/
theorem recoversOrders_iff {codec : EntryCodec WalRecord} (roundTrip : codec.RoundTrip)
    {calls : List OrderStatusCall} (valid : ∀ call ∈ calls, call.Valid) (seconds : ℤ) :
    RecoversOrders codec calls seconds ↔
      ∀ call ∈ (logOrderStatuses codec calls .empty).1, call.userId = "" := by
  have logged : Logged codec (logOrderStatuses codec calls .empty).2
      (logOrderStatuses codec calls .empty).1 :=
    (Logged.empty codec).logOrderStatuses
  have validWritten : ∀ call ∈ (logOrderStatuses codec calls .empty).1, call.Valid :=
    fun call member => valid call (mem_logOrderStatuses member)
  rcases recover_logged roundTrip logged validWritten seconds with ⟨recovered, ran, held⟩
  constructor
  · rintro ⟨found, isFound, whole⟩ call member
    rw [ran] at isFound
    cases isFound
    rcases exists_isLast member with ⟨last, isLast, pair⟩
    rcases whole.complete last isLast with ⟨order, isOrder, ofLast⟩
    rcases held.sound order isOrder with ⟨other, isOther, ofOther⟩
    have noUser : other.userId = "" := by
      simpa using (List.mem_filter.mp isOther.mem).2
    calc
      call.userId = last.userId := pair.1.symm
      _ = order.userId := by rw [ofLast]; rfl
      _ = other.userId := by rw [ofOther]; rfl
      _ = "" := noUser
  · intro only
    have same : (logOrderStatuses codec calls .empty).1.filter
        (fun call => call.userId = "") = (logOrderStatuses codec calls .empty).1 := by
      rw [List.filter_eq_self]
      intro call member
      exact decide_eq_true (only call member)
    rw [same] at held
    exact ⟨recovered, ran, held⟩

/-- The states of an order for two lots, of which `left` are open. -/
def orderStatus (userId orderId : String) (left : ℕ) : OrderStatusCall where
  orderId := orderId
  userId := userId
  instrumentId := "SHFE.cu2501"
  status := if left = 0 then 1 else 0
  volumeOrign := 2
  volumeLeft := left
  volumeFilled := 2 - left
  frozenMargin := 0
  frozenAmount := 0
  direction := 0
  offset := 0
  limitPrice := 500
  avgPrice := 500
  lastMsg := ""
  timestamp := 10
  entryTimestamp := 11
  seconds := 0

def orderEntries (calls : List OrderStatusCall) : List (WalEntry WalRecord) :=
  calls.zipIdx.map fun (call, index) => ⟨index + 1, 0, call.entryTimestamp, call.record⟩

def ordersOf (userId : String) : List OrderStatusCall :=
  [orderStatus userId "o1" 2, orderStatus userId "o2" 2, orderStatus userId "o1" 0]

theorem noUser_recovers :
    RecoversOrders (tableCodec (orderEntries (ordersOf ""))) (ordersOf "") 0 := by
  rw [recoversOrders_iff (tableCodec_roundTrip _) (by decide +kernel)]
  decide +kernel

/-- The orders of the user are logged, and none of them is found. -/
theorem user_not_recovered :
    ¬ RecoversOrders (tableCodec (orderEntries (ordersOf "u1"))) (ordersOf "u1") 0 := by
  rintro ⟨recovered, ran, held⟩
  have written : (logOrderStatuses (tableCodec (orderEntries (ordersOf "u1")))
      (ordersOf "u1") .empty).1 = ordersOf "u1" := by
    decide +kernel
  have none : (UnifiedRecoveryManager.recover (tableCodec (orderEntries (ordersOf "u1")))
      .fullRecovery (logOrderStatuses (tableCodec (orderEntries (ordersOf "u1")))
        (ordersOf "u1") .empty).2 0).toOption.map (fun found => found.orders.rows) = some [] := by
    decide +kernel
  rw [ran] at none
  have noOrders : recovered.orders.rows = [] := Option.some.inj none
  have isLast : IsLast (ordersOf "u1") (orderStatus "u1" "o1" 0) :=
    ⟨[orderStatus "u1" "o1" 2, orderStatus "u1" "o2" 2], [], rfl, by simp⟩
  rw [← written] at isLast
  rcases held.complete _ isLast with ⟨order, member, _⟩
  rw [noOrders] at member
  cases member

end QAExchange
