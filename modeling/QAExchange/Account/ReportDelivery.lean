import QAExchange.Account.AccountSystemCore
import QAExchange.ReferenceQars

/-! # Every report reaches its account

A batch gives each account its trades in the order of the queue, whatever the order
of the accounts. So nothing is lost, applied twice or reordered while the loop runs,
but what is in the queue when it stops is dropped.
-/

namespace QAExchange

open Foundation Ipc

variable {Q : Qars}

def tradesOf (userId : String) (trades : List TradeReport) : List TradeReport :=
  trades.filter fun trade => text trade.userId = userId

@[simp] theorem tradesOf_nil (userId : String) : tradesOf userId [] = [] := rfl

@[simp] theorem tradesOf_append (userId : String) (first rest : List TradeReport) :
    tradesOf userId (first ++ rest) = tradesOf userId first ++ tradesOf userId rest :=
  List.filter_append ..

def Received.report? : Received → Option TradeReport
  | .trade report => some report
  | .accepted _ | .closed | .timeout => none

def receivedTrades (passes : List Pass) : List TradeReport :=
  passes.filterMap fun pass => pass.received.report?

/-- The queue after a message: it is handed on as a full batch or at a timeout. -/
def queueAfter (batchSize : ℕ) (queue : List TradeReport) : Received → List TradeReport
  | .trade trade => if batchSize ≤ queue.length + 1 then [] else queue ++ [trade]
  | .timeout => []
  | .accepted _ | .closed => queue

/-- The reports that have come since the last full batch or timeout. -/
def leftOver (batchSize : ℕ) (passes : List Pass) : List TradeReport :=
  passes.foldl (fun queue pass => queueAfter batchSize queue pass.received) []

namespace AccountEntry

variable {entry : AccountEntry Q}

@[simp] theorem applied_update_applied (trade : TradeReport) (dateTime : String) :
    (entry.update (.applied trade dateTime)).applied = entry.applied ++ [trade] := by
  simp [applied, update, AccountUpdate.trade?]

@[simp] theorem applied_update_confirmed (accepted : OrderAccepted) :
    (entry.update (.confirmed accepted)).applied = entry.applied := by
  simp [applied, update, AccountUpdate.trade?]

@[simp] theorem applied_applyTrades (dateTime : String) (trades : List TradeReport)
    (entry : AccountEntry Q) :
    (entry.applyTrades dateTime trades).applied = entry.applied ++ trades := by
  rw [applyTrades]
  induction trades generalizing entry with
  | nil => simp
  | cons trade trades induction =>
    rw [List.foldl_cons, induction, applied_update_applied, List.append_assoc]
    rfl

theorem applyTrades_append (dateTime : String) (first rest : List TradeReport)
    (entry : AccountEntry Q) :
    entry.applyTrades dateTime (first ++ rest) =
      (entry.applyTrades dateTime first).applyTrades dateTime rest := List.foldl_append

/-- The account is what its updates make of the first one. -/
def Explained (first : Account Q) (entry : AccountEntry Q) : Prop :=
  entry.account = entry.updates.foldl AccountUpdate.perform first

theorem Explained.update (explained : entry.Explained first) (update : AccountUpdate) :
    (entry.update update).Explained first := by
  rw [Explained] at explained ⊢
  simp only [AccountEntry.update, List.foldl_append, List.foldl_cons, List.foldl_nil, ← explained]

theorem Explained.applyTrades (explained : entry.Explained first) (dateTime : String)
    (trades : List TradeReport) : (entry.applyTrades dateTime trades).Explained first := by
  rw [AccountEntry.applyTrades]
  induction trades generalizing entry with
  | nil => exact explained
  | cons trade trades induction => exact induction (explained.update _)

end AccountEntry

namespace AccountSystemCore

/-! ## A batch -/

theorem lookup_groupTrades (trades : List TradeReport) (userId : String) :
    (groupTrades trades).lookup userId =
      if tradesOf userId trades = [] then none else some (tradesOf userId trades) := by
  induction trades using List.reverseRecOn with
  | nil => rfl
  | append_singleton trades trade induction =>
    rw [groupTrades, List.foldl_append, ← groupTrades]
    simp only [List.foldl_cons, List.foldl_nil]
    by_cases isUser : text trade.userId = userId
    · have own : tradesOf userId [trade] = [trade] := by simp [tradesOf, isUser]
      have filled : ¬ tradesOf userId trades ++ [trade] = [] := by simp
      rw [isUser, AList.lookup_insert, tradesOf_append, own, if_neg filled, induction]
      by_cases none : tradesOf userId trades = []
      · rw [if_pos none, none]
        rfl
      · rw [if_neg none]
        rfl
    · have other : tradesOf userId [trade] = [] := by simp [tradesOf, isUser]
      rw [AList.lookup_insert_ne (Ne.symm isUser), induction, tradesOf_append, other,
        List.append_nil]

def groupsOf (userId : String) (groups : List (String × List TradeReport)) : List TradeReport :=
  (groups.filter fun group => group.1 = userId).flatMap Prod.snd

theorem lookup_updateAccounts (now : Now) (groups : List (String × List TradeReport))
    (core : AccountSystemCore Q) (userId : String) :
    (groups.foldl (updateAccount now) core).accounts.lookup userId =
      (core.accounts.lookup userId).map
        (AccountEntry.applyTrades now.dateTime (groupsOf userId groups)) := by
  induction groups generalizing core with
  | nil =>
    rw [List.foldl_nil]
    cases core.accounts.lookup userId <;> rfl
  | cons group groups induction =>
    rw [List.foldl_cons, induction]
    have one : (updateAccount now core group).accounts.lookup userId =
        if group.1 = userId then (core.accounts.lookup userId).map
          (AccountEntry.applyTrades now.dateTime group.2)
        else core.accounts.lookup userId := by
      by_cases isUser : group.1 = userId
      · subst isUser
        rw [if_pos rfl, updateAccount]
        cases found : core.accounts.lookup group.1 with
        | none => exact found
        | some entry => exact AList.lookup_insert _
      · rw [if_neg isUser, updateAccount]
        cases core.accounts.lookup group.1 with
        | none => rfl
        | some entry => exact AList.lookup_insert_ne (Ne.symm isUser)
    rw [one]
    by_cases isUser : group.1 = userId
    · have split : groupsOf userId (group :: groups) = group.2 ++ groupsOf userId groups := by
        simp [groupsOf, isUser]
      rw [if_pos isUser, split, Option.map_map]
      congr 1
      funext entry
      exact (AccountEntry.applyTrades_append _ _ _ entry).symm
    · have same : groupsOf userId (group :: groups) = groupsOf userId groups := by
        simp [groupsOf, isUser]
      rw [if_neg isUser, same]

theorem groupsOf_eq {groups : List (String × List TradeReport)}
    (nodup : (groups.map Prod.fst).Nodup) (member : (userId, trades) ∈ groups) :
    groupsOf userId groups = trades := by
  induction groups with
  | nil => cases member
  | cons group groups induction =>
    rcases List.nodup_cons.mp nodup with ⟨absent, rest⟩
    rcases List.mem_cons.mp member with isFirst | later
    · subst isFirst
      have others : groups.filter (fun group => group.1 = userId) = [] := by
        rw [List.filter_eq_nil_iff]
        intro other inside same
        exact absent (List.mem_map.mpr ⟨other, inside, of_decide_eq_true same⟩)
      simp [groupsOf, others]
    · have differs : group.1 ≠ userId := by
        intro same
        exact absent (List.mem_map.mpr ⟨_, later, same.symm⟩)
      have same : groupsOf userId (group :: groups) = groupsOf userId groups := by
        simp [groupsOf, differs]
      rw [same, induction rest later]

theorem groupsOf_eq_nil {groups : List (String × List TradeReport)}
    (absent : userId ∉ groups.map Prod.fst) : groupsOf userId groups = [] := by
  have none : groups.filter (fun group => group.1 = userId) = [] := by
    rw [List.filter_eq_nil_iff]
    intro group inside same
    exact absent (List.mem_map.mpr ⟨group, inside, of_decide_eq_true same⟩)
  rw [groupsOf, none]
  rfl

theorem groupsOf_arrange (groups : GroupOrder) (trades : List TradeReport) (userId : String) :
    groupsOf userId (groups.arrange ((groupTrades trades).entries.map fun group =>
      (group.1, group.2))) = tradesOf userId trades := by
  have arranged := groups.perm ((groupTrades trades).entries.map fun group => (group.1, group.2))
  have keys : (((groupTrades trades).entries.map fun group => (group.1, group.2)).map
      Prod.fst) = (groupTrades trades).keys := by
    rw [List.map_map]
    rfl
  have nodup : ((groups.arrange ((groupTrades trades).entries.map fun group =>
      (group.1, group.2))).map Prod.fst).Nodup := by
    rw [(arranged.map Prod.fst).nodup_iff, keys]
    exact (groupTrades trades).keys_nodup
  have found := lookup_groupTrades trades userId
  by_cases none : tradesOf userId trades = []
  · rw [if_pos none, AList.lookup_eq_none] at found
    rw [none]
    apply groupsOf_eq_nil
    rw [(arranged.map Prod.fst).mem_iff, keys]
    exact found
  · rw [if_neg none] at found
    apply groupsOf_eq nodup
    rw [arranged.mem_iff]
    exact List.mem_map.mpr ⟨⟨userId, _⟩, AList.mem_lookup_iff.mp found, rfl⟩

theorem lookup_batchUpdateAccounts (now : Now) (groups : GroupOrder) (trades : List TradeReport)
    (core : AccountSystemCore Q) (userId : String) :
    (core.batchUpdateAccounts now groups trades).accounts.lookup userId =
      (core.accounts.lookup userId).map
        (AccountEntry.applyTrades now.dateTime (tradesOf userId trades)) := by
  rw [batchUpdateAccounts, lookup_updateAccounts, groupsOf_arrange]

theorem lookup_handleOrderAccepted (accepted : OrderAccepted) (core : AccountSystemCore Q)
    (userId : String) : (core.handleOrderAccepted accepted).accounts.lookup userId =
      (core.accounts.lookup userId).map fun entry =>
        if text accepted.userId = userId then entry.update (.confirmed accepted) else entry := by
  rw [handleOrderAccepted]
  by_cases isUser : text accepted.userId = userId
  · subst isUser
    cases found : core.accounts.lookup (text accepted.userId) with
    | none => exact found
    | some entry =>
      simp only [if_true]
      exact AList.lookup_insert _
  · simp only [isUser, if_false, Option.map_id']
    cases core.accounts.lookup (text accepted.userId) with
    | none => rfl
    | some entry => exact AList.lookup_insert_ne (Ne.symm isUser)

@[simp] theorem batchSize_batchUpdateAccounts (now : Now) (groups : GroupOrder)
    (trades : List TradeReport) (core : AccountSystemCore Q) :
    (core.batchUpdateAccounts now groups trades).batchSize = core.batchSize := by
  rw [batchUpdateAccounts]
  generalize groups.arrange _ = arranged
  induction arranged generalizing core with
  | nil => rfl
  | cons group arranged induction =>
    rw [List.foldl_cons, induction, updateAccount]
    split <;> rfl

@[simp] theorem batchSize_handleOrderAccepted (accepted : OrderAccepted)
    (core : AccountSystemCore Q) :
    (core.handleOrderAccepted accepted).batchSize = core.batchSize := by
  rw [handleOrderAccepted]
  split <;> rfl

/-- After one pass the trades that were applied to an account and those that wait
are the same as before, and then the received one. -/
theorem select_spec (state : AccountSystemCore Q × List TradeReport) (pass : Pass) :
    (select state pass).2 = queueAfter state.1.batchSize state.2 pass.received ∧
      (select state pass).1.batchSize = state.1.batchSize ∧
      ∀ userId, ((select state pass).1.accounts.lookup userId = none ↔
          state.1.accounts.lookup userId = none) ∧
        ∀ entry, state.1.accounts.lookup userId = some entry →
          ∃ after, (select state pass).1.accounts.lookup userId = some after ∧
            after.applied ++ tradesOf userId (select state pass).2 = entry.applied ++
              tradesOf userId (state.2 ++ pass.received.report?.toList) ∧
            ∀ first, entry.Explained first → after.Explained first := by
  rcases state with ⟨core, queue⟩
  -- a batch with all that is in the queue
  have handed : ∀ (trades : List TradeReport) (userId : String),
      ((core.batchUpdateAccounts pass.now pass.groups trades).accounts.lookup userId = none ↔
          core.accounts.lookup userId = none) ∧
        ∀ entry, core.accounts.lookup userId = some entry →
          ∃ after, (core.batchUpdateAccounts pass.now pass.groups trades).accounts.lookup userId =
              some after ∧
            after.applied ++ tradesOf userId [] = entry.applied ++ tradesOf userId trades ∧
            ∀ first, entry.Explained first → after.Explained first := by
    intro trades userId
    rw [lookup_batchUpdateAccounts]
    refine ⟨Option.map_eq_none_iff, ?_⟩
    intro entry found
    refine ⟨_, by rw [found]; rfl, ?_, fun first explained => explained.applyTrades _ _⟩
    rw [tradesOf_nil, List.append_nil, AccountEntry.applied_applyTrades]
  have kept : ∀ userId, (core.accounts.lookup userId = none ↔ core.accounts.lookup userId = none) ∧
      ∀ entry, core.accounts.lookup userId = some entry →
        ∃ after, core.accounts.lookup userId = some after ∧
          after.applied ++ tradesOf userId queue = entry.applied ++ tradesOf userId queue ∧
          ∀ first, entry.Explained first → after.Explained first :=
    fun userId => ⟨Iff.rfl, fun entry found => ⟨entry, found, rfl, fun _ explained => explained⟩⟩
  rw [select]
  cases pass.received with
  | accepted accepted =>
    refine ⟨rfl, batchSize_handleOrderAccepted _ _, ?_⟩
    intro userId
    simp only [lookup_handleOrderAccepted]
    refine ⟨Option.map_eq_none_iff, ?_⟩
    intro entry found
    refine ⟨_, by rw [found]; rfl, ?_, ?_⟩
    · simp only [Received.report?, Option.toList_none, List.append_nil]
      split_ifs
      · rw [AccountEntry.applied_update_confirmed]
      · rfl
    · intro first explained
      split_ifs
      · exact explained.update _
      · exact explained
  | trade trade =>
    simp only [queueAfter, List.length_append, List.length_singleton]
    by_cases full : core.batchSize ≤ queue.length + 1
    · rw [if_pos full, if_pos full]
      exact ⟨rfl, batchSize_batchUpdateAccounts _ _ _ _, handed _⟩
    · rw [if_neg full, if_neg full]
      refine ⟨rfl, rfl, ?_⟩
      intro userId
      exact ⟨Iff.rfl, fun entry found => ⟨entry, found, rfl, fun _ explained => explained⟩⟩
  | closed =>
    refine ⟨rfl, rfl, ?_⟩
    simpa only [Received.report?, Option.toList_none, List.append_nil] using kept
  | timeout =>
    simp only [queueAfter, Received.report?, Option.toList_none, List.append_nil]
    by_cases some : queue ≠ []
    · rw [if_pos some]
      exact ⟨rfl, batchSize_batchUpdateAccounts _ _ _ _, handed queue⟩
    · rw [if_neg some]
      have empty := not_not.mp some
      refine ⟨empty, rfl, ?_⟩
      simpa only [empty] using kept

theorem passes_spec (passes : List Pass) (state : AccountSystemCore Q × List TradeReport) :
    (passes.foldl select state).2 =
        passes.foldl (fun queue pass => queueAfter state.1.batchSize queue pass.received) state.2 ∧
      ∀ userId, ((passes.foldl select state).1.accounts.lookup userId = none ↔
          state.1.accounts.lookup userId = none) ∧
        ∀ entry, state.1.accounts.lookup userId = some entry →
          ∃ after, (passes.foldl select state).1.accounts.lookup userId = some after ∧
            after.applied ++ tradesOf userId (passes.foldl select state).2 =
              entry.applied ++ tradesOf userId (state.2 ++ receivedTrades passes) ∧
            ∀ first, entry.Explained first → after.Explained first := by
  induction passes generalizing state with
  | nil =>
    refine ⟨rfl, fun userId => ⟨Iff.rfl, fun entry found => ?_⟩⟩
    exact ⟨entry, found, by simp [receivedTrades], fun _ explained => explained⟩
  | cons pass passes induction =>
    rcases select_spec state pass with ⟨queue, batchSize, one⟩
    rcases induction (select state pass) with ⟨queues, all⟩
    rw [List.foldl_cons, List.foldl_cons]
    refine ⟨by rw [queues, queue, batchSize], ?_⟩
    intro userId
    refine ⟨(all userId).1.trans (one userId).1, ?_⟩
    intro entry found
    rcases (one userId).2 entry found with ⟨middle, foundMiddle, sameMiddle, explains⟩
    rcases (all userId).2 middle foundMiddle with ⟨after, foundAfter, same, explainsToo⟩
    refine ⟨after, foundAfter, ?_, fun first explained => explainsToo first (explains first explained)⟩
    have received : receivedTrades (pass :: passes) =
        pass.received.report?.toList ++ receivedTrades passes := by
      rw [receivedTrades, List.filterMap_cons]
      cases pass.received.report? <;> rfl
    rw [same, received, tradesOf_append, ← List.append_assoc, sameMiddle, ← List.append_assoc,
      tradesOf_append userId (state.2 ++ _), List.append_assoc]

/-! ## Runs -/

/-- A core with these accounts, before it runs. -/
def started (accounts : List (String × Account Q)) (updateSender : Bool) (batchSize : ℕ) :
    AccountSystemCore Q :=
  accounts.foldl registerAccount (new updateSender batchSize)

/-- Each registered account has got the reports that were received for it, each
once and in the order in which they came. -/
def AppliesAll (core : AccountSystemCore Q) (passes : List Pass) : Prop :=
  ∀ userId ∈ core.accounts, ((core.run passes).accounts.lookup userId).map AccountEntry.applied =
    some (tradesOf userId (receivedTrades passes))

theorem started_spec (accounts : List (String × Account Q)) (updateSender : Bool) (batchSize : ℕ) :
    (started accounts updateSender batchSize).batchSize = batchSize ∧
      ∀ userId entry, (started accounts updateSender batchSize).accounts.lookup userId =
        some entry → entry.updates = [] := by
  induction accounts using List.reverseRecOn with
  | nil => exact ⟨rfl, fun _ _ found => by cases found⟩
  | append_singleton accounts account induction =>
    rw [started, List.foldl_append, ← started]
    refine ⟨induction.1, ?_⟩
    intro userId entry found
    simp only [List.foldl_cons, List.foldl_nil, registerAccount] at found
    by_cases isNew : userId = account.1
    · subst isNew
      rw [AList.lookup_insert] at found
      cases found
      rfl
    · rw [AList.lookup_insert_ne isNew] at found
      exact induction.2 userId entry found

/-- A trade of user `u`. -/
def waitingTrade : TradeReport where
  tradeId := fixedBytes 32 "T1"
  orderId := fixedBytes 40 "o"
  exchangeOrderId := fixedBytes 32 "EX_1_IX2401B"
  userId := fixedBytes 32 "u"
  instrumentId := fixedBytes 16 "IX2401"
  direction := 0
  offset := 0
  fillType := 0
  price := 1
  volume := 1
  commission := 0
  timestamp := 1
  oppositeOrderId := fixedBytes 32 ""
  gatewayId := 0
  sessionId := 0

def stoppedEarly : List Pass :=
  [⟨⟨0, 10 ^ 12, "", "", 0, by decide⟩, ⟨id, fun _ => .refl _⟩, .trade waitingTrade⟩]

/-- A core with user `u` and batches of a hundred. -/
def oneAccount : AccountSystemCore referenceQars :=
  started [("u", ⟨"u", 10, 10, 0, 0, ∅, ∅, ∅, ()⟩)] false 100

end AccountSystemCore

end QAExchange
