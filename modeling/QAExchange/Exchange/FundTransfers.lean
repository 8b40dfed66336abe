import Mathlib.Tactic.Linarith
import QAExchange.Exchange.CapitalManager
import QAExchange.ReferenceQars

/-! # Deposits and withdrawals side by side

Money is lost track of in two ways: the money that a withdrawal has checked may be
gone when it is taken, and what other calls add or take between the two readings
of a call is in its second reading. Otherwise the balance is the sum of the
records.
-/

namespace QAExchange

open Foundation Action

variable {Q : Qars}

/-- An account without positions and orders. -/
structure QAAccount.Plain (account : Account Q) : Prop where
  hold : account.hold = ∅
  dailyorders : account.dailyorders = ∅
  frozen : account.frozen = ∅

/-- The funds of an account without positions and orders: the money is available,
the balance follows deposits and withdrawals, and reading them changes neither. -/
structure AccountFunds.Contract (funds : AccountFunds Q) : Prop where
  plain : ∀ account : Account Q, account.Plain → (funds.getQifiSlice account).2.Plain
  money : ∀ account : Account Q, account.Plain →
    (funds.getQifiSlice account).2.money = account.money
  balance : ∀ account : Account Q, account.Plain →
    (funds.getQifiSlice (funds.getQifiSlice account).2).1.balance =
      (funds.getQifiSlice account).1.balance
  available : ∀ account : Account Q, account.Plain →
    (funds.getQifiSlice account).1.available = account.money
  deposit : ∀ (account : Account Q) (amount : ℚ), account.Plain →
    (funds.getQifiSlice (CapitalManager.deposit funds amount account)).1.balance =
      (funds.getQifiSlice account).1.balance + amount
  withdraw : ∀ (account : Account Q) (amount : ℚ), account.Plain →
    (funds.getQifiSlice (CapitalManager.withdraw funds amount account)).1.balance =
      (funds.getQifiSlice account).1.balance - amount

def FundCall.signed : FundCall → ℚ
  | .deposit request => request.amount
  | .withdraw request => -request.amount

namespace FundTransaction

def signed (transaction : FundTransaction) : ℚ :=
  match transaction.transactionType with
  | .Deposit => transaction.amount
  | .Withdrawal => -transaction.amount
  | .Commission | .PnL | .Settlement => 0

/-- The balance after the transaction is the one before it with the amount. -/
def Balances (transaction : FundTransaction) : Prop :=
  transaction.balanceAfter = transaction.balanceBefore + transaction.signed

end FundTransaction

namespace CapitalManager

abbrev FundPool (Q : Qars) := Pool (CapitalManager Q) FundTask

section Statement

variable (funds : AccountFunds Q) (accountId : String)

def readingOf (manager : CapitalManager Q) : Option QifiFunds :=
  (manager.accountMgr.accounts.lookup accountId).map fun account => (funds.getQifiSlice account).1

end Statement

end CapitalManager

namespace FundTask

def IsDone : FundTask → Prop
  | .returned _ | .failed _ => True
  | .starting _ | .changing .. | .measuring .. | .numbering .. | .recording _ => False

def IsOpen : FundTask → Bool
  | .changing .. | .measuring .. => true
  | .starting _ | .numbering .. | .recording _ | .returned _ | .failed _ => false

def delta : FundTask → ℚ
  | .changing call _ => call.signed
  | .starting _ | .measuring .. | .numbering .. | .recording _ | .returned _ | .failed _ => 0

def pending : FundTask → ℚ
  | .measuring call _ | .numbering call _ _ => call.signed
  | .recording transaction => transaction.signed
  | .starting _ | .changing .. | .returned _ | .failed _ => 0

end FundTask

namespace CapitalManager

section Statement

variable (funds : AccountFunds Q) (accountId : String)

/-- The account is not overdrawn, the returned records are right, and when no call
is under way the balance is the first one with all that was recorded. -/
structure Sound (initial : ℚ) (pool : FundPool Q) : Prop where
  solvent : ∀ reading ∈ readingOf funds accountId pool.shared, 0 ≤ reading.available
  balances : ∀ transaction, .returned transaction ∈ pool.tasks → transaction.Balances
  settled : (∀ task ∈ pool.tasks, task.IsDone) →
    ∀ reading ∈ readingOf funds accountId pool.shared, reading.balance =
      initial + ((transactionsOf accountId pool.shared).map FundTransaction.signed).sum

def SoundThroughout (initial : ℚ) :
    List (Turn FundCall LocalTime) → FundPool Q → Prop
  | [], pool => Sound funds accountId initial pool
  | turn :: turns, pool => Sound funds accountId initial pool ∧
      SoundThroughout initial turns ((service funds accountId).next pool turn)

/-- What other calls have added since the first reading of each call, up to its
second reading. -/
def driftAfter (pool : FundPool Q) (drift : ℕ → ℚ) : Turn FundCall LocalTime → ℕ → ℚ
  | .call _ => drift
  | .step _ index =>
    match pool.tasks[index]? with
    | none => drift
    | some (.starting _) => Function.update drift index 0
    | some task => fun other =>
      if other ≠ index ∧ (pool.tasks[other]?.any FundTask.IsOpen) then drift other + task.delta
      else drift other

/-- A withdrawal that takes its amount finds it available, and what other calls
added between the two readings of a call that returns comes to nothing. -/
def StepUndisturbed (manager : CapitalManager Q) (drift : ℚ) : FundTask → Prop
  | .changing (.withdraw request) _ =>
    ∀ reading ∈ readingOf funds accountId manager, request.amount ≤ reading.available
  | .recording _ => drift = 0
  | .changing (.deposit _) _ => True
  | .starting _ | .measuring .. | .numbering .. | .returned _ | .failed _ => True

def Undisturbed (pool : FundPool Q) (drift : ℕ → ℚ) : Turn FundCall LocalTime → Prop
  | .call _ => True
  | .step _ index =>
    ∀ task ∈ pool.tasks[index]?, StepUndisturbed funds accountId pool.shared (drift index) task

instance decidableStepUndisturbed (manager : CapitalManager Q) (drift : ℚ) :
    ∀ task : FundTask, Decidable (StepUndisturbed funds accountId manager drift task)
  | .changing (.withdraw request) _ => inferInstanceAs (Decidable
      (∀ reading ∈ readingOf funds accountId manager, request.amount ≤ reading.available))
  | .recording _ => inferInstanceAs (Decidable (drift = 0))
  | .changing (.deposit _) _ => .isTrue trivial
  | .starting _ | .measuring .. | .numbering .. | .returned _ | .failed _ => .isTrue trivial

instance decidableUndisturbed (pool : FundPool Q) (drift : ℕ → ℚ) :
    ∀ turn : Turn FundCall LocalTime, Decidable (Undisturbed funds accountId pool drift turn)
  | .call _ => .isTrue trivial
  | .step _ index => inferInstanceAs (Decidable (∀ task ∈ pool.tasks[index]?,
      StepUndisturbed funds accountId pool.shared (drift index) task))

def UndisturbedThroughout : List (Turn FundCall LocalTime) → FundPool Q → (ℕ → ℚ) → Prop
  | [], _, _ => True
  | turn :: turns, pool, drift =>
    Undisturbed funds accountId pool drift turn ∧
      UndisturbedThroughout turns ((service funds accountId).next pool turn)
        (driftAfter pool drift turn)

instance decidableUndisturbedThroughout :
    ∀ (turns : List (Turn FundCall LocalTime)) (pool : FundPool Q) (drift : ℕ → ℚ),
      Decidable (UndisturbedThroughout funds accountId turns pool drift)
  | [], _, _ => .isTrue trivial
  | turn :: turns, pool, drift =>
    have := decidableUndisturbedThroughout turns ((service funds accountId).next pool turn)
      (driftAfter pool drift turn)
    inferInstanceAs (Decidable (Undisturbed funds accountId pool drift turn ∧
      UndisturbedThroughout funds accountId turns ((service funds accountId).next pool turn)
        (driftAfter pool drift turn)))

end Statement

/-! ## One step -/

end CapitalManager

namespace FundTask

/-- The readings of a call against the balance now and what other calls added
since. -/
def Measured (balance drift : ℚ) : FundTask → Prop
  | .starting _ | .failed _ => True
  | .changing call balanceBefore => balance = balanceBefore + drift ∧ 0 < call.request.amount
  | .measuring call balanceBefore => balance = balanceBefore + call.signed + drift
  | .numbering call balanceBefore balanceAfter => balanceAfter = balanceBefore + call.signed + drift
  | .recording transaction | .returned transaction =>
    transaction.balanceAfter = transaction.balanceBefore + transaction.signed + drift

theorem Measured.drifts {task : FundTask} (measured : task.Measured balance drift) (delta : ℚ) :
    task.Measured (balance + delta) (if task.IsOpen then drift + delta else drift) := by
  cases task with
  | changing call balanceBefore =>
    refine ⟨?_, measured.2⟩
    have before := measured.1
    simp only [IsOpen, if_true]
    linarith
  | measuring call balanceBefore =>
    simp only [Measured, IsOpen, if_true] at measured ⊢
    linarith
  | starting | numbering | recording | returned | failed => exact measured

/-- A first reading begins without a drift. -/
def drift (drift : ℚ) : FundTask → ℚ
  | .starting _ => 0
  | .changing .. | .measuring .. | .numbering .. | .recording _ | .returned _ | .failed _ => drift

end FundTask

namespace CapitalManager

section Steps

variable {funds : AccountFunds Q} {accountId : String} {manager : CapitalManager Q}
  {account : Account Q}

structure Holds (accountId : String) (manager : CapitalManager Q) (account : Account Q) : Prop where
  found : manager.accountMgr.accounts.lookup accountId = some account
  plain : account.Plain

theorem exec_withAccount (holds : Holds accountId manager account)
    (work : Account Q → α × Account Q) :
    exec (withAccount accountId work) manager = (.ok (work account).1,
      { manager with accountMgr := manager.accountMgr.putAccount accountId (work account).2 }) := by
  change withAccount accountId work manager = _
  rw [withAccount, holds.found]

theorem Holds.put {after : Account Q} (plain : after.Plain) :
    Holds accountId { manager with accountMgr := manager.accountMgr.putAccount accountId after }
      after where
  found := AList.lookup_insert _
  plain := plain

def recorded (accountId : String) (manager : CapitalManager Q) : ℚ :=
  ((transactionsOf accountId manager).map FundTransaction.signed).sum

def put (accountId : String) (account : Account Q) (manager : CapitalManager Q) :
    CapitalManager Q :=
  { manager with accountMgr := manager.accountMgr.putAccount accountId account }

@[simp] theorem recorded_put (accountId : String) (account : Account Q)
    (manager : CapitalManager Q) :
    recorded accountId (put accountId account manager) = recorded accountId manager := rfl

theorem exec_getQifiSlice (holds : Holds accountId manager account) :
    exec (getQifiSlice funds accountId) manager = (.ok (funds.getQifiSlice account).1,
      put accountId (funds.getQifiSlice account).2 manager) := exec_withAccount holds _

theorem exec_firstReading (holds : Holds accountId manager account) (call : FundCall) :
    (∃ error, exec (firstReading funds accountId call) manager = (.error error, manager)) ∨
      (∃ error, exec (firstReading funds accountId call) manager =
        (.error error, put accountId (funds.getQifiSlice account).2 manager)) ∨
      0 < call.request.amount ∧ exec (firstReading funds accountId call) manager =
        (.ok (funds.getQifiSlice account).1.balance,
          put accountId (funds.getQifiSlice account).2 manager) := by
  by_cases positive : 0 < call.request.amount
  · have isPositive := not_le.mpr positive
    right
    cases call with
    | deposit request =>
      simp only [FundCall.request] at positive isPositive
      simp only [firstReading, beginDeposit, if_neg isPositive, exec_bind,
        exec_getQifiSlice holds, exec_pure]
      exact .inr ⟨positive, trivial⟩
    | withdraw request =>
      simp only [FundCall.request] at positive isPositive
      simp only [firstReading, beginWithdraw, if_neg isPositive, exec_bind,
        exec_getQifiSlice holds]
      by_cases short : (funds.getQifiSlice account).1.available < request.amount
      · rw [if_pos short]
        exact .inl ⟨_, rfl⟩
      · rw [if_neg short]
        exact .inr ⟨positive, rfl⟩
  · have notPositive := not_lt.mp positive
    left
    cases call with
    | deposit request =>
      simp only [FundCall.request] at notPositive
      simp only [firstReading, beginDeposit, if_pos notPositive]
      exact ⟨_, rfl⟩
    | withdraw request =>
      simp only [FundCall.request] at notPositive
      simp only [firstReading, beginWithdraw, if_pos notPositive]
      exact ⟨_, rfl⟩

def changed (funds : AccountFunds Q) (account : Account Q) : FundCall → Account Q
  | .deposit request => deposit funds request.amount account
  | .withdraw request => withdraw funds request.amount account

theorem exec_change (holds : Holds accountId manager account) (call : FundCall) :
    exec (change funds accountId call) manager =
      (.ok (), put accountId (changed funds account call) manager) := by
  cases call with
  | deposit request => exact exec_withAccount holds _
  | withdraw request => exact exec_withAccount holds _

theorem plain_changed (plain : account.Plain) (call : FundCall) :
    (changed funds account call).Plain := by
  cases call with
  | deposit request => exact ⟨plain.hold, plain.dailyorders, plain.frozen⟩
  | withdraw request => exact ⟨plain.hold, plain.dailyorders, plain.frozen⟩

theorem money_changed (call : FundCall) :
    (changed funds account call).money = account.money + call.signed := by
  cases call with
  | deposit request => rfl
  | withdraw request => exact sub_eq_add_neg _ _

theorem balance_changed (contract : funds.Contract) (plain : account.Plain) (call : FundCall) :
    (funds.getQifiSlice (changed funds account call)).1.balance =
      (funds.getQifiSlice account).1.balance + call.signed := by
  cases call with
  | deposit request => exact contract.deposit account request.amount plain
  | withdraw request =>
    exact (contract.withdraw account request.amount plain).trans (sub_eq_add_neg _ _)

theorem recorded_saveTransaction (accountId : String) (transaction : FundTransaction)
    (manager : CapitalManager Q) :
    recorded accountId (exec (saveTransaction accountId transaction) manager).2 =
      recorded accountId manager + transaction.signed := by
  simp [recorded, saveTransaction, transactionsOf, AList.lookup_insert]

theorem exec_makeTransaction (accountId : String) (call : FundCall)
    (balanceBefore balanceAfter : ℚ) (now : LocalTime) (manager : CapitalManager Q) :
    ∃ transaction, exec (makeTransaction accountId call balanceBefore balanceAfter now) manager =
        (.ok transaction, { manager with transactionSeq := manager.transactionSeq + 1 }) ∧
      transaction.balanceBefore = balanceBefore ∧ transaction.balanceAfter = balanceAfter ∧
      transaction.signed = call.signed := by
  cases call with
  | deposit request => exact ⟨_, rfl, rfl, rfl, rfl⟩
  | withdraw request => exact ⟨_, rfl, rfl, rfl, rfl⟩

theorem advance_spec (contract : funds.Contract) (holds : Holds accountId manager account)
    {task : FundTask} (measured : task.Measured (funds.getQifiSlice account).1.balance drift)
    (now : LocalTime) :
    let moved := advance funds accountId now manager task
    ∃ after, Holds accountId moved.2 after ∧ after.money = account.money + task.delta ∧
      (funds.getQifiSlice after).1.balance =
        (funds.getQifiSlice account).1.balance + task.delta ∧
      recorded accountId moved.2 + moved.1.pending =
        recorded accountId manager + task.pending + task.delta ∧
      moved.1.Measured (funds.getQifiSlice after).1.balance (task.drift drift) := by
  have read : Holds accountId (put accountId (funds.getQifiSlice account).2 manager)
      (funds.getQifiSlice account).2 := Holds.put (contract.plain account holds.plain)
  have money := contract.money account holds.plain
  have balance := contract.balance account holds.plain
  cases task with
  | starting call =>
    rw [advance]
    rcases exec_firstReading holds call with ⟨error, refused⟩ | ⟨error, refused⟩ | ⟨positive, begun⟩
    · rw [refused]
      exact ⟨account, holds, by simp [FundTask.delta], by simp [FundTask.delta],
        by simp [proceed, FundTask.pending, FundTask.delta], trivial⟩
    · rw [refused]
      exact ⟨_, read, by simp [FundTask.delta, money], by simp [FundTask.delta, balance],
        by simp [proceed, FundTask.pending, FundTask.delta], trivial⟩
    · rw [begun]
      exact ⟨_, read, by simp [FundTask.delta, money], by simp [FundTask.delta, balance],
        by simp [proceed, FundTask.pending, FundTask.delta],
        by simp [proceed, FundTask.Measured, FundTask.drift, balance, positive]⟩
  | changing call balanceBefore =>
    rw [advance, exec_change holds]
    refine ⟨_, Holds.put (plain_changed holds.plain call), money_changed call,
      balance_changed contract holds.plain call, ?_, ?_⟩
    · simp [proceed, FundTask.pending, FundTask.delta]
    · have before := measured.1
      simp only [proceed, FundTask.Measured, FundTask.drift,
        balance_changed contract holds.plain call]
      linarith
  | measuring call balanceBefore =>
    have second : exec (secondReading funds accountId) manager =
        (.ok (funds.getQifiSlice account).1.balance,
          put accountId (funds.getQifiSlice account).2 manager) := by
      simp only [secondReading, exec_bind, exec_getQifiSlice holds, exec_pure]
    rw [advance, second]
    exact ⟨_, read, by simp [FundTask.delta, money], by simp [FundTask.delta, balance],
      by simp [proceed, FundTask.pending, FundTask.delta], measured⟩
  | numbering call balanceBefore balanceAfter =>
    rcases exec_makeTransaction accountId call balanceBefore balanceAfter now manager with
      ⟨transaction, made, isBefore, isAfter, isSigned⟩
    rw [advance, made]
    refine ⟨account, ⟨holds.found, holds.plain⟩, (add_zero _).symm, (add_zero _).symm, ?_, ?_⟩
    · simp only [proceed, FundTask.pending, FundTask.delta, isSigned, add_zero]
      rfl
    · simp only [proceed, FundTask.Measured, FundTask.drift, isBefore, isAfter, isSigned]
      exact measured
  | recording transaction =>
    refine ⟨account, ⟨holds.found, holds.plain⟩, (add_zero _).symm, (add_zero _).symm, ?_, measured⟩
    have saved := recorded_saveTransaction accountId transaction manager
    simp only [FundTask.pending, FundTask.delta, add_zero]
    refine Eq.trans ?_ saved
    exact add_zero _
  | returned transaction =>
    exact ⟨account, holds, (add_zero _).symm, (add_zero _).symm, (add_zero _).symm, measured⟩
  | failed error =>
    exact ⟨account, holds, (add_zero _).symm, (add_zero _).symm, (add_zero _).symm, trivial⟩

end Steps

/-! ## Runs -/

section Runs

variable {funds : AccountFunds Q} {accountId : String} {initial : ℚ} {pool : FundPool Q}
  {drift : ℕ → ℚ} {account : Account Q}

/-- The balance is the first one with all that was recorded or is to be, and the
readings of every call are known. -/
structure Tracks (funds : AccountFunds Q) (accountId : String) (initial : ℚ) (pool : FundPool Q)
    (drift : ℕ → ℚ) (account : Account Q) : Prop where
  holds : Holds accountId pool.shared account
  ledger : (funds.getQifiSlice account).1.balance =
    initial + recorded accountId pool.shared + (pool.tasks.map FundTask.pending).sum
  measured : ∀ index (task : FundTask), pool.tasks[index]? = some task →
    task.Measured (funds.getQifiSlice account).1.balance (drift index)

theorem driftAfter_step (found : pool.tasks[index]? = some task) (now : LocalTime) (other : ℕ) :
    driftAfter pool drift (.step now index) other =
      if other = index then task.drift (drift index)
      else if pool.tasks[other]?.any FundTask.IsOpen then drift other + task.delta
      else drift other := by
  simp only [driftAfter, found]
  by_cases same : other = index
  · subst other
    cases task <;> simp [FundTask.drift]
  · cases task <;> simp [same, FundTask.delta]

theorem Tracks.call (tracks : Tracks funds accountId initial pool drift account) (call : FundCall) :
    Tracks funds accountId initial ((service funds accountId).next pool (.call call)) drift
      account where
  holds := tracks.holds
  ledger := by
    have ledger := tracks.ledger
    simp only [Service.next, List.map_append, List.sum_append]
    rw [ledger]
    simp [service, FundTask.pending]
  measured index task found := by
    rcases List.getElem?_eq_some_iff.mp found with ⟨inside, isTask⟩
    by_cases old : index < pool.tasks.length
    · apply tracks.measured
      rw [← found]
      exact (List.getElem?_append_left old).symm
    · simp only [Service.next, List.length_append, List.length_singleton] at inside
      have isNew : index = pool.tasks.length := by omega
      have isStart : task = .starting call := by
        rw [← isTask]
        subst isNew
        simp [Service.next, service]
      rw [isStart]
      trivial

theorem Tracks.step (tracks : Tracks funds accountId initial pool drift account)
    (contract : funds.Contract) (found : pool.tasks[index]? = some task) (now : LocalTime) :
    ∃ after, Tracks funds accountId initial
        ((service funds accountId).next pool (.step now index))
        (driftAfter pool drift (.step now index)) after ∧
      after.money = account.money + task.delta := by
  rcases advance_spec contract tracks.holds (tracks.measured index task found) now with
    ⟨after, holds, money, balance, ledger, measured⟩
  have moved : (service funds accountId).next pool (.step now index) =
      ⟨(advance funds accountId now pool.shared task).2,
        pool.tasks.set index (advance funds accountId now pool.shared task).1⟩ := by
    simp only [Service.next, found]
    rfl
  rcases List.getElem?_eq_some_iff.mp found with ⟨inside, isTask⟩
  refine ⟨after, ?_, money⟩
  rw [moved]
  constructor
  · exact holds
  · have before := tracks.ledger
    have size : index < (pool.tasks.map FundTask.pending).length := by simpa using inside
    have isPending : (pool.tasks.map FundTask.pending)[index] = task.pending := by
      simp [isTask]
    simp only [List.map_set, List.sum_set', dif_pos size, isPending]
    linarith
  · intro other otherTask isOther
    rw [driftAfter_step found]
    by_cases same : other = index
    · subst other
      rw [List.getElem?_set_self inside] at isOther
      cases isOther
      rw [if_pos rfl]
      exact measured
    · rw [List.getElem?_set_ne (Ne.symm same)] at isOther
      rw [if_neg same, isOther, balance]
      exact (tracks.measured other otherTask isOther).drifts task.delta

theorem readingOf_eq (holds : Holds accountId manager account) :
    readingOf funds accountId manager = some (funds.getQifiSlice account).1 := by
  rw [readingOf, holds.found]
  rfl

theorem Tracks.sound_iff (tracks : Tracks funds accountId initial pool drift account)
    (contract : funds.Contract) :
    Sound funds accountId initial pool ↔
      0 ≤ account.money ∧ ∀ transaction, .returned transaction ∈ pool.tasks →
        transaction.Balances := by
  have reading : readingOf funds accountId pool.shared = some (funds.getQifiSlice account).1 :=
    readingOf_eq tracks.holds
  have available := contract.available account tracks.holds.plain
  constructor
  · intro sound
    refine ⟨?_, sound.balances⟩
    rw [← available]
    exact sound.solvent _ reading
  · intro parts
    refine ⟨?_, parts.2, ?_⟩
    · intro now isNow
      obtain rfl := Option.some.inj (reading.symm.trans isNow)
      rw [available]
      exact parts.1
    · intro done now isNow
      obtain rfl := Option.some.inj (reading.symm.trans isNow)
      have nothing : (pool.tasks.map FundTask.pending).sum = 0 := by
        apply List.sum_eq_zero
        intro amount isAmount
        rcases List.mem_map.mp isAmount with ⟨task, member, rfl⟩
        have isDone := done task member
        cases task with
        | returned transaction => rfl
        | failed error => rfl
        | starting | changing | measuring | numbering | recording => exact absurd isDone id
      rw [tracks.ledger, nothing, add_zero]
      rfl

theorem advance_returned
    (returned : (advance funds accountId now manager task).1 = .returned transaction) :
    task = .recording transaction ∨ task = .returned transaction := by
  have never : ∀ {α : Type} (next : α → FundTask)
      (result : Except ExchangeError α × CapitalManager Q),
      (proceed next result).1 = .returned transaction → ∃ value, next value = .returned transaction := by
    intro α next result isReturned
    rcases result with ⟨_ | value, after⟩
    · cases isReturned
    · exact ⟨value, isReturned⟩
  cases task with
  | starting call => rcases never _ _ returned with ⟨_, same⟩; cases same
  | changing call balanceBefore => rcases never _ _ returned with ⟨_, same⟩; cases same
  | measuring call balanceBefore => rcases never _ _ returned with ⟨_, same⟩; cases same
  | numbering call balanceBefore balanceAfter =>
    rcases never _ _ returned with ⟨_, same⟩
    cases same
  | recording other =>
    rcases never _ _ returned with ⟨_, same⟩
    cases same
    exact .inl rfl
  | returned other => exact .inr returned
  | failed error => cases returned

/-- A turn from a sound state leads to a sound state if and only if it is
undisturbed. -/
theorem Tracks.sound_next_iff (tracks : Tracks funds accountId initial pool drift account)
    (contract : funds.Contract) (sound : Sound funds accountId initial pool)
    (turn : Turn FundCall LocalTime) :
    ∃ after, Tracks funds accountId initial ((service funds accountId).next pool turn)
        (driftAfter pool drift turn) after ∧
      (Sound funds accountId initial ((service funds accountId).next pool turn) ↔
        Undisturbed funds accountId pool drift turn) := by
  rcases (tracks.sound_iff contract).mp sound with ⟨solvent, balances⟩
  cases turn with
  | call call =>
    have called := tracks.call call
    refine ⟨account, called, ?_⟩
    rw [called.sound_iff contract]
    refine iff_of_true ⟨solvent, ?_⟩ trivial
    intro transaction member
    rcases List.mem_append.mp member with old | isNew
    · exact balances transaction old
    · cases List.mem_singleton.mp isNew
  | step now index =>
    cases found : pool.tasks[index]? with
    | none =>
      have same : (service funds accountId).next pool (.step now index) = pool := by
        simp only [Service.next, found]
      have sameDrift : driftAfter pool drift (.step now index) = drift := by
        simp only [driftAfter, found]
      rw [same, sameDrift]
      refine ⟨account, tracks, iff_of_true sound ?_⟩
      simp [Undisturbed, found]
    | some task =>
      rcases tracks.step contract found now with ⟨after, moved, money⟩
      refine ⟨after, moved, ?_⟩
      have measured := tracks.measured index task found
      have tasks : ((service funds accountId).next pool (.step now index)).tasks =
          pool.tasks.set index (advance funds accountId now pool.shared task).1 := by
        simp only [Service.next, found]
        rfl
      -- what this step returns is all that is new
      have kept : (∀ transaction, (advance funds accountId now pool.shared task).1 =
          .returned transaction → transaction.Balances) →
          ∀ transaction, .returned transaction ∈
            ((service funds accountId).next pool (.step now index)).tasks →
              transaction.Balances := by
        intro isNew transaction member
        rw [tasks] at member
        rcases List.mem_or_eq_of_mem_set member with old | same
        · exact balances transaction old
        · exact isNew transaction same.symm
      rw [moved.sound_iff contract, money]
      cases task with
      | recording transaction =>
        have isNext : .returned transaction ∈
            ((service funds accountId).next pool (.step now index)).tasks := by
          rw [tasks]
          exact List.mem_set (List.getElem?_eq_some_iff.mp found).1 _
        simp only [Undisturbed, found, Option.mem_some_iff, forall_eq', StepUndisturbed]
        simp only [FundTask.Measured] at measured
        constructor
        · intro parts
          have right := parts.2 transaction isNext
          rw [FundTransaction.Balances] at right
          linarith
        · intro none
          refine ⟨by simpa [FundTask.delta] using solvent, kept ?_⟩
          intro other returned
          rcases advance_returned returned with same | same
          · cases same
            rw [FundTransaction.Balances]
            linarith
          · cases same
      | changing call balanceBefore =>
        have others := kept fun transaction returned => by
          rcases advance_returned returned with same | same <;> cases same
        cases call with
        | deposit request =>
          have positive : 0 < request.amount := measured.2
          simp only [Undisturbed, found, Option.mem_some_iff, forall_eq', StepUndisturbed, iff_true]
          refine ⟨?_, others⟩
          simp only [FundTask.delta, FundCall.signed]
          linarith
        | withdraw request =>
          have available := contract.available account tracks.holds.plain
          simp only [Undisturbed, found, StepUndisturbed, readingOf_eq tracks.holds,
            Option.mem_some_iff, forall_eq', available, FundTask.delta, FundCall.signed]
          constructor
          · intro parts
            linarith [parts.1]
          · intro enough
            exact ⟨by linarith, others⟩
      | returned transaction =>
        simp only [Undisturbed, found, Option.mem_some_iff, forall_eq', StepUndisturbed, iff_true]
        refine ⟨by simpa [FundTask.delta] using solvent, kept ?_⟩
        intro other returned
        cases returned
        exact balances transaction (List.mem_of_getElem? found)
      | starting | measuring | numbering | failed =>
        have others := kept fun transaction returned => by
          rcases advance_returned returned with same | same <;> cases same
        simp only [Undisturbed, found, Option.mem_some_iff, forall_eq', StepUndisturbed, iff_true]
        exact ⟨by simpa [FundTask.delta] using solvent, others⟩

theorem Tracks.soundThroughout_iff (contract : funds.Contract)
    (tracks : Tracks funds accountId initial pool drift account)
    (sound : Sound funds accountId initial pool) :
    SoundThroughout funds accountId initial turns pool ↔
      UndisturbedThroughout funds accountId turns pool drift := by
  induction turns generalizing pool drift account with
  | nil => exact iff_of_true sound trivial
  | cons turn turns induction =>
    rcases tracks.sound_next_iff contract sound turn with ⟨after, moved, isSound⟩
    rw [SoundThroughout, UndisturbedThroughout, ← isSound]
    constructor
    · intro throughout
      have next : Sound funds accountId initial ((service funds accountId).next pool turn) := by
        cases turns with
        | nil => exact throughout.2
        | cons => exact throughout.2.1
      exact ⟨next, (induction moved next).mp throughout.2⟩
    · intro undisturbed
      exact ⟨sound, (induction moved undisturbed.1).mpr undisturbed.2⟩

end Runs

/-- For every interleaving of deposits and withdrawals on an account without
positions and orders: the money never becomes negative, every returned record
balances, and the balance is the first one with the records, if and only if every
withdrawal finds its amount when it takes it, and what other calls add between the
two readings of a call that returns comes to nothing. -/
theorem soundThroughout_iff_undisturbed {funds : AccountFunds Q} (contract : funds.Contract)
    {accountId : String} {accountMgr : AccountManager Q} {account : Account Q}
    (found : accountMgr.accounts.lookup accountId = some account) (plain : account.Plain)
    (solvent : 0 ≤ account.money) (turns : List (Turn FundCall LocalTime)) :
    SoundThroughout funds accountId (funds.getQifiSlice account).1.balance turns
        ⟨new accountMgr, []⟩ ↔
      UndisturbedThroughout funds accountId turns ⟨new accountMgr, []⟩ (fun _ => 0) := by
  have tracks : Tracks funds accountId (funds.getQifiSlice account).1.balance
      ⟨new accountMgr, []⟩ (fun _ => 0) account := by
    refine ⟨⟨found, plain⟩, ?_, ?_⟩
    · have none : recorded accountId (new accountMgr) = 0 := by
        simp [recorded, transactionsOf, new]
      simp [none]
    · intro index task isTask
      cases isTask
  apply tracks.soundThroughout_iff contract
  rw [tracks.sound_iff contract]
  refine ⟨solvent, ?_⟩
  intro transaction member
  cases member

theorem SoundThroughout.last {funds : AccountFunds Q} {accountId : String} {initial : ℚ}
    {turns : List (Turn FundCall LocalTime)} {pool : FundPool Q}
    (throughout : SoundThroughout funds accountId initial turns pool) :
    Sound funds accountId initial ((service funds accountId).run turns pool) := by
  induction turns generalizing pool with
  | nil => exact throughout
  | cons turn turns induction => exact induction throughout.2

/-- Funds of which all are available. -/
def referenceFunds : AccountFunds referenceQars where
  getQifiSlice account := (⟨account.money, account.money⟩, account)
  addDeposit _ rest := rest
  addWithdraw _ rest := rest

theorem referenceFunds_contract : referenceFunds.Contract where
  plain _ plain := plain
  money _ _ := rfl
  balance _ _ := rfl
  available _ _ := rfl
  deposit _ _ _ := rfl
  withdraw _ _ _ := rfl

def tenOf : AccountManager referenceQars where
  accounts := (∅ : AList fun _ : String => Account referenceQars).insert "a"
    ⟨"a", 10, 10, 0, 0, ∅, ∅, ∅, ()⟩

def oneByOne : List (Turn FundCall LocalTime) :=
  .call (.deposit ⟨5, none, none⟩) :: List.replicate 5 (.step ⟨"", ""⟩ 0) ++
    .call (.withdraw ⟨15, none, none⟩) :: List.replicate 5 (.step ⟨"", ""⟩ 1)

theorem oneByOne_sound : SoundThroughout referenceFunds "a" 10 oneByOne ⟨new tenOf, []⟩ := by
  have undisturbed : UndisturbedThroughout referenceFunds "a" oneByOne ⟨new tenOf, []⟩
      (fun _ => 0) := by
    decide +kernel
  exact (soundThroughout_iff_undisturbed referenceFunds_contract rfl ⟨rfl, rfl, rfl⟩ (by decide)
    oneByOne).mpr undisturbed

/-- Two withdrawals of ten that both check before either takes its amount. -/
def bothCheck : List (Turn FundCall LocalTime) :=
  [.call (.withdraw ⟨10, none, none⟩), .call (.withdraw ⟨10, none, none⟩), .step ⟨"", ""⟩ 0,
    .step ⟨"", ""⟩ 1, .step ⟨"", ""⟩ 0, .step ⟨"", ""⟩ 1]

theorem bothCheck_overdraws :
    readingOf referenceFunds "a" ((service referenceFunds "a").run bothCheck
      ⟨new tenOf, []⟩).shared = some ⟨-10, -10⟩ ∧
      ¬ SoundThroughout referenceFunds "a" 10 bothCheck ⟨new tenOf, []⟩ := by
  have overdrawn : readingOf referenceFunds "a" ((service referenceFunds "a").run bothCheck
      ⟨new tenOf, []⟩).shared = some ⟨-10, -10⟩ := by decide +kernel
  refine ⟨overdrawn, ?_⟩
  intro throughout
  exact absurd (throughout.last.solvent _ overdrawn) (by decide)

end CapitalManager

end QAExchange
