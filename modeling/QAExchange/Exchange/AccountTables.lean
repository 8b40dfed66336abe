import QAExchange.ReferenceQars

/-! # The account tables agree

Opening and restoring an account keep the three tables in step and change none of
them on an error. Closing an account does so unless it refuses: then the account
is gone, but its metadata and its place in the user's list are still there.
-/

namespace QAExchange.AccountDirectory

open Foundation Action

variable {Q : Qars}

def listOf (userId : String) (directory : AccountDirectory Q) : List String :=
  (directory.userAccounts.lookup userId).getD []

def ownerOf (accountId : String) (directory : AccountDirectory Q) : Option String :=
  (directory.metadata.lookup accountId).map AccountMetadata.userId

/-- Accounts and metadata have the same keys, and an account id is listed once
under the user that its metadata name and nowhere else. -/
structure Consistent (directory : AccountDirectory Q) : Prop where
  keys : ∀ accountId, accountId ∈ directory.accounts ↔ accountId ∈ directory.metadata
  listed : ∀ userId accountId, (directory.listOf userId).count accountId =
    if directory.ownerOf accountId = some userId then 1 else 0

/-- `after` has the tables of `before`. -/
structure SameTables (before after : AccountDirectory Q) : Prop where
  accounts : after.accounts = before.accounts
  metadata : after.metadata = before.metadata
  userAccounts : after.userAccounts = before.userAccounts

inductive AccountCall (maker : AccountMaker Q)
  | openAccount (req : OpenAccountRequest) (uuid : String) (seconds : ℤ)
  | closeAccount (accountId : String)
  | restoreAccountFromQifi (qifi : QIFI maker.Content) (seconds : ℤ)
  | trade (accountId : String) (account : Account Q)

def trade (accountId : String) (account : Account Q) (directory : AccountDirectory Q) :
    AccountDirectory Q :=
  if accountId ∈ directory.accounts then
    { directory with accounts := directory.accounts.insert accountId account }
  else directory

def perform (maker : AccountMaker Q) :
    AccountCall maker → Action ExchangeError (AccountDirectory Q) Unit
  | .openAccount req uuid seconds => do let _ ← openAccount maker req uuid seconds
  | .closeAccount accountId => closeAccount accountId
  | .restoreAccountFromQifi qifi seconds => restoreAccountFromQifi maker qifi seconds
  | .trade accountId account => update (AccountDirectory.trade accountId account)

/-- In every state of the run the tables agree, and every call that returns an
error leaves them as they were. -/
def KeepsTables (maker : AccountMaker Q) : List (AccountCall maker) → AccountDirectory Q → Prop
  | [], directory => directory.Consistent
  | call :: calls, directory =>
    directory.Consistent ∧
      (∀ error, (exec (perform maker call) directory).1 = .error error →
        SameTables directory (exec (perform maker call) directory).2) ∧
      KeepsTables maker calls (exec (perform maker call) directory).2

def Refuses {maker : AccountMaker Q} (directory : AccountDirectory Q) :
    AccountCall maker → Prop
  | .closeAccount accountId =>
    ∃ account, directory.accounts.lookup accountId = some account ∧
      (account.hold.keys ≠ [] ∨ 0 < account.money)
  | .openAccount .. | .restoreAccountFromQifi .. | .trade .. => False

/-- Only accounts without positions and money are closed. -/
def ClosesEmpty (maker : AccountMaker Q) : List (AccountCall maker) → AccountDirectory Q → Prop
  | [], _ => True
  | call :: calls, directory =>
    ¬ directory.Refuses call ∧ ClosesEmpty maker calls (exec (perform maker call) directory).2

/-! ## The steps -/

section Steps

variable {directory : AccountDirectory Q}

theorem Consistent.congr {after : AccountDirectory Q} (consistent : directory.Consistent)
    (accounts : ∀ accountId, accountId ∈ after.accounts ↔ accountId ∈ directory.accounts)
    (metadata : after.metadata = directory.metadata)
    (userAccounts : after.userAccounts = directory.userAccounts) : after.Consistent where
  keys accountId := by rw [accounts, consistent.keys, metadata]
  listed userId accountId := by
    rw [listOf, ownerOf, userAccounts, metadata]
    exact consistent.listed userId accountId

theorem sameTables_tellUsers (change : UserManager → Except ExchangeError UserManager)
    (directory : AccountDirectory Q) : SameTables directory (directory.tellUsers change) := by
  unfold tellUsers
  split
  · exact ⟨rfl, rfl, rfl⟩
  · split <;> exact ⟨rfl, rfl, rfl⟩

theorem Consistent.tellUsers (consistent : directory.Consistent)
    (change : UserManager → Except ExchangeError UserManager) :
    (directory.tellUsers change).Consistent := by
  have same := sameTables_tellUsers change directory
  apply consistent.congr
  · intro accountId
    rw [same.accounts]
  · exact same.metadata
  · exact same.userAccounts

theorem Consistent.owner_none (consistent : directory.Consistent)
    (missing : accountId ∉ directory.accounts) : directory.ownerOf accountId = none := by
  rw [consistent.keys, ← AList.lookup_eq_none] at missing
  rw [ownerOf, missing]
  rfl

theorem ownerOf_store (accountId other : String) (account : Account Q)
    (metadata : AccountMetadata) (directory : AccountDirectory Q) :
    (directory.store accountId account metadata).ownerOf other =
      if other = accountId then some metadata.userId else directory.ownerOf other := by
  rw [ownerOf, store]
  by_cases same : other = accountId
  · rw [if_pos same, same, AList.lookup_insert]
    rfl
  · rw [if_neg same, AList.lookup_insert_ne same]
    rfl

theorem listOf_store (userId accountId : String) (account : Account Q)
    (metadata : AccountMetadata) (directory : AccountDirectory Q) :
    (directory.store accountId account metadata).listOf userId =
      if userId = metadata.userId then directory.listOf userId ++ [accountId]
      else directory.listOf userId := by
  rw [listOf, store]
  by_cases same : userId = metadata.userId
  · rw [if_pos same, same, AList.lookup_insert]
    rfl
  · rw [if_neg same, AList.lookup_insert_ne same]
    rfl

theorem Consistent.store (consistent : directory.Consistent)
    (missing : accountId ∉ directory.accounts) (account : Account Q) (metadata : AccountMetadata) :
    (directory.store accountId account metadata).Consistent where
  keys other := by
    have keys := consistent.keys other
    simp only [AccountDirectory.store, AList.mem_insert, keys]
  listed userId other := by
    have before := consistent.listed userId other
    rw [ownerOf_store, listOf_store]
    by_cases isNew : other = accountId
    · subst other
      rw [consistent.owner_none missing, if_neg (by simp)] at before
      rw [if_pos rfl]
      by_cases isUser : userId = metadata.userId
      · rw [if_pos isUser, if_pos (congrArg some isUser.symm), List.count_append, before,
          List.count_singleton_self]
      · rw [if_neg isUser, before, if_neg]
        intro same
        exact isUser (Option.some.inj same).symm
    · rw [if_neg isNew, ← before]
      by_cases isUser : userId = metadata.userId
      · rw [if_pos isUser, List.count_append, List.count_singleton, if_neg, Nat.add_zero]
        simpa using Ne.symm isNew
      · rw [if_neg isUser]

def closed (accountId userId : String) (directory : AccountDirectory Q) : AccountDirectory Q :=
  let removed := { directory with accounts := directory.accounts.erase accountId }
  let unlisted := (removed.unlist userId accountId).tellUsers
    (UserManager.unbindAccount userId accountId)
  { unlisted with metadata := unlisted.metadata.erase accountId }

theorem listOf_unlist (userId other accountId : String) (directory : AccountDirectory Q) :
    (directory.unlist userId accountId).listOf other =
      if other = userId then (directory.listOf other).filter fun id => id ≠ accountId
      else directory.listOf other := by
  by_cases same : other = userId
  · subst other
    rw [if_pos rfl, listOf, listOf, unlist]
    cases found : directory.userAccounts.lookup userId with
    | none => rw [found]; rfl
    | some accounts => simp only [AList.lookup_insert, Option.getD_some]
  · rw [if_neg same, listOf, listOf, unlist]
    cases directory.userAccounts.lookup userId with
    | none => rfl
    | some accounts => simp only [AList.lookup_insert_ne same]

theorem Consistent.closed (consistent : directory.Consistent)
    (owner : directory.ownerOf accountId = some userId) :
    (directory.closed accountId userId).Consistent := by
  have told := sameTables_tellUsers (UserManager.unbindAccount userId accountId)
    (({ directory with accounts := directory.accounts.erase accountId } :
      AccountDirectory Q).unlist userId accountId)
  have accounts : (directory.closed accountId userId).accounts =
      directory.accounts.erase accountId := by
    refine told.accounts.trans ?_
    unfold unlist
    split <;> rfl
  have metadata : (directory.closed accountId userId).metadata =
      directory.metadata.erase accountId := by
    refine congrArg (AList.erase accountId) (told.metadata.trans ?_)
    unfold unlist
    split <;> rfl
  have listed : ∀ other, (directory.closed accountId userId).listOf other =
      if other = userId then (directory.listOf other).filter fun id => id ≠ accountId
      else directory.listOf other := by
    intro other
    have unlisted := listOf_unlist userId other accountId
      ({ directory with accounts := directory.accounts.erase accountId } : AccountDirectory Q)
    refine Eq.trans ?_ unlisted
    exact congrArg (fun table => (AList.lookup other table).getD []) told.userAccounts
  constructor
  · intro other
    rw [accounts, metadata, AList.mem_erase, AList.mem_erase, consistent.keys]
  · intro user other
    have before := consistent.listed user other
    have isOwner := consistent.listed user accountId
    rw [owner] at isOwner
    rw [listed, ownerOf, metadata]
    by_cases isClosed : other = accountId
    · subst other
      have unowned : ¬ (none : Option AccountMetadata).map AccountMetadata.userId = some user := by
        simp
      rw [AList.lookup_erase, if_neg unowned]
      by_cases isUser : user = userId
      · rw [if_pos isUser, List.count_eq_zero]
        simp
      · rw [if_neg isUser, isOwner, if_neg]
        intro same
        exact isUser (Option.some.inj same).symm
    · rw [AList.lookup_erase_ne isClosed]
      change _ = if directory.ownerOf other = some user then 1 else 0
      rw [← before]
      by_cases isUser : user = userId
      · rw [if_pos isUser, List.count_filter]
        simpa using isClosed
      · rw [if_neg isUser]

end Steps

/-! ## The calls -/

section Calls

variable (maker : AccountMaker Q) {directory : AccountDirectory Q}

theorem exec_openAccount (req : OpenAccountRequest) (uuid : String) (seconds : ℤ)
    (directory : AccountDirectory Q) :
    (∃ error, exec (openAccount maker req uuid seconds) directory = (.error error, directory)) ∨
      ∃ accountId account metadata change, accountId ∉ directory.accounts ∧
        exec (openAccount maker req uuid seconds) directory =
          (.ok accountId, (directory.store accountId account metadata).tellUsers change) := by
  rw [openAccount, exec_bind, exec_read]
  cases directory.userManager with
  | none =>
    by_cases known : req.accountId.getD ("ACC_" ++ uuid) ∈ directory.accounts
    · left
      simp only [exec_bind, exec_read, known, decide_true, if_true, exec_fail]
      exact ⟨_, rfl⟩
    · right
      simp only [exec_bind, exec_read, known, decide_false, Bool.false_eq_true,
        if_false, exec_update, exec_pure]
      exact ⟨_, _, _, _, known, rfl⟩
  | some users =>
    simp only [exec_bind, exec_result]
    cases users.getUser req.userId with
    | error error => exact .inl ⟨error, rfl⟩
    | ok user =>
      by_cases known : req.accountId.getD ("ACC_" ++ uuid) ∈ directory.accounts
      · left
        simp only [exec_read, known, decide_true, if_true, exec_fail]
        exact ⟨_, rfl⟩
      · right
        simp only [exec_bind, exec_read, known, decide_false, Bool.false_eq_true,
          if_false, exec_update, exec_pure]
        exact ⟨_, _, _, _, known, rfl⟩

theorem exec_restoreAccountFromQifi (qifi : QIFI maker.Content) (seconds : ℤ)
    (directory : AccountDirectory Q) :
    exec (restoreAccountFromQifi maker qifi seconds) directory = (.ok (), directory) ∨
      ∃ accountId account metadata change, accountId ∉ directory.accounts ∧
        exec (restoreAccountFromQifi maker qifi seconds) directory =
          (.ok (), (directory.store accountId account metadata).tellUsers change) := by
  rw [restoreAccountFromQifi, exec_bind, exec_read]
  by_cases known : qifi.accountCookie ∈ directory.accounts
  · left
    simp only [known, decide_true, if_true, exec_pure]
  · right
    simp only [known, decide_false, Bool.false_eq_true, if_false, exec_bind, exec_update]
    exact ⟨_, _, _, _, known, rfl⟩

theorem exec_closeAccount_refused (found : directory.accounts.lookup accountId = some account)
    (refused : account.hold.keys ≠ [] ∨ 0 < account.money) :
    ∃ error, exec (closeAccount accountId) directory =
      (.error error, { directory with accounts := directory.accounts.erase accountId }) := by
  simp only [closeAccount, exec_bind, exec_read, found, exec_update]
  by_cases holds : account.hold.keys ≠ []
  · rw [if_pos holds]
    exact ⟨_, rfl⟩
  · have money : 0 < account.money := refused.resolve_left holds
    rw [if_neg holds, if_pos money]
    exact ⟨_, rfl⟩

theorem exec_closeAccount_missing (missing : directory.accounts.lookup accountId = none) :
    exec (closeAccount accountId) directory =
      (.error (AccountManager.notFound accountId), directory) := by
  simp only [closeAccount, exec_bind, exec_read, missing, exec_fail]

theorem exec_closeAccount_empty {accountId : String} {account : Account Q}
    {metadata : AccountMetadata} (found : directory.accounts.lookup accountId = some account)
    (empty : ¬ (account.hold.keys ≠ [] ∨ 0 < account.money))
    (known : directory.metadata.lookup accountId = some metadata) :
    exec (closeAccount accountId) directory =
      (.ok (), directory.closed accountId metadata.userId) := by
  rcases not_or.mp empty with ⟨noPositions, noMoney⟩
  simp only [closeAccount, exec_bind, exec_read, found, known, exec_update, if_neg noPositions,
    if_neg noMoney]
  rfl

/-- A call that closes no account with positions or money keeps the tables in
step, and changes none of them on an error. -/
theorem Consistent.perform (consistent : directory.Consistent)
    (accepts : ¬ directory.Refuses call) : (exec (perform maker call) directory).2.Consistent ∧
      ∀ error, (exec (perform maker call) directory).1 = .error error →
        SameTables directory (exec (perform maker call) directory).2 := by
  cases call with
  | openAccount req uuid seconds =>
    simp only [AccountDirectory.perform, exec_bind]
    rcases exec_openAccount maker req uuid seconds directory with ⟨error, refused⟩ |
      ⟨accountId, account, metadata, change, missing, opened⟩
    · rw [refused]
      exact ⟨consistent, fun _ _ => ⟨rfl, rfl, rfl⟩⟩
    · rw [opened]
      constructor
      · exact (consistent.store missing account metadata).tellUsers change
      · intro error failed
        cases failed
  | closeAccount accountId =>
    rw [AccountDirectory.perform]
    cases found : directory.accounts.lookup accountId with
    | none =>
      rw [exec_closeAccount_missing found]
      exact ⟨consistent, fun _ _ => ⟨rfl, rfl, rfl⟩⟩
    | some account =>
      have empty : ¬ (account.hold.keys ≠ [] ∨ 0 < account.money) := by
        intro refused
        exact accepts ⟨account, found, refused⟩
      have isKey : accountId ∈ directory.metadata := by
        rw [← consistent.keys, ← AList.lookup_isSome, found]
        rfl
      rw [← AList.lookup_isSome, Option.isSome_iff_exists] at isKey
      rcases isKey with ⟨metadata, known⟩
      rw [exec_closeAccount_empty found empty known]
      constructor
      · apply consistent.closed
        rw [ownerOf, known]
        rfl
      · intro error failed
        cases failed
  | restoreAccountFromQifi qifi seconds =>
    rw [AccountDirectory.perform]
    rcases exec_restoreAccountFromQifi maker qifi seconds directory with same |
      ⟨accountId, account, metadata, change, missing, restored⟩
    · rw [same]
      exact ⟨consistent, fun _ _ => ⟨rfl, rfl, rfl⟩⟩
    · rw [restored]
      constructor
      · exact (consistent.store missing account metadata).tellUsers change
      · intro error failed
        cases failed
  | trade accountId account =>
    rw [AccountDirectory.perform, exec_update]
    constructor
    · unfold AccountDirectory.trade
      split_ifs with known
      · apply consistent.congr
        · intro other
          rw [AList.mem_insert]
          constructor
          · intro either
            rcases either with same | old
            · exact same ▸ known
            · exact old
          · exact .inr
        · rfl
        · rfl
      · exact consistent
    · intro error failed
      cases failed

theorem not_sameTables_of_refuses (refuses : directory.Refuses call) :
    ∃ error, (exec (perform maker call) directory).1 = .error error ∧
      ¬ SameTables directory (exec (perform maker call) directory).2 := by
  cases call with
  | closeAccount accountId =>
    rcases refuses with ⟨account, found, refused⟩
    rcases exec_closeAccount_refused found refused with ⟨error, closed⟩
    rw [AccountDirectory.perform, closed]
    refine ⟨error, rfl, ?_⟩
    intro same
    have gone := congrArg (AList.lookup accountId) same.accounts
    rw [found, AList.lookup_erase] at gone
    cases gone
  | openAccount | restoreAccountFromQifi | trade => cases refuses

theorem consistent_new (userManager : Option UserManager) :
    (new userManager : AccountDirectory Q).Consistent where
  keys _ := Iff.rfl
  listed _ _ := rfl

/-- The tables agree throughout a run from consistent tables if and only if no
account with positions or money is closed in it. -/
theorem Consistent.keepsTables_iff (consistent : directory.Consistent) :
    KeepsTables maker calls directory ↔ ClosesEmpty maker calls directory := by
  induction calls generalizing directory with
  | nil => exact ⟨fun _ => trivial, fun _ => consistent⟩
  | cons call calls induction =>
    rw [KeepsTables, ClosesEmpty]
    by_cases refuses : directory.Refuses call
    · rcases not_sameTables_of_refuses maker refuses with ⟨error, failed, changed⟩
      constructor
      · intro keeps
        exact absurd (keeps.2.1 error failed) changed
      · intro accepts
        exact absurd refuses accepts.1
    · rcases consistent.perform maker refuses with ⟨after, atomic⟩
      constructor
      · intro keeps
        exact ⟨refuses, (induction after).mp keeps.2.2⟩
      · intro accepts
        exact ⟨consistent, atomic, (induction after).mpr accepts.2⟩

/-- For every run from empty tables: accounts and metadata have the same keys in
every state, each account is listed once, under its owner, and every error leaves
the tables alone, if and only if `close_account` is only called on accounts
without positions and money. -/
theorem keepsTables_iff_closesEmpty (userManager : Option UserManager)
    (calls : List (AccountCall maker)) :
    KeepsTables maker calls (new userManager) ↔ ClosesEmpty maker calls (new userManager) :=
  (consistent_new userManager).keepsTables_iff maker

end Calls

def referenceMaker : AccountMaker referenceQars where
  Content := Unit
  newAccount accountCookie _ _ initCash _ _ := ⟨accountCookie, initCash, initCash, 0, 0, ∅, ∅, ∅, ()⟩
  newFromQifi qifi := ⟨qifi.accountCookie, 0, 0, 0, 0, ∅, ∅, ∅, ()⟩
  setEnvironment _ account := account
  initH instrument account :=
    { account with hold := account.hold.insert instrument ⟨0, 0, 0, 0⟩ }
  calcCoeff _ _ := 1
  calcSellopencoeff _ _ := 1

def openAndClose : List (AccountCall referenceMaker) :=
  [.openAccount ⟨"u", some "a", "n", 1, .Individual⟩ "" 0, .closeAccount "a"]

/-- The tables after the account was opened. -/
def opened : AccountDirectory referenceQars :=
  (exec (openAccount referenceMaker ⟨"u", some "a", "n", 1, .Individual⟩ "" 0) (new none)).2

theorem openAndClose_breaks_tables :
    let closed := exec (closeAccount "a") opened
    closed.1 = .error (.AccountError (.ofString "Cannot close account with remaining balance")) ∧
      "a" ∈ opened.accounts ∧ "a" ∉ closed.2.accounts ∧ "a" ∈ closed.2.metadata ∧
      closed.2.listOf "u" = ["a"] ∧ ¬ KeepsTables referenceMaker openAndClose (new none) := by
  have refused : (exec (closeAccount "a") opened).1 =
      .error (.AccountError (.ofString "Cannot close account with remaining balance")) := by
    decide +kernel
  have gone : "a" ∉ (exec (closeAccount "a") opened).2.accounts := by decide +kernel
  refine ⟨refused, by decide +kernel, gone, by decide +kernel, by decide +kernel, ?_⟩
  intro keeps
  have same : (exec (closeAccount "a") opened).2.accounts = opened.accounts :=
    (keeps.2.2.2.1 _ refused).accounts
  apply gone
  rw [same]
  decide +kernel

end QAExchange.AccountDirectory
