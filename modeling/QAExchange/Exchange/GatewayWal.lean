import QAExchange.Foundation.Interleaving
import QAExchange.Storage.WalResumed

/-! # The logs of the gateway

The gateway keeps one WAL manager for each instrument and each user. It looks for the
manager, creates one over the directory if there is none, and puts it into its map, each
in a step of its own. Every manager counts the records of its directory by itself.
-/

namespace QAExchange

open Foundation Action WalManager

variable {Record : Type}

/-- One directory. `managers` are all that were created over it, of which `cached` is the
one in the map; their files are those of the directory. `appended` are the records that
were appended, under the numbers that the managers returned. -/
structure GatewayWal (Record : Type) where
  files : List WalFile
  managers : List WalManager
  cached : Option ℕ
  appended : List (ℕ × Record)

inductive GatewayWalCall (Record : Type)
  | append (stamped : Stamped Record)
  | restart

inductive GatewayWalTask (Record : Type)
  | lookup (stamped : Stamped Record)
  | create (stamped : Stamped Record)
  | insert (manager : ℕ) (stamped : Stamped Record)
  | append (manager : ℕ) (stamped : Stamped Record)
  | restart
  | done

namespace GatewayWal

def empty : GatewayWal Record where
  files := []
  managers := []
  cached := none
  appended := []

section Model

variable (codec : EntryCodec Record)

def inDirectory (files : List WalFile) (manager : WalManager) : WalManager :=
  { manager with files := files }

def appendThrough (seconds : ℤ) (index : ℕ) (manager : WalManager) (stamped : Stamped Record)
    (wal : GatewayWal Record) : GatewayWal Record :=
  match exec (append codec seconds stamped) (inDirectory wal.files manager) with
  | (.ok sequence, after) => { wal with
      files := after.files
      managers := wal.managers.set index after
      appended := wal.appended ++ [(sequence, stamped.record)] }
  | (.error _, after) => { wal with
      files := after.files
      managers := wal.managers.set index after }

/-- `get_or_create_instrument_wal` or `get_or_create_account_wal`, and `append`. -/
def advance (seconds : ℤ) (wal : GatewayWal Record) :
    GatewayWalTask Record → GatewayWalTask Record × GatewayWal Record
  | .lookup stamped =>
    match wal.cached with
    | some manager => (.append manager stamped, wal)
    | none => (.create stamped, wal)
  | .create stamped =>
    let manager := WalManager.new codec wal.files seconds
    (.insert wal.managers.length stamped, { wal with
      files := manager.files
      managers := wal.managers ++ [manager] })
  | .insert manager stamped => (.append manager stamped, { wal with cached := some manager })
  | .append index stamped =>
    match wal.managers[index]? with
    | some manager => (.done, appendThrough codec seconds index manager stamped wal)
    | none => (.done, wal)
  | .restart => (.done, { wal with cached := none })
  | .done => (.done, wal)

def service : Service (GatewayWal Record) (GatewayWalTask Record) (GatewayWalCall Record) ℤ where
  start
    | .append stamped => .lookup stamped
    | .restart => .restart
  advance := advance codec

def begun : Pool (GatewayWal Record) (GatewayWalTask Record) := ⟨.empty, []⟩

structure OneLog (wal : GatewayWal Record) : Prop where
  distinct : (wal.appended.map Prod.fst).Nodup
  replays : (delivered codec wal.files).1 = .ok ()
  complete : ((delivered codec wal.files).2.map WalEntry.numberedRecord).Perm wal.appended

/-- A record is appended through the manager that was created last. -/
def ThroughNewest (wal : GatewayWal Record) : GatewayWalTask Record → Prop
  | .append manager _ => manager + 1 = wal.managers.length
  | _ => True

def AppendsThroughNewest (pool : Pool (GatewayWal Record) (GatewayWalTask Record)) :
    Turn (GatewayWalCall Record) ℤ → Prop
  | .call _ => True
  | .step _ index => ∀ task ∈ pool.tasks[index]?, ThroughNewest pool.shared task

instance decidableThroughNewest (wal : GatewayWal Record) :
    ∀ task : GatewayWalTask Record, Decidable (ThroughNewest wal task)
  | .append manager _ => inferInstanceAs (Decidable (manager + 1 = wal.managers.length))
  | .lookup _ | .create _ | .insert .. | .restart | .done => .isTrue trivial

instance decidableAppendsThroughNewest (pool : Pool (GatewayWal Record) (GatewayWalTask Record)) :
    ∀ turn : Turn (GatewayWalCall Record) ℤ, Decidable (AppendsThroughNewest pool turn)
  | .call _ => .isTrue trivial
  | .step _ index => inferInstanceAs (Decidable (∀ task ∈ pool.tasks[index]?, _))

end Model

/-! ## The newest manager -/

def Newest (codec : EntryCodec Record) (wal : GatewayWal Record) : Prop :=
  wal = { empty with cached := wal.cached } ∨
    ∃ older newest layout, wal.managers = older ++ [newest] ∧
      Ordered codec (inDirectory wal.files newest) layout [] wal.appended ∧ Anchored layout

section Newest

variable {codec : EntryCodec Record} {wal : GatewayWal Record}

theorem Newest.oneLog (roundTrip : codec.RoundTrip) (newest : Newest codec wal) :
    OneLog codec wal := by
  rcases newest with isEmpty | ⟨older, manager, layout, _, ordered, _⟩
  · rw [isEmpty]
    exact ⟨List.nodup_nil, rfl, List.Perm.refl _⟩
  · have numbers : wal.appended.map Prod.fst = layout.entries.map WalEntry.sequence := by
      rw [ordered.appended_eq, List.append_nil, List.map_map]
      rfl
    have increasing := ordered.increasing
    rw [List.append_nil] at increasing
    rcases ordered.delivers roundTrip with ⟨succeeds, complete, _⟩
    refine ⟨?_, succeeds, complete⟩
    rw [numbers]
    exact increasing.imp ne_of_lt

theorem Newest.create (roundTrip : codec.RoundTrip) (newest : Newest codec wal) (seconds : ℤ) :
    Newest codec { wal with
      files := (WalManager.new codec wal.files seconds).files
      managers := wal.managers ++ [WalManager.new codec wal.files seconds] } := by
  right
  rcases newest with isEmpty | ⟨older, manager, layout, _, ordered, anchored⟩
  · rw [isEmpty]
    exact ⟨[], _, _, rfl, ordered_new codec seconds .default, anchored_new seconds⟩
  · exact ⟨wal.managers, _, layout, rfl, ordered.reopen roundTrip anchored seconds, anchored⟩

theorem Newest.append (newest : Newest codec wal) (isManager : wal.managers[index]? = some manager)
    (last : index + 1 = wal.managers.length) (seconds : ℤ) (stamped : Stamped Record) :
    Newest codec (appendThrough codec seconds index manager stamped wal) := by
  rcases newest with isEmpty | ⟨older, found, layout, isConcat, ordered, anchored⟩
  · rw [isEmpty] at isManager
    cases isManager
  · have place : index = older.length := by
      rw [isConcat, List.length_append, List.length_singleton] at last
      omega
    have same : found = manager := by
      rw [isConcat, place] at isManager
      simpa using isManager
    subst same place
    have ofAfter : ∀ {after : WalManager} {layout : Layout Record} {appended : List (ℕ × Record)},
        Ordered codec after layout [] appended →
          Ordered codec (inDirectory after.files after) layout [] appended := id
    right
    rw [appendThrough]
    rcases exec_append_eq codec seconds stamped (inDirectory wal.files found) with
      ⟨serializes, ran⟩ | ⟨_, text, count, ran⟩
    · rw [ran]
      have wrote := ordered.wroteNumbered seconds [stamped] serializes.stored (by simp)
      refine ⟨older, _, _, ?_, ofAfter wrote, ?_⟩
      · rw [isConcat]
        simp
      · exact anchored.append codec ordered.linked (ordered.stores.nonempty ordered.linked) _ _
          seconds (by simp)
    · rw [ran]
      refine ⟨older, _, layout, ?_, ofAfter (ordered.skipped count), anchored⟩
      rw [isConcat]
      simp

theorem Newest.advance (roundTrip : codec.RoundTrip) (newest : Newest codec wal)
    (through : ThroughNewest wal task) (seconds : ℤ) :
    Newest codec (advance codec seconds wal task).2 := by
  cases task with
  | lookup stamped =>
    rw [GatewayWal.advance]
    cases wal.cached <;> exact newest
  | create stamped => exact newest.create roundTrip seconds
  | insert manager stamped =>
    rcases newest with isEmpty | known
    · left
      rw [isEmpty]
      rfl
    · exact .inr known
  | append index stamped =>
    rw [GatewayWal.advance]
    cases found : wal.managers[index]? with
    | none => exact newest
    | some manager => exact newest.append found through seconds stamped
  | restart =>
    rcases newest with isEmpty | known
    · left
      rw [isEmpty]
      rfl
    · exact .inr known
  | done => exact newest

end Newest

/-- As long as every record is appended through the manager that was created last, the
numbers are distinct and replay delivers all of the records, whatever calls come between
each other. -/
theorem oneLog_throughNewest {codec : EntryCodec Record} (roundTrip : codec.RoundTrip)
    {turns : List (Turn (GatewayWalCall Record) ℤ)}
    (through : (service codec).Obeys AppendsThroughNewest turns begun) :
    OneLog codec ((service codec).run turns begun).shared := by
  have newest : Newest codec ((service codec).run turns begun).shared := by
    apply Service.run_preserves _ (fun pool => Newest codec pool.shared) _ _ turns begun through
    · exact .inl rfl
    · intro pool call newest
      exact newest
    · intro shared before task after seconds newest allowed
      exact newest.advance roundTrip (allowed task (by simp)) seconds
  exact newest.oneLog roundTrip

/-- Two records, a new gateway, and a third record, one after the other. -/
def oneAfterTheOther : List (Turn (GatewayWalCall UInt8) ℤ) :=
  [.call (.append ⟨0, 5⟩), .step 0 0, .step 0 0, .step 0 0, .step 0 0,
    .call (.append ⟨0, 3⟩), .step 0 1, .step 0 1, .call .restart, .step 0 2,
    .call (.append ⟨0, 7⟩), .step 0 3, .step 0 3, .step 0 3, .step 0 3]

/-- Two calls find no manager. One of them appends its record before the other creates a
second manager, and a third call has found the first manager by then. -/
def twoManagers : List (Turn (GatewayWalCall UInt8) ℤ) :=
  [.call (.append ⟨0, 5⟩), .call (.append ⟨0, 3⟩), .step 0 0, .step 0 1,
    .step 0 0, .step 0 0, .step 0 0, .call (.append ⟨0, 7⟩), .step 0 2,
    .step 0 1, .step 0 1, .step 0 2, .step 0 1]

theorem oneAfterTheOther_oneLog :
    OneLog referenceCodec ((service referenceCodec).run oneAfterTheOther begun).shared := by
  apply oneLog_throughNewest ReferenceCodec.roundTrip
  decide +kernel

/-- The second and the third record are both appended under the number 2. -/
theorem twoManagers_not_oneLog :
    ¬ OneLog referenceCodec ((service referenceCodec).run twoManagers begun).shared := by
  intro oneLog
  have appended : ((service referenceCodec).run twoManagers begun).shared.appended =
      [(1, 5), (2, 7), (2, 3)] := by
    decide +kernel
  have distinct := oneLog.distinct
  rw [appended] at distinct
  revert distinct
  decide

end GatewayWal

end QAExchange
