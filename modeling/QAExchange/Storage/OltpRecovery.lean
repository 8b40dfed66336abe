import QAExchange.Storage.OltpDurability

/-! # Restarts from a checkpoint

Over a whole session the last checkpoint decides which records a restart finds. The
storage that it leaves goes on as the old one did, unless the log begins to count anew
or a flush creates a file that the checkpoint lists.
-/

namespace QAExchange.OltpHybridStorage

open Foundation Action WalManager

variable {Record : Type}

/-! ## The session up to the restart -/

section Runs

variable {codec : EntryCodec Record} {clock : RecordClock Record}

theorem stepSession_createCheckpoint (codec : EntryCodec Record) (clock : RecordClock Record)
    (storage : OltpHybridStorage Record) :
    ∃ wal : WalManager, wal.currentSequence = storage.wal.currentSequence ∧
      stepSession codec clock .createCheckpoint storage = ([], storage.checkpointed wal) := by
  rcases createCheckpoint_snd storage with ⟨wal, same, ran⟩
  refine ⟨wal, same, ?_⟩
  rw [stepSession, ran]

theorem stored_currentSequence (storage : OltpHybridStorage Record) (call : StorageWrite Record) :
    (storage.stored codec clock call).settled.wal.currentSequence =
      storage.wal.currentSequence + call.records.length := by
  have same : (storage.stored codec clock call).settled.wal =
      (storage.stored codec clock call).wal := by
    rw [settled]
    split_ifs <;> rfl
  rw [same, stored, wrote_currentSequence]
  rfl

theorem le_stepSession (call : SessionCall Record) (storage : OltpHybridStorage Record) :
    storage.wal.currentSequence ≤ (stepSession codec clock call storage).2.wal.currentSequence := by
  cases call with
  | write call =>
    rw [stepSession]
    rcases stepWrite_cases codec clock call storage with ⟨_, ran⟩ | ⟨_, count, ran⟩
    · rw [ran, stored_currentSequence]
      exact Nat.le_add_right _ _
    · rw [ran]
      exact Nat.le_add_right _ _
  | createCheckpoint =>
    rcases stepSession_createCheckpoint codec clock storage with ⟨wal, same, ran⟩
    rw [ran]
    exact same.ge

theorem le_runSession (codec : EntryCodec Record) (clock : RecordClock Record)
    (calls : List (SessionCall Record)) (storage : OltpHybridStorage Record) :
    storage.wal.currentSequence ≤ (runSession codec clock calls storage).2.wal.currentSequence := by
  induction calls generalizing storage with
  | nil => exact le_refl _
  | cons call calls induction => exact (le_stepSession call storage).trans (induction _)

theorem lastCheckpoint_write (call : StorageWrite Record) (calls : List (SessionCall Record))
    (storage : OltpHybridStorage Record) :
    lastCheckpoint codec clock (.write call :: calls) storage =
      lastCheckpoint codec clock calls (stepWrite codec clock call storage).2 := by
  simp only [lastCheckpoint, stepSession]
  cases lastCheckpoint codec clock calls (stepWrite codec clock call storage).2 <;> rfl

theorem lastCheckpoint_createCheckpoint (calls : List (SessionCall Record))
    (storage : OltpHybridStorage Record) :
    lastCheckpoint codec clock (.createCheckpoint :: calls) storage =
      some ((lastCheckpoint codec clock calls
        (stepSession codec clock .createCheckpoint storage).2).getD (storage, calls)) := by
  simp only [lastCheckpoint]
  cases lastCheckpoint codec clock calls
    (stepSession codec clock .createCheckpoint storage).2 <;> rfl

theorem Session.run (roundTrip : codec.RoundTrip) :
    ∀ {calls : List (SessionCall Record)} {storage : OltpHybridStorage Record}
      {layout : Layout Record} {listed : List (SSTableFile Record)} {records : List (ℕ × Record)},
      Session codec clock storage layout listed records →
      (runSession codec clock calls storage).2.wal.currentSequence < 2 ^ 64 →
      ∃ layout' listed',
        Session codec clock (runSession codec clock calls storage).2 layout' listed'
          (records ++ (runSession codec clock calls storage).1) ∧
        (lastCheckpoint codec clock calls storage = none →
          (Saved clock layout' listed' (records ++ (runSession codec clock calls storage).1) ↔
            Saved clock layout listed records ∧
              (layout.linked = true ∨ BeginsFile codec clock calls storage))) ∧
        ∀ found, lastCheckpoint codec clock calls storage = some found →
          (Saved clock layout' listed' (records ++ (runSession codec clock calls storage).1) ↔
            KeepsAt codec clock found.1 found.2)
  | [], storage, layout, listed, records, session, _ => by
    refine ⟨layout, listed, ?_, ?_, ?_⟩
    · rw [runSession, List.append_nil]
      exact session
    · intro _
      rw [runSession, List.append_nil, BeginsFile, or_true, and_true]
    · intro found isFound
      cases isFound
  | .write call :: calls, storage, layout, listed, records, session, range => by
    rw [lastCheckpoint_write]
    rw [runSession, stepSession] at range ⊢
    simp only [BeginsFile]
    rcases stepWrite_cases codec clock call storage with ⟨writes, ran⟩ | ⟨fails, count, ran⟩
    · rw [ran] at range ⊢
      have isStored := (session.store writes).settle
      rcases isStored.run roundTrip range with ⟨layout', listed', after, none, some⟩
      rw [List.append_assoc] at after none some
      refine ⟨layout', listed', after, ?_, some⟩
      intro isNone
      have linked : (storedLayout codec storage layout call).linked = true ↔
          (Begins codec storage call ∨ layout.linked = true) := by
        rcases session.storedLayout_entries call with ⟨receives, same, _⟩ | ⟨loses, same, _⟩
        · exact iff_of_true same receives
        · exact iff_of_false (by rw [same]; exact Bool.false_ne_true) loses
      rw [none isNone, session.saved_store writes, linked]
      constructor
      · rintro ⟨⟨saved, begins | stays⟩, _⟩
        · exact ⟨saved, .inr ⟨fun _ => begins, .inl writes⟩⟩
        · exact ⟨saved, .inl stays⟩
      · rintro ⟨saved, stays | begins⟩
        · exact ⟨⟨saved, .inr stays⟩, .inl (.inr stays)⟩
        · exact ⟨⟨saved, .inl (begins.1 writes)⟩, .inl (.inl (begins.1 writes))⟩
    · rw [ran] at range ⊢
      rcases (session.skip count).run roundTrip range with ⟨layout', listed', after, none, some⟩
      refine ⟨layout', listed', after, ?_, some⟩
      intro isNone
      rw [List.nil_append, none isNone]
      apply and_congr_right
      intro _
      apply or_congr_right
      constructor
      · intro begins
        exact ⟨fun writes => absurd writes fails, .inr begins⟩
      · rintro ⟨_, writes | begins⟩
        · exact absurd writes fails
        · exact begins
  | .createCheckpoint :: calls, storage, layout, listed, records, session, range => by
    have small := (le_runSession codec clock (.createCheckpoint :: calls) storage).trans_lt range
    rcases session.checkpoint small with ⟨wal, ran, _, isCheckpoint⟩
    have step : stepSession codec clock .createCheckpoint storage =
        ([], storage.checkpointed wal) := by
      rw [stepSession, ran]
    rw [lastCheckpoint_createCheckpoint, step]
    rw [runSession, step] at range ⊢
    rcases isCheckpoint.run roundTrip range with ⟨layout', listed', after, none, some⟩
    refine ⟨layout', listed', after, ?_, ?_⟩
    · intro isNone
      cases isNone
    · intro found isFound
      cases isFound
      cases earlier : lastCheckpoint codec clock calls (storage.checkpointed wal) with
      | some other => exact some other earlier
      | none =>
        rw [List.nil_append, none earlier, session.saved_checkpoint, Option.getD_none, KeepsAt,
          session.logsMemtable_iff roundTrip, ran]
        constructor
        · rintro ⟨rows, begins⟩
          cases linked : (layout.truncate storage.wal.currentSequence).linked with
          | true => exact .inl ⟨rfl, rows⟩
          | false =>
            right
            constructor
            · apply List.eq_nil_iff_forall_not_mem.mpr
              intro row inTable
              rcases rows row inTable with ⟨entry, isEntry, _⟩
              rw [Layout.entries, session.log.truncate_unlinked linked] at isEntry
              cases isEntry
            · rw [linked] at begins
              exact begins.resolve_left Bool.false_ne_true
        · rintro (⟨linked, rows⟩ | ⟨empty, begins⟩)
          · exact ⟨rows, .inl linked⟩
          · refine ⟨?_, .inr begins⟩
            rw [empty]
            intro row inTable
            cases inTable

end Runs

section Restart

variable {codec : EntryCodec Record} {clock : RecordClock Record}

theorem exec_forM_insertAfter (checkpointSequence : ℕ) (entries : List (WalEntry Record))
    (memtable : OltpMemTable Record) :
    exec (forM entries (insertAfter clock checkpointSequence)) memtable =
      exec (forM (entries.filter fun entry => checkpointSequence < entry.sequence)
        (insertEntry clock)) memtable := by
  induction entries generalizing memtable with
  | nil => rfl
  | cons entry entries induction =>
    rw [List.forM_cons]
    by_cases later : checkpointSequence < entry.sequence
    · have kept : (entry :: entries).filter (fun entry => checkpointSequence < entry.sequence) =
          entry :: entries.filter fun entry => checkpointSequence < entry.sequence :=
        List.filter_cons_of_pos (decide_eq_true later)
      rw [kept, List.forM_cons, insertAfter, decide_eq_true later]
      exact induction _
    · have dropped : (entry :: entries).filter (fun entry => checkpointSequence < entry.sequence) =
          entries.filter fun entry => checkpointSequence < entry.sequence :=
        List.filter_cons_of_neg (by simpa using later)
      rw [dropped, insertAfter, decide_eq_false later]
      exact induction _

theorem Session.restart (roundTrip : codec.RoundTrip)
    (session : Session codec clock storage layout listed records) (config : OltpHybridConfig)
    (seconds : ℤ) :
    ∃ after, exec (restartFromCheckpoint codec clock config seconds) storage = (.ok (), after) ∧
      Opened after listed ∧
      (∀ row, row ∈ after.contents listed ↔
        (∃ record ∈ layout.entries.map WalEntry.numberedRecord,
          row = .fromWal clock record.1 record.2) ∨ row ∈ listed.flatMap SSTableFile.entries) ∧
      (layout.linked = true → ∀ record ∈ records, record.1 < after.wal.currentSequence) := by
  rcases session.log.reopen roundTrip seconds with ⟨reopened, stores, same, numbers⟩
  rcases create_eq clock roundTrip stores config storage.sstableFiles storage.checkpointFiles with
    ⟨memtable, isData, isCreated⟩
  let begun := created (WalManager.new codec storage.wal.files seconds) memtable config
    storage.sstableFiles storage.checkpointFiles
  have present : ∀ file ∈ listed, file ∈ begun.sstableFiles.rows :=
    fun file member => session.present member
  have distinct : ((layout.entries.map WalEntry.numberedRecord).map Prod.fst).Nodup := by
    rw [List.map_map]
    exact session.log.increasing.imp ne_of_lt
  have rows : ∀ row, row ∈ memtable.data.rows ↔
      ∃ record ∈ layout.entries.map WalEntry.numberedRecord,
        row = .fromWal clock record.1 record.2 := by
    intro row
    rw [isData, same, OltpMemTable.mem_insertAll distinct (by simp)]
    simp
  -- the second replay inserts what the first one has inserted
  have recovers : ∃ again : OltpMemTable Record,
      (∀ row, row ∈ again.data.rows ↔
        ∃ record ∈ layout.entries.map WalEntry.numberedRecord,
          row = .fromWal clock record.1 record.2) ∧
      exec (recoverFromCheckpoint codec clock) begun =
        (.ok (), { begun.loaded listed with memtable := again }) := by
    have latest := session.latest
    have sameCheckpoints : begun.checkpointFiles = storage.checkpointFiles := rfl
    rw [recoverFromCheckpoint, exec_bind_ok (exec_read _ _), sameCheckpoints]
    cases found : CheckpointManager.loadLatestCheckpoint storage.checkpointFiles with
    | none =>
      rw [found] at latest
      have none : listed = [] := List.map_eq_nil_iff.mp latest.symm
      refine ⟨memtable, rows, ?_⟩
      rw [none]
      rfl
    | some checkpoint =>
      rw [found] at latest
      change checkpoint.sstableFiles = _ at latest
      rcases exec_forM_insertEntry clock
        (reopened.entries.filter fun entry => checkpoint.walSequence < entry.sequence) memtable with
        ⟨again, ran, _, data⟩
      refine ⟨again, ?_, ?_⟩
      · intro row
        rw [data]
        apply mem_insertAll_again distinct _ _ rows row
        · rw [same]
          exact distinct.sublist ((List.filter_sublist.map _).map _)
        · rw [same]
          exact (List.filter_sublist.map _).subset
      · simp only
        rw [latest, exec_bind_ok (exec_loadSSTables present), exec_bind_ok (exec_read _ _)]
        change exec (onMemtable (WalManager.replay codec (insertAfter clock checkpoint.walSequence)
          (WalManager.new codec storage.wal.files seconds).files)) (begun.loaded listed) = _
        have inserts : exec (forM (reopened.segments.flatMap Segment.entries)
            (insertAfter clock checkpoint.walSequence)) (begun.loaded listed).memtable =
              (.ok (), again) := by
          rw [exec_forM_insertAfter]
          exact ran
        rw [stores.files, onMemtable, exec_onPart, replay_segments roundTrip _ stores.stored,
          inserts]
  rcases recovers with ⟨again, againRows, ran⟩
  refine ⟨{ begun.loaded listed with memtable := again }, ?_, ⟨List.nil_append _, present, ?_⟩, ?_,
    ?_⟩
  · rw [restartFromCheckpoint, exec_bind_ok (exec_read _ _)]
    change exec (do
      let created ← result (create codec clock config storage.wal.files storage.sstableFiles
        storage.checkpointFiles seconds)
      update fun _ => created
      recoverFromCheckpoint codec clock) storage = _
    rw [isCreated, exec_bind_ok (exec_result _ _), exec_bind_ok (exec_update _ _)]
    exact ran
  · intro file member
    exact session.holds.opened.sound file (session.present member)
  · intro row
    rw [contents, List.mem_append]
    change (row ∈ again.data.rows ∨ _) ↔ _
    rw [againRows]
  · intro linked record member
    rcases numbers linked with ⟨least, above⟩
    change record.1 < (WalManager.new codec storage.wal.files seconds).currentSequence
    rcases session.reached linked record member with first | ⟨entry, isEntry, bound⟩
    · omega
    · exact bound.trans_lt (above entry isEntry)

/-- The restart finds everything if and only if everything is saved, and then it goes on
behind the numbers of the records if the log still has a file. -/
theorem Session.restart_answers (roundTrip : codec.RoundTrip) {storage : OltpHybridStorage Record}
    {layout : Layout Record} {listed : List (SSTableFile Record)} {records : List (ℕ × Record)}
    (session : Session codec clock storage layout listed records)
    (range : storage.wal.currentSequence < 2 ^ 64) (readsMetadata : ReadsMetadata Record)
    (config : OltpHybridConfig) (seconds : ℤ) :
    ∃ after, exec (restartFromCheckpoint codec clock config seconds) storage = (.ok (), after) ∧
      (AnswersAll clock readsMetadata after records ↔ Saved clock layout listed records) ∧
      (Saved clock layout listed records → storage.wal.files ≠ [] →
        Holds clock after listed records) := by
  rcases session.restart roundTrip config seconds with ⟨after, ran, opened, rows, above⟩
  have known : ∀ row ∈ after.contents listed,
      ∃ record ∈ records, row = .fromWal clock record.1 record.2 := by
    intro row member
    rcases (rows row).mp member with ⟨record, isRecord, same⟩ | inFile
    · rcases List.mem_map.mp isRecord with ⟨entry, isEntry, rfl⟩
      exact ⟨_, session.logged entry isEntry, same⟩
    · rcases List.mem_flatMap.mp inFile with ⟨file, isFile, inside⟩
      apply (session.holds.complete row).mp
      exact List.mem_append_right _ (List.mem_flatMap.mpr ⟨file, session.present isFile, inside⟩)
  have small : ∀ record ∈ records, record.1 < 2 ^ 64 :=
    fun record member => (session.holds.below record member).trans range
  have found : ∀ record ∈ records,
      (.fromWal clock record.1 record.2 ∈ after.contents listed ↔
        record ∈ layout.entries.map WalEntry.numberedRecord ∨
          .fromWal clock record.1 record.2 ∈ listed.flatMap SSTableFile.entries) := by
    intro record member
    rw [rows]
    apply or_congr_left
    constructor
    · rintro ⟨other, isOther, same⟩
      have number : record.1 = other.1 := congrArg (fun row => row.key.sequence) same
      have value : record.2 = other.2 := congrArg MemTableEntry.record same
      rwa [Prod.ext number value]
    · intro inLog
      exact ⟨record, inLog, rfl⟩
  refine ⟨after, ran, ?_, ?_⟩
  · rw [answersAll_iff opened session.holds.numbers small known readsMetadata]
    exact forall₂_congr found
  · intro saved some
    refine ⟨opened, ?_, session.holds.numbers, ?_⟩
    · intro row
      constructor
      · exact known row
      · rintro ⟨record, isRecord, rfl⟩
        exact (found record isRecord).mpr (saved record isRecord)
    · apply above
      by_contra unlinked
      apply some
      rw [session.log.stores.files, session.log.lost (Bool.not_eq_true _ ▸ unlinked)]
      rfl

end Restart

section Later

variable {codec : EntryCodec Record} {clock : RecordClock Record}

theorem Holds.answersThroughout (readsMetadata : ReadsMetadata Record) :
    ∀ {later : List (SessionCall Record)} {storage : OltpHybridStorage Record}
      {files : List (SSTableFile Record)} {records : List (ℕ × Record)},
      Holds clock storage files records → FlushesApart codec clock later storage →
      (∀ record ∈ records ++ (runSession codec clock later storage).1, record.1 < 2 ^ 64) →
      AnswersThroughout codec clock readsMetadata later records storage
  | [], _, _, _, holds, _, range => by
    rw [runSession, List.append_nil] at range
    exact holds.answersAll range readsMetadata
  | call :: later, storage, files, records, holds, ⟨apart, rest⟩, range => by
    rw [runSession, ← List.append_assoc] at range
    have now : AnswersAll clock readsMetadata storage records := by
      apply holds.answersAll _ readsMetadata
      intro record member
      exact range record (List.mem_append_left _ (List.mem_append_left _ member))
    refine ⟨now, ?_⟩
    cases call with
    | createCheckpoint =>
      rcases stepSession_createCheckpoint codec clock storage with ⟨wal, same, ran⟩
      rw [ran] at rest range ⊢
      rw [List.append_nil] at range ⊢
      have still : Holds clock (storage.checkpointed wal) files records := by
        refine ⟨⟨holds.opened.sstables, holds.opened.present, holds.opened.sound⟩,
          holds.complete, holds.numbers, ?_⟩
        intro record member
        exact (holds.below record member).trans_eq same.symm
      exact still.answersThroughout readsMetadata rest range
    | write call =>
      rw [stepSession] at rest range ⊢
      rcases stepWrite_cases codec clock call storage with ⟨writes, ran⟩ | ⟨_, count, ran⟩
      · rw [ran] at rest range ⊢
        have isStored := holds.store codec call
        by_cases full : (storage.stored codec clock call).memtable.shouldFlush = true
        · rw [settled, if_pos full] at rest range ⊢
          have fresh : ∀ file ∈ files, file.number ≠ storage.sstableCounter + 1 := by
            intro file member
            apply apart call rfl ⟨writes, full⟩ (RkyvSSTable.reads file)
            rw [holds.opened.sstables]
            exact List.mem_map_of_mem member
          exact (isStored.flush fresh).answersThroughout readsMetadata rest range
        · rw [settled, if_neg full] at rest range ⊢
          exact isStored.answersThroughout readsMetadata rest range
      · rw [ran] at rest range ⊢
        rw [List.append_nil] at range ⊢
        exact (holds.skip count).answersThroughout readsMetadata rest range

theorem AnswersAll.throughout {readsMetadata : ReadsMetadata Record} {records : List (ℕ × Record)} :
    ∀ {later : List (SessionCall Record)} {storage : OltpHybridStorage Record},
      AnswersAll clock readsMetadata storage records → (∀ call ∈ later, call.records = []) →
      AnswersThroughout codec clock readsMetadata later records storage
  | [], _, answers, _ => answers
  | call :: later, storage, answers, nothing => by
    have rest : ∀ other ∈ later, other.records = [] :=
      fun other member => nothing other (List.mem_cons_of_mem _ member)
    refine ⟨answers, ?_⟩
    cases call with
    | createCheckpoint =>
      rcases stepSession_createCheckpoint codec clock storage with ⟨wal, _, ran⟩
      rw [ran, List.append_nil]
      have same : AnswersAll clock readsMetadata (storage.checkpointed wal) records := answers
      exact same.throughout rest
    | write call =>
      have none : call.records = [] := nothing _ (List.mem_cons_self ..)
      rw [stepSession]
      rcases stepWrite_cases codec clock call storage with ⟨writes, _⟩ | ⟨_, count, ran⟩
      · exact absurd none writes.1
      · rw [ran, List.append_nil]
        have same : AnswersAll clock readsMetadata (storage.skipped count) records := answers
        exact same.throughout rest

end Later

theorem session_new {codec : EntryCodec Record} (roundTrip : codec.RoundTrip)
    {clock : RecordClock Record} {config : OltpHybridConfig} {seconds : ℤ}
    {storage : OltpHybridStorage Record}
    (isCreated : create codec clock config [] .empty .empty seconds = .ok storage) :
    Session codec clock storage ⟨[⟨1, seconds, []⟩], true⟩ [] [] := by
  have log := remains_new codec seconds
  rcases create_eq clock roundTrip log.stores config (.empty : SSTableFiles Record)
    .empty with ⟨memtable, isData, same⟩
  rw [same] at isCreated
  cases isCreated
  have empty : memtable.data.rows = [] := by
    rw [isData]
    rfl
  refine ⟨log, by simp [Layout.entries], by simp, ⟨⟨rfl, List.forall_mem_nil _,
    List.forall_mem_nil _⟩, ?_, List.nodup_nil, by simp⟩, ?_, ?_, by simp, rfl, ?_⟩
  · intro row
    rw [contents]
    change row ∈ memtable.data.rows ++ [] ↔ _
    rw [empty]
    simp
  · change ∀ row ∈ memtable.data.rows, _
    rw [empty]
    simp
  · intro file member
    cases member
  · intro checkpoint member
    cases member

/-- A storage without files, that flushes from four records on. -/
def largeStorage : OltpHybridStorage UInt8 :=
  created (WalManager.new referenceCodec [] 0) (.new ⟨1024, 256⟩) ⟨1024, 256⟩ .empty .empty

end QAExchange.OltpHybridStorage
