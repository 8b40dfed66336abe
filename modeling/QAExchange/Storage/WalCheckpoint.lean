import Mathlib.Data.List.Flatten
import QAExchange.Storage.WalOrder

/-! # Truncating the log

`checkpoint` judges a file by the number it was begun with. The entries of the
file come after that number, apart from those of the call that began it, and the
file may be the one that the manager appends to.
-/

namespace QAExchange.WalManager

open Foundation Action Framing Segment

variable {Record : Type}

/-- A checkpoint removes no file with an entry from `sequence` on and leaves the
file that the manager appends to, so that replay delivers what is appended later. -/
structure TruncatesSafely (codec : EntryCodec Record) (manager : WalManager) (sequence : ℕ) :
    Prop where
  succeeds : (exec (checkpoint sequence) manager).1 = .ok ()
  kept : ∀ file ∈ manager.files, ∀ entry ∈ (delivered codec [file]).2,
    sequence ≤ entry.sequence → file ∈ (exec (checkpoint sequence) manager).2.files
  live : (exec (checkpoint sequence) manager).2.currentFile = manager.currentFile
  later : ∀ (calls : List (WalCall Record)) (appended : List (ℕ × Record)) (last : WalManager),
    (∀ call ∈ calls, call.IsSync) →
    exec (performAll codec calls) (exec (checkpoint sequence) manager).2 = (.ok appended, last) →
    (delivered codec last.files).1 = .ok () ∧
      ∃ before, (delivered codec last.files).2.map WalEntry.numberedRecord = before ++ appended

/-- The sequence is not above the first number, or it lies between the first entry
of a file and the number that the file was begun with. -/
def AtBoundary (codec : EntryCodec Record) (manager : WalManager) (sequence : ℕ) : Prop :=
  sequence ≤ 1 ∨ ∃ file ∈ manager.files, ∃ first ∈ (delivered codec [file]).2.head?,
    first.sequence ≤ sequence ∧ sequence ≤ file.number

def removed (numbers : List ℕ) (manager : WalManager) : WalManager :=
  { manager with
    files := manager.files.filter fun file => file.number ∉ numbers
    currentFile := manager.currentFile.filter fun number => number ∉ numbers }

theorem removed_nil (manager : WalManager) : manager.removed [] = manager := by
  rcases manager with ⟨_, currentFile⟩
  cases currentFile <;> simp [removed]

theorem removed_removeFile (numbers : List ℕ) (number : ℕ) (manager : WalManager) :
    (removeFile number manager).removed numbers = manager.removed (number :: numbers) := by
  simp only [removed, removeFile, List.filter_filter, List.mem_cons, not_or, Bool.decide_and]
  congr 1
  · congr 1
    funext file
    exact Bool.and_comm _ _
  · cases current : manager.currentFile with
    | none => simp
    | some live =>
      by_cases same : live = number
      · simp [same, Option.filter]
      · simp [same, Option.filter]

theorem shouldTruncate_toFile {codec : EntryCodec Record} {segment : Segment Record}
    (range : segment.start < 2 ^ 64) (sequence : ℕ) :
    shouldTruncate (segment.toFile codec) sequence = .ok (segment.start < sequence) := by
  rcases segment.fromBytes_header with ⟨header, read, start⟩
  have long : ¬ (segment.toFile codec).bytes.length < 128 := by simp [toFile]
  have first : (segment.toFile codec).bytes.take 128 = segment.header :=
    List.take_left' segment.length_header
  simp only [shouldTruncate, if_neg long, first, read, start, Nat.mod_eq_of_lt range]

theorem exec_checkpoint {codec : EntryCodec Record} {manager : WalManager}
    {segments : List (Segment Record)} (files : manager.files = segments.map (toFile codec))
    (range : ∀ segment ∈ segments, segment.start < 2 ^ 64) (sequence : ℕ) :
    exec (checkpoint sequence) manager = (.ok (), manager.removed
      ((segments.map Segment.start).filter fun start => start < sequence)) := by
  rw [checkpoint, exec_bind, exec_read, files]
  simp only
  clear files
  induction segments generalizing manager with
  | nil => exact congrArg (Prod.mk (Except.ok ())) (removed_nil manager).symm
  | cons segment segments induction =>
    have rest := fun manager => @induction manager
      fun other member => range other (List.mem_cons_of_mem _ member)
    rw [List.map_cons, List.forM_cons, exec_bind, exec_bind, exec_result,
      shouldTruncate_toFile (range segment (by simp))]
    simp only
    by_cases old : segment.start < sequence
    · simp only [old, decide_true, exec_runIf_true, exec_update, rest]
      rw [removed_removeFile, List.map_cons, List.filter_cons_of_pos (by simpa using old)]
      rfl
    · simp only [old, decide_false, exec_runIf_false, rest]
      rw [List.map_cons, List.filter_cons_of_neg (by simpa using old)]

section Truncated

variable {codec : EntryCodec Record} {manager : WalManager} {layout : Layout Record}

theorem Stores.truncate (stores : Stores codec manager layout) (sequence : ℕ) :
    Stores codec
      (manager.removed ((layout.segments.map Segment.start).filter fun start => start < sequence))
      (layout.truncate sequence) := by
  have isRemoved : ∀ segment ∈ layout.segments,
      (segment.start ∉ (layout.segments.map Segment.start).filter fun start => start < sequence) ↔
        sequence ≤ segment.start := by
    intro segment member
    rw [List.mem_filter, not_and, decide_eq_true_iff, not_lt]
    constructor
    · intro outside
      exact outside (List.mem_map_of_mem member)
    · intro large _
      exact large
  refine ⟨?_, ?_, ?_, stores.sorted.filter _, ?_, ?_⟩
  · change manager.files.filter _ = _
    rw [stores.files, List.filter_map, Layout.truncate]
    congr 1
    apply List.filter_congr
    intro segment member
    exact decide_eq_decide.mpr (isRemoved segment member)
  · change manager.currentFile.filter _ = _
    cases linked : layout.linked with
    | false => simp [stores.currentFile, Layout.truncate, linked]
    | true =>
      rcases stores.live linked with ⟨init, last, isConcat, isLive, _⟩
      have lastKept := isRemoved last (by simp [isConcat])
      by_cases large : sequence ≤ last.start
      · rw [isLive, Option.filter_some, if_pos (decide_eq_true (lastKept.mpr large))]
        simp [Layout.truncate, linked, isConcat, large]
      · have inside : ¬ (decide (last.start ∉ (layout.segments.map Segment.start).filter
            fun start => start < sequence)) = true :=
          fun outside => large (lastKept.mp (of_decide_eq_true outside))
        rw [isLive, Option.filter_some, if_neg inside]
        simp [Layout.truncate, linked, isConcat, large]
  · intro linked
    simp only [Layout.truncate, Bool.and_eq_true, Option.any_eq_true] at linked ⊢
    rcases linked.2 with ⟨last, isLast, large⟩
    apply List.ne_nil_of_mem
    exact List.mem_filter.mpr ⟨List.mem_of_getLast? isLast, large⟩
  · intro segment member
    exact stores.bounded segment (List.mem_filter.mp member).1
  · intro segment member
    exact stores.stored segment (List.mem_filter.mp member).1

end Truncated

/-! ## Logs of `append` and `append_batch` -/

/-- The entries are numbered without gaps, and every file but the first begins
with entries. -/
structure Dense (layout : Layout Record) (next : ℕ) : Prop where
  numbers : layout.entries.map WalEntry.sequence = List.range' 1 (next - 1)
  positive : 1 ≤ next
  begun : ∃ first rest, layout.segments = first :: rest ∧ first.start = 1 ∧
    ∀ segment ∈ rest, segment.entries ≠ []

theorem Dense.append {codec : EntryCodec Record} {layout : Layout Record} {next : ℕ}
    (dense : Dense layout next) (rotates : Bool) (seconds : ℤ) {records : List (Stamped Record)}
    (some : records ≠ []) (linked : layout.linked = true) :
    Dense (layout.append rotates (next + records.length) seconds
      (WalEntry.numberedFrom codec next records)) (next + records.length) := by
  have positive := dense.positive
  rcases dense.begun with ⟨first, rest, isSegments, isFirst, filled⟩
  have nonempty : layout.segments ≠ [] := by simp [isSegments]
  have isNew : WalEntry.numberedFrom codec next records ≠ [] :=
    WalEntry.numberedFrom_ne_nil codec next some
  refine ⟨?_, by omega, ?_⟩
  · rw [Layout.entries_append linked nonempty, List.map_append, dense.numbers,
      WalEntry.sequence_numberedFrom]
    have joined := List.range'_append_1 (s := 1) (m := next - 1) (n := records.length)
    rw [show 1 + (next - 1) = next by omega] at joined
    rw [joined]
    congr 1
    omega
  · cases rotates with
    | true =>
      let begun : Segment Record := ⟨next + records.length, seconds, []⟩
      refine ⟨first, rest ++ [begun.add (WalEntry.numberedFrom codec next records)], ?_, isFirst,
        ?_⟩
      · simp only [Layout.append, Layout.rotate, Layout.write, if_true, isSegments]
        exact Layout.addToLast_concat _ (first :: rest) begun
      · intro segment member
        rcases List.mem_append.mp member with old | added
        · exact filled segment old
        · rw [List.mem_singleton.mp added]
          exact isNew
    | false =>
      rcases List.eq_nil_or_concat rest with rfl | ⟨init, last, isConcat⟩
      · refine ⟨first.add (WalEntry.numberedFrom codec next records), [], ?_, isFirst, by simp⟩
        simp only [Layout.append, Layout.write, linked, if_true, isSegments, Layout.addToLast]
      · have isConcat : rest = init ++ [last] := by simpa using isConcat
        refine ⟨first, init ++ [last.add (WalEntry.numberedFrom codec next records)], ?_, isFirst,
          ?_⟩
        · simp only [Layout.append, Layout.write, linked, if_true, isSegments, isConcat]
          exact Layout.addToLast_concat _ (first :: init) last
        · intro segment member
          rcases List.mem_append.mp member with old | added
          · exact filled segment (by simp [isConcat, old])
          · rw [List.mem_singleton.mp added]
            simp [isNew]

theorem dense_new (seconds : ℤ) : Dense (⟨[⟨1, seconds, []⟩], true⟩ : Layout Record) 1 where
  numbers := rfl
  positive := le_refl 1
  begun := ⟨⟨1, seconds, []⟩, [], rfl, rfl, by simp⟩

section Safe

variable {codec : EntryCodec Record} {manager : WalManager} {layout : Layout Record}
  {appended : List (ℕ × Record)}

theorem Ordered.entries_lt (ordered : Ordered codec manager layout [] appended)
    {earlier later : Segment Record} (isEarlier : earlier ∈ layout.segments)
    (isLater : later ∈ layout.segments) (begun : earlier.start < later.start)
    {early late : WalEntry Record} (isEarly : early ∈ earlier.entries)
    (isLate : late ∈ later.entries) : early.sequence < late.sequence := by
  have increasing := ordered.increasing
  have sorted := ordered.stores.sorted
  rcases List.append_of_mem isLater with ⟨before, behind, split⟩
  rw [List.append_nil, List.pairwise_map, Layout.entries, List.pairwise_flatMap, split] at increasing
  rw [split, List.pairwise_append, List.pairwise_cons] at sorted
  rw [split, List.mem_append, List.mem_cons] at isEarlier
  have across := (List.pairwise_append.mp increasing.2).2.2
  rcases isEarlier with inside | rfl | inside
  · exact across earlier inside later (by simp) early isEarly late isLate
  · exact absurd begun (lt_irrefl _)
  · exact absurd (sorted.2.1.1 earlier inside) (not_lt.mpr begun.le)

theorem Ordered.truncate (ordered : Ordered codec manager layout [] appended) (sequence : ℕ)
    (live : (layout.truncate sequence).linked = true) :
    Ordered codec
      (manager.removed ((layout.segments.map Segment.start).filter fun start => start < sequence))
      (layout.truncate sequence) []
      ((layout.truncate sequence).entries.map WalEntry.numberedRecord) := by
  have kept : (layout.truncate sequence).entries.Sublist layout.entries :=
    List.Sublist.flatMap List.filter_sublist _
  have increasing := ordered.increasing
  rw [List.append_nil] at increasing
  refine ⟨ordered.stores.truncate sequence, live, ordered.buffered, by simp, ?_, ?_, by simp, ?_⟩
  · rw [List.append_nil]
    exact increasing.sublist (kept.map _)
  · intro entry member
    rw [List.append_nil] at member
    exact ordered.below entry (List.mem_append_left _ (kept.subset member))
  · rw [List.append_nil]

end Safe

/-- The entry behind the entries of some files has the number that comes after
theirs. -/
theorem Dense.next_le {layout : Layout Record} {next sequence : ℕ} (dense : Dense layout next)
    {before behind : List (WalEntry Record)} {first : WalEntry Record}
    (split : layout.entries = before ++ first :: behind)
    (smaller : ∀ entry ∈ before, entry.sequence < sequence) (positive : 1 ≤ sequence) :
    first.sequence ≤ sequence := by
  have numbers := dense.numbers
  rw [split] at numbers
  have number : ∀ index entry, (before ++ first :: behind)[index]? = some entry →
      entry.sequence = 1 + index := by
    intro index entry found
    have same := congrArg (fun list => list[index]?) numbers
    simp only [List.getElem?_map, found, Option.map_some] at same
    rcases List.getElem?_eq_some_iff.mp same.symm with ⟨inside, isNumber⟩
    simpa using isNumber.symm
  have isFirst := number before.length first (by simp)
  rcases List.eq_nil_or_concat before with rfl | ⟨init, last, isConcat⟩
  · simp only [List.length_nil] at isFirst
    omega
  · have isConcat : before = init ++ [last] := by simpa using isConcat
    have isLast := number init.length last (by simp [isConcat])
    have bound := smaller last (by simp [isConcat])
    have length : before.length = init.length + 1 := by simp [isConcat]
    omega

/-- For a log of `append` and `append_batch` calls a checkpoint is safe if and only
if its sequence is at a boundary between two files. The numbers are those of a
`u64`. -/
theorem truncates_safely_iff {codec : EntryCodec Record} (roundTrip : codec.RoundTrip)
    (config : GroupCommitConfig) (seconds : ℤ) {calls : List (WalCall Record)}
    (sync : ∀ call ∈ calls, call.IsSync) {appended : List (ℕ × Record)} {manager : WalManager}
    (ran : exec (performAll codec calls) (withConfig codec [] seconds config) =
      (.ok appended, manager)) (range : manager.currentSequence < 2 ^ 64) (sequence : ℕ) :
    TruncatesSafely codec manager sequence ↔ AtBoundary codec manager sequence := by
  rcases (ordered_new codec seconds config).performAll_sync Dense
    (fun _ _ rotates seconds _ some linked _ dense => dense.append rotates seconds some linked)
    sync (dense_new seconds) ran with ⟨layout, ordered, dense⟩
  have files := ordered.stores.files
  have read : ∀ segment ∈ layout.segments,
      (delivered codec [segment.toFile codec]).2 = segment.entries := by
    intro segment member
    have isStored : ∀ other ∈ [segment], ∀ entry ∈ other.entries, entry.Stored codec := by
      intro other isOne
      rw [List.mem_singleton.mp isOne]
      exact ordered.stores.stored segment member
    have one := delivered_segments roundTrip isStored
    simpa using congrArg Prod.snd one
  have checked := exec_checkpoint files (fun segment member =>
    (ordered.stores.bounded segment member).trans_lt range) sequence
  have keptFiles : (exec (checkpoint sequence) manager).2.files =
      ((layout.segments.filter fun segment => sequence ≤ segment.start)).map (toFile codec) := by
    rw [checked]
    exact (ordered.stores.truncate sequence).files
  rcases ordered.stores.live ordered.linked with ⟨init, last, isConcat, isLive, older⟩
  constructor
  · intro safe
    by_cases small : sequence ≤ 1
    · exact .inl small
    · right
      -- the live file is kept, so some file was begun at or above the sequence
      have large : sequence ≤ last.start := by
        have live := safe.live
        rw [checked, isLive] at live
        have stays := (ordered.stores.truncate sequence).currentFile
        rw [show (manager.removed _).currentFile = some last.start from live] at stays
        simp only [Layout.truncate, isConcat, List.getLast?_concat, Option.any_some] at stays
        by_contra beyond
        simp [beyond] at stays
      have found : (layout.segments.find? fun segment => sequence ≤ segment.start).isSome = true :=
        List.find?_isSome.mpr ⟨last, by simp [isConcat], decide_eq_true large⟩
      rcases Option.isSome_iff_exists.mp found with ⟨file, isFile⟩
      rcases List.find?_eq_some_iff_append.mp isFile with ⟨bound, before, behind, split, earlier⟩
      have bound := of_decide_eq_true bound
      have inFiles : file ∈ layout.segments := by simp [split]
      have filled : file.entries ≠ [] := by
        rcases dense.begun with ⟨head, rest, isSegments, isOne, filled⟩
        rw [isSegments, List.mem_cons] at inFiles
        rcases inFiles with rfl | inside
        · omega
        · exact filled file inside
      rcases List.exists_cons_of_ne_nil filled with ⟨first, others, isCons⟩
      refine ⟨file.toFile codec, ?_, first, ?_, ?_, bound⟩
      · rw [files]
        exact List.mem_map_of_mem inFiles
      · rw [read file inFiles, isCons]
        rfl
      · have contents : layout.entries = before.flatMap Segment.entries ++
            first :: (others ++ behind.flatMap Segment.entries) := by
          simp [Layout.entries, split, isCons]
        refine dense.next_le contents ?_ (by omega)
        intro entry isEntry
        rcases List.mem_flatMap.mp isEntry with ⟨segment, inBefore, inSegment⟩
        have begun : segment.start < sequence := by
          simpa using earlier segment inBefore
        have member : segment ∈ layout.segments := by simp [split, inBefore]
        by_contra beyond
        have stays := safe.kept (segment.toFile codec) (files ▸ List.mem_map_of_mem member) entry
          (by rwa [read segment member]) (not_lt.mp beyond)
        rw [keptFiles] at stays
        rcases List.mem_map.mp stays with ⟨other, isOther, same⟩
        have sameStart : other.start = segment.start := congrArg WalFile.number same
        have notBegun := of_decide_eq_true (List.mem_filter.mp isOther).2
        omega
  · intro boundary
    -- a file that was begun below the sequence has only smaller entries
    have below : ∀ segment ∈ layout.segments, segment.start < sequence →
        ∀ entry ∈ segment.entries, entry.sequence < sequence := by
      intro segment member begun entry isEntry
      rcases boundary with small | ⟨file, isFile, first, isFirst, started, bound⟩
      · rcases dense.begun with ⟨head, rest, isSegments, isOne, _⟩
        have least : 1 ≤ segment.start := by
          have sorted := ordered.stores.sorted
          rw [isSegments, List.pairwise_cons] at sorted
          rw [isSegments, List.mem_cons] at member
          rcases member with rfl | inside
          · exact isOne.ge
          · exact isOne ▸ (sorted.1 segment inside).le
        omega
      · rw [files] at isFile
        rcases List.mem_map.mp isFile with ⟨other, isOther, rfl⟩
        rw [read other isOther] at isFirst
        have smaller := ordered.entries_lt member isOther (begun.trans_le bound) isEntry
          (List.mem_of_head? isFirst)
        omega
    have large : sequence ≤ last.start := by
      rcases boundary with small | ⟨file, isFile, _, _, _, bound⟩
      · rcases dense.begun with ⟨head, rest, isSegments, isOne, _⟩
        have isLast : last ∈ head :: rest := by simp [← isSegments, isConcat]
        have sorted := ordered.stores.sorted
        rw [isSegments, List.pairwise_cons] at sorted
        rcases List.mem_cons.mp isLast with rfl | inside
        · omega
        · have begun := sorted.1 last inside
          omega
      · rw [files] at isFile
        rcases List.mem_map.mp isFile with ⟨other, isOther, rfl⟩
        rw [isConcat] at isOther
        rcases List.mem_append.mp isOther with inside | isLast
        · exact bound.trans (older other inside).le
        · rw [← List.mem_singleton.mp isLast]
          exact bound
    have linked : (layout.truncate sequence).linked = true := by
      simp [Layout.truncate, ordered.linked, isConcat, large]
    have truncated := ordered.truncate sequence linked
    refine ⟨by rw [checked], ?_, ?_, ?_⟩
    · intro file isFile entry isEntry beyond
      rw [files] at isFile
      rcases List.mem_map.mp isFile with ⟨segment, member, rfl⟩
      rw [read segment member] at isEntry
      rw [keptFiles]
      apply List.mem_map_of_mem
      apply List.mem_filter.mpr
      refine ⟨member, decide_eq_true ?_⟩
      by_contra begun
      have smaller := below segment member (not_le.mp begun) entry isEntry
      omega
    · rw [checked, isLive]
      change (manager.removed _).currentFile = _
      rw [truncated.stores.currentFile, if_pos linked]
      simp [Layout.truncate, isConcat, large]
    · intro calls appended final sync ran
      rw [checked] at ran
      rcases truncated.performAll_sync (fun _ _ => True)
        (fun _ _ _ _ _ _ _ _ _ => trivial) sync trivial ran with ⟨last', after, _⟩
      have same := after.appended_eq
      rw [List.append_nil] at same
      rw [after.stores.delivered_eq roundTrip, ← same]
      exact ⟨rfl, _, rfl⟩

def twoRecords : List (WalCall UInt8) := [.append 0 ⟨0, 5⟩, .append 0 ⟨0, 7⟩]

/-- The manager after the two records. -/
def afterTwoRecords : WalManager :=
  (exec (performAll referenceCodec twoRecords) (withConfig referenceCodec [] 0 .default)).2

theorem afterTwoRecords_safe_below : TruncatesSafely referenceCodec afterTwoRecords 1 := by
  have succeeded : (exec (performAll referenceCodec twoRecords)
      (withConfig referenceCodec [] 0 .default)).1 = .ok [(1, 5), (2, 7)] := by decide +kernel
  have sync : ∀ call ∈ twoRecords, call.IsSync := by
    intro call member
    rcases List.mem_cons.mp member with rfl | member
    · trivial
    · rw [List.mem_singleton.mp member]
      trivial
  have ran : exec (performAll referenceCodec twoRecords)
      (withConfig referenceCodec [] 0 .default) = (.ok [(1, 5), (2, 7)], afterTwoRecords) :=
    exec_eq_of_outcome succeeded
  have range : afterTwoRecords.currentSequence < 2 ^ 64 := by decide +kernel
  have boundary : AtBoundary referenceCodec afterTwoRecords 1 := .inl (le_refl 1)
  exact (truncates_safely_iff ReferenceCodec.roundTrip .default 0 sync ran range 1).mpr boundary

/-- A checkpoint at the second record removes the only file, and a record that is
appended then is not found again. -/
theorem afterTwoRecords_not_safe_at_second :
    let after := (exec (checkpoint 2) afterTwoRecords).2
    let ran := exec (performAll referenceCodec [.append 0 ⟨0, 9⟩]) after
    after.files = [] ∧ after.currentFile = none ∧ ran.1 = .ok [(3, 9)] ∧
      (delivered referenceCodec ran.2.files).2 = [] ∧
      ¬ TruncatesSafely referenceCodec afterTwoRecords 2 := by
  have lost : (exec (checkpoint 2) afterTwoRecords).2.currentFile = none := by decide +kernel
  have live : afterTwoRecords.currentFile = some 1 := by decide +kernel
  refine ⟨by decide +kernel, lost, by decide +kernel, by decide +kernel, ?_⟩
  intro safe
  have same := safe.live
  rw [lost, live] at same
  cases same

end QAExchange.WalManager
