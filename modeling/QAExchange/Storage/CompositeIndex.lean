import QAExchange.Storage.QueryFilter
import QAExchange.Storage.TimeSeriesIndex

/-! # The composite index

Every entry goes into the time index and the index of its type, and into that of its
instrument if it has one. A query takes one of these, and filters by type what the
instrument gives.
-/

namespace QAExchange

/-- What `add_entry` gets. -/
structure IndexEntry where
  timestamp : ℤ
  instrumentId : Option String
  recordType : RecordType
  offset : ℕ

abbrev InstrumentData := TimeSeriesIndex

structure InstrumentIndex where
  instruments : String → Option InstrumentData

namespace InstrumentIndex

def new : InstrumentIndex where
  instruments _ := none

def add (instrumentId : String) (timestamp : ℤ) (offset : ℕ) (index : InstrumentIndex) :
    InstrumentIndex where
  instruments :=
    Function.update index.instruments instrumentId
      (some (((index.instruments instrumentId).getD TimeSeriesIndex.new).add timestamp offset))

def queryRange (instrumentId : String) (startTs endTs : ℤ) (index : InstrumentIndex) :
    Option (List ℕ) :=
  match index.instruments instrumentId with
  | some data => data.queryRange startTs endTs
  | none => some []

end InstrumentIndex

/-! ## By type -/

structure TypeData extends TimeSeriesIndex where
  offsetSet : List ℕ

namespace TypeData

def new : TypeData where
  toTimeSeriesIndex := TimeSeriesIndex.new
  offsetSet := []

def add (timestamp : ℤ) (offset : ℕ) (data : TypeData) : TypeData where
  toTimeSeriesIndex := data.toTimeSeriesIndex.add timestamp offset
  offsetSet := data.offsetSet.insert offset

def containsOffset (offset : ℕ) (data : TypeData) : Bool :=
  data.offsetSet.contains offset

end TypeData

def RecordType.all : List RecordType :=
  [.AccountOpen, .AccountUpdate, .UserRegister, .AccountBind, .UserRoleUpdate, .OrderInsert,
    .TradeExecuted, .TickData, .OrderBookSnapshot, .OrderBookDelta, .KLineFinished,
    .ExchangeOrderRecord, .ExchangeTradeRecord, .ExchangeResponseRecord, .FactorUpdate,
    .FactorSnapshot, .OrderStatusUpdate, .PositionSnapshot, .AccountSnapshot, .Checkpoint]

theorem RecordType.mem_all (recordType : RecordType) : recordType ∈ all := by
  cases recordType <;> decide

theorem RecordType.all_nodup : all.Nodup := by
  decide

structure RecordTypeIndex where
  types : RecordType → Option TypeData

namespace RecordTypeIndex

def new : RecordTypeIndex where
  types _ := none

def add (recordType : RecordType) (timestamp : ℤ) (offset : ℕ) (index : RecordTypeIndex) :
    RecordTypeIndex where
  types :=
    Function.update index.types recordType
      (some (((index.types recordType).getD TypeData.new).add timestamp offset))

/-- What the types have in a range, one after the other. -/
def extendOver (startTs endTs : ℤ) (types : RecordTypeSet) (index : RecordTypeIndex) :
    List RecordType → Option (List ℕ)
  | [] => some []
  | recordType :: others =>
    match index.types recordType with
    | some data =>
      if types.contains recordType then
        (data.queryRange startTs endTs).bind fun offsets =>
          (extendOver startTs endTs types index others).map (offsets ++ ·)
      else extendOver startTs endTs types index others
    | none => extendOver startTs endTs types index others

/-- The order in which the map has its types is lost by the sort. -/
def queryRangeForTypes (startTs endTs : ℤ) (types : RecordTypeSet) (index : RecordTypeIndex) :
    Option (List ℕ) :=
  (extendOver startTs endTs types index RecordType.all).map (List.insertionSort (· ≤ ·))

def containsOffsetInTypes (offset : ℕ) (types : RecordTypeSet) (index : RecordTypeIndex) : Bool :=
  RecordType.all.any fun recordType =>
    (index.types recordType).any fun data =>
      types.contains recordType && data.containsOffset offset

end RecordTypeIndex

structure CompositeIndexManager where
  instrumentIndex : InstrumentIndex
  recordTypeIndex : RecordTypeIndex
  timeIndex : TimeSeriesIndex

namespace CompositeIndexManager

def new : CompositeIndexManager where
  instrumentIndex := .new
  recordTypeIndex := .new
  timeIndex := .new

def addEntry (entry : IndexEntry) (manager : CompositeIndexManager) : CompositeIndexManager where
  instrumentIndex :=
    match entry.instrumentId with
    | some instrument =>
      manager.instrumentIndex.add instrument entry.timestamp entry.offset
    | none => manager.instrumentIndex
  recordTypeIndex :=
    manager.recordTypeIndex.add entry.recordType entry.timestamp entry.offset
  timeIndex := manager.timeIndex.add entry.timestamp entry.offset

def queryOffsets (startTs endTs : ℤ) (instrumentId : Option String)
    (recordTypes : Option RecordTypeSet) (manager : CompositeIndexManager) : Option (List ℕ) :=
  match instrumentId, recordTypes with
  | some instrument, some types =>
    (manager.instrumentIndex.queryRange instrument startTs endTs).map
      (List.filter fun offset => manager.recordTypeIndex.containsOffsetInTypes offset types)
  | some instrument, none => manager.instrumentIndex.queryRange instrument startTs endTs
  | none, some types => manager.recordTypeIndex.queryRangeForTypes startTs endTs types
  | none, none => manager.timeIndex.queryRange startTs endTs

/-- The manager after some entries. -/
def ofEntries (entries : List IndexEntry) : CompositeIndexManager :=
  entries.foldl (fun manager entry => manager.addEntry entry) new

end CompositeIndexManager

namespace IndexEntry

def timed (entry : IndexEntry) : TimedOffset :=
  (entry.timestamp, entry.offset)

def Wanted (startTs endTs : ℤ) (instrumentId : Option String)
    (recordTypes : Option RecordTypeSet) (entry : IndexEntry) : Prop :=
  startTs ≤ entry.timestamp ∧ entry.timestamp ≤ endTs ∧
    (∀ instrument ∈ instrumentId, entry.instrumentId = some instrument) ∧
      ∀ types ∈ recordTypes, types.contains entry.recordType = true

def ofInstrument (instrument : String) (entries : List IndexEntry) : List IndexEntry :=
  entries.filter fun entry => entry.instrumentId = some instrument

def ofType (recordType : RecordType) (entries : List IndexEntry) : List IndexEntry :=
  entries.filter fun entry => entry.recordType = recordType

end IndexEntry

namespace CompositeIndexManager

open IndexEntry

def Answers (startTs endTs : ℤ) (instrumentId : Option String)
    (recordTypes : Option RecordTypeSet) (entries : List IndexEntry) : Prop :=
  ∃ result, (ofEntries entries).queryOffsets startTs endTs instrumentId recordTypes = some result ∧
    result.Nodup ∧ ∀ offset, offset ∈ result ↔
      ∃ entry ∈ entries, entry.Wanted startTs endTs instrumentId recordTypes ∧
        entry.offset = offset

/-- The groups in which a query looks for the range. -/
def searched (instrumentId : Option String) (recordTypes : Option RecordTypeSet)
    (entries : List IndexEntry) : List (List IndexEntry) :=
  match instrumentId, recordTypes with
  | some instrument, _ => [ofInstrument instrument entries]
  | none, some types =>
    (RecordType.all.filter types.contains).map fun recordType => ofType recordType entries
  | none, none => [entries]

theorem ofEntries_append_singleton (entries : List IndexEntry) (entry : IndexEntry) :
    ofEntries (entries ++ [entry]) = (ofEntries entries).addEntry entry := by
  rw [ofEntries, List.foldl_append]
  rfl

theorem timeIndex_ofEntries (entries : List IndexEntry) :
    (ofEntries entries).timeIndex = TimeSeriesIndex.of (entries.map timed) := by
  induction entries using List.reverseRecOn with
  | nil => rfl
  | append_singleton entries entry induction =>
    rw [ofEntries_append_singleton, List.map_append, addEntry, induction]
    exact (TimeSeriesIndex.of_append_singleton _ _ _).symm

theorem instruments_ofEntries (instrument : String) (entries : List IndexEntry) :
    ((ofEntries entries).instrumentIndex.instruments instrument).getD TimeSeriesIndex.new =
      TimeSeriesIndex.of ((ofInstrument instrument entries).map timed) := by
  induction entries using List.reverseRecOn with
  | nil => rfl
  | append_singleton entries entry induction =>
    rw [ofEntries_append_singleton, addEntry, ofInstrument, List.filter_append]
    cases isNamed : entry.instrumentId with
    | none =>
      rw [List.filter_cons_of_neg (by simp [isNamed]), List.filter_nil, List.append_nil]
      exact induction
    | some name =>
      dsimp only [InstrumentIndex.add]
      by_cases same : name = instrument
      · subst same
        rw [Function.update_self, List.filter_cons_of_pos (by simp [isNamed]), List.filter_nil,
          List.map_append, Option.getD_some, induction]
        exact (TimeSeriesIndex.of_append_singleton _ _ _).symm
      · rw [Function.update_of_ne fun equal => same equal.symm,
          List.filter_cons_of_neg (by simpa [isNamed] using same), List.filter_nil,
          List.append_nil]
        exact induction

theorem types_ofEntries (recordType : RecordType) (entries : List IndexEntry) :
    (((ofEntries entries).recordTypeIndex.types recordType).getD TypeData.new).toTimeSeriesIndex =
        TimeSeriesIndex.of ((ofType recordType entries).map timed) ∧
      ∀ offset, offset ∈
          (((ofEntries entries).recordTypeIndex.types recordType).getD TypeData.new).offsetSet ↔
        ∃ entry ∈ ofType recordType entries, entry.offset = offset := by
  induction entries using List.reverseRecOn with
  | nil => exact ⟨rfl, by simp [ofEntries, new, RecordTypeIndex.new, TypeData.new, ofType]⟩
  | append_singleton entries entry induction =>
    rw [ofEntries_append_singleton, addEntry, ofType, List.filter_append]
    dsimp only [RecordTypeIndex.add]
    by_cases same : entry.recordType = recordType
    · subst same
      rw [Function.update_self, List.filter_cons_of_pos (by simp), List.filter_nil,
        List.map_append, Option.getD_some]
      dsimp only [TypeData.add]
      rw [induction.1]
      apply And.intro (TimeSeriesIndex.of_append_singleton _ _ _).symm
      intro offset
      rw [List.mem_insert_iff, induction.2 offset]
      constructor
      · intro stored
        cases stored with
        | inl isNew => exact ⟨entry, by simp, isNew.symm⟩
        | inr old =>
          obtain ⟨other, member, isOffset⟩ := old
          exact ⟨other, List.mem_append_left _ member, isOffset⟩
      · intro added
        obtain ⟨other, member, isOffset⟩ := added
        cases List.mem_append.mp member with
        | inl old => exact Or.inr ⟨other, old, isOffset⟩
        | inr isNew =>
          rw [List.mem_singleton.mp isNew] at isOffset
          exact Or.inl isOffset.symm
    · rw [Function.update_of_ne fun equal => same equal.symm,
        List.filter_cons_of_neg (by simpa using same), List.filter_nil, List.append_nil]
      exact induction

variable {entries : List IndexEntry}

theorem types_eq_none {recordType : RecordType}
    (absent : (ofEntries entries).recordTypeIndex.types recordType = none) (offset : ℕ) :
    ¬∃ entry ∈ ofType recordType entries, entry.offset = offset := by
  have stored := (types_ofEntries recordType entries).2 offset
  rw [absent] at stored
  exact fun added => List.not_mem_nil (stored.mpr added)

theorem containsOffsetInTypes_ofEntries (offset : ℕ) (types : RecordTypeSet)
    (entries : List IndexEntry) :
    (ofEntries entries).recordTypeIndex.containsOffsetInTypes offset types = true ↔
      ∃ entry ∈ entries, types.contains entry.recordType = true ∧ entry.offset = offset := by
  rw [RecordTypeIndex.containsOffsetInTypes, List.any_eq_true]
  constructor
  · intro contained
    obtain ⟨recordType, -, isStored⟩ := contained
    have stored := (types_ofEntries recordType entries).2 offset
    cases isData : (ofEntries entries).recordTypeIndex.types recordType with
    | none =>
      rw [isData] at isStored
      cases isStored
    | some data =>
      rw [isData, Option.any_some, Bool.and_eq_true] at isStored
      rw [isData, Option.getD_some] at stored
      obtain ⟨entry, member, isOffset⟩ := stored.mp (List.contains_iff_mem.mp isStored.2)
      have parts := List.mem_filter.mp member
      have isType := of_decide_eq_true parts.2
      exact ⟨entry, parts.1, isType ▸ isStored.1, isOffset⟩
  · intro added
    obtain ⟨entry, member, inTypes, isOffset⟩ := added
    have inType : ∃ other ∈ ofType entry.recordType entries, other.offset = offset :=
      ⟨entry, List.mem_filter.mpr ⟨member, decide_eq_true rfl⟩, isOffset⟩
    have stored := (types_ofEntries entry.recordType entries).2 offset
    apply Exists.intro entry.recordType
    apply And.intro (RecordType.mem_all _)
    cases isData : (ofEntries entries).recordTypeIndex.types entry.recordType with
    | none => exact absurd inType (types_eq_none isData offset)
    | some data =>
      rw [isData, Option.getD_some] at stored
      rw [Option.any_some, Bool.and_eq_true]
      exact ⟨inTypes, List.contains_iff_mem.mpr (stored.mpr inType)⟩

/-! ## The paths of a query -/

def offsetsIn (startTs endTs : ℤ) (group : List IndexEntry) : List ℕ :=
  (group.filter fun entry => startTs ≤ entry.timestamp ∧ entry.timestamp ≤ endTs).map
    IndexEntry.offset

abbrev Straddles (startTs endTs : ℤ) (group : List IndexEntry) : Prop :=
  TimeSeriesIndex.Crosses startTs endTs (group.map timed)

theorem inRange_map_timed (startTs endTs : ℤ) (group : List IndexEntry) :
    (TimeSeriesIndex.inRange startTs endTs (group.map timed)).map Prod.snd =
      offsetsIn startTs endTs group := by
  rw [TimeSeriesIndex.inRange, List.filter_map, List.map_map]
  rfl

variable {startTs endTs : ℤ} {group : List IndexEntry}

theorem mem_offsetsIn {offset : ℕ} :
    offset ∈ offsetsIn startTs endTs group ↔
      ∃ entry ∈ group, startTs ≤ entry.timestamp ∧ entry.timestamp ≤ endTs ∧
        entry.offset = offset := by
  simp only [offsetsIn, List.mem_map, List.mem_filter, decide_eq_true_eq, and_assoc]

theorem offsetsIn_nodup (distinct : (group.map IndexEntry.offset).Nodup) :
    (offsetsIn startTs endTs group).Nodup :=
  distinct.sublist (List.filter_sublist.map _)

theorem queryRange_of_straddles (straddles : Straddles startTs endTs group) :
    (TimeSeriesIndex.of (group.map timed)).queryRange startTs endTs = none := by
  have result := (TimeSeriesIndex.holds_of (group.map timed)).queryRange startTs endTs
  rwa [if_pos straddles] at result

theorem queryRange_of_apart (apart : ¬Straddles startTs endTs group) :
    ∃ result, (TimeSeriesIndex.of (group.map timed)).queryRange startTs endTs = some result ∧
      result.Perm (offsetsIn startTs endTs group) := by
  have result := (TimeSeriesIndex.holds_of (group.map timed)).queryRange startTs endTs
  rwa [if_neg apart, inRange_map_timed] at result

theorem instrument_queryRange (instrument : String) (startTs endTs : ℤ)
    (entries : List IndexEntry) :
    (ofEntries entries).instrumentIndex.queryRange instrument startTs endTs =
      (TimeSeriesIndex.of ((ofInstrument instrument entries).map timed)).queryRange
        startTs endTs := by
  rw [← instruments_ofEntries, InstrumentIndex.queryRange]
  cases (ofEntries entries).instrumentIndex.instruments instrument with
  | none => exact (TimeSeriesIndex.queryRange_new startTs endTs).symm
  | some data => rfl

theorem extendOver_cons (startTs endTs : ℤ) (types : RecordTypeSet) (entries : List IndexEntry)
    (recordType : RecordType) (others : List RecordType) :
    RecordTypeIndex.extendOver startTs endTs types (ofEntries entries).recordTypeIndex
        (recordType :: others) =
      if types.contains recordType then
        ((TimeSeriesIndex.of ((ofType recordType entries).map timed)).queryRange
          startTs endTs).bind fun offsets => (RecordTypeIndex.extendOver startTs endTs types
              (ofEntries entries).recordTypeIndex others).map (offsets ++ ·)
      else RecordTypeIndex.extendOver startTs endTs types
        (ofEntries entries).recordTypeIndex others := by
  rw [← (types_ofEntries recordType entries).1, RecordTypeIndex.extendOver]
  cases (ofEntries entries).recordTypeIndex.types recordType with
  | some data => rfl
  | none =>
    have nothing := TimeSeriesIndex.queryRange_new startTs endTs
    rw [Option.getD_none, TypeData.new, nothing, Option.bind_some]
    split_ifs
    · cases RecordTypeIndex.extendOver startTs endTs types
        (ofEntries entries).recordTypeIndex others <;> rfl
    · rfl

variable {order : List RecordType}

theorem extendOver_of_straddles {types : RecordTypeSet}
    (straddles : ∃ recordType ∈ order.filter types.contains,
      Straddles startTs endTs (ofType recordType entries)) :
    RecordTypeIndex.extendOver startTs endTs types (ofEntries entries).recordTypeIndex order =
      none := by
  induction order with
  | nil =>
    obtain ⟨_, member, _⟩ := straddles
    cases member
  | cons recordType others induction =>
    rw [extendOver_cons]
    obtain ⟨straddling, member, crosses⟩ := straddles
    by_cases inTypes : types.contains recordType = true
    · rw [List.filter_cons_of_pos (p := fun recordType => types.contains recordType) inTypes]
        at member
      rw [if_pos inTypes]
      cases List.mem_cons.mp member with
      | inl same =>
        rw [← same, queryRange_of_straddles crosses]
        rfl
      | inr later =>
        rw [induction ⟨straddling, later, crosses⟩]
        cases (TimeSeriesIndex.of ((ofType recordType entries).map timed)).queryRange
          startTs endTs <;> rfl
    · rw [List.filter_cons_of_neg (p := fun recordType => types.contains recordType) inTypes]
        at member
      rw [if_neg inTypes]
      exact induction ⟨straddling, member, crosses⟩

theorem extendOver_of_apart {types : RecordTypeSet}
    (apart : ∀ recordType ∈ order.filter types.contains,
      ¬Straddles startTs endTs (ofType recordType entries)) :
    ∃ result, RecordTypeIndex.extendOver startTs endTs types
        (ofEntries entries).recordTypeIndex order = some result ∧
      result.Perm ((order.filter types.contains).flatMap fun recordType =>
        offsetsIn startTs endTs (ofType recordType entries)) := by
  induction order with
  | nil => exact ⟨[], rfl, List.Perm.refl _⟩
  | cons recordType others induction =>
    rw [extendOver_cons]
    by_cases inTypes : types.contains recordType = true
    · rw [List.filter_cons_of_pos (p := fun recordType => types.contains recordType) inTypes]
        at apart ⊢
      rw [if_pos inTypes, List.flatMap_cons]
      obtain ⟨rest, isRest, isPerm⟩ := induction fun other member =>
        apart other (List.mem_cons_of_mem _ member)
      obtain ⟨offsets, isOffsets, same⟩ := queryRange_of_apart (apart recordType List.mem_cons_self)
      rw [isRest, isOffsets]
      exact ⟨offsets ++ rest, rfl, same.append isPerm⟩
    · rw [List.filter_cons_of_neg (p := fun recordType => types.contains recordType) inTypes]
        at apart ⊢
      rw [if_neg inTypes]
      exact induction apart

theorem offsetsOfTypes_nodup (distinct : (entries.map IndexEntry.offset).Nodup)
    (once : order.Nodup) : (order.flatMap fun recordType =>
      offsetsIn startTs endTs (ofType recordType entries)).Nodup := by
  rw [List.nodup_flatMap]
  constructor
  · intro recordType _
    exact offsetsIn_nodup (distinct.sublist (List.filter_sublist.map _))
  · apply once.imp
    intro left right different offset inLeft inRight
    obtain ⟨entry, member, -, -, isOffset⟩ := mem_offsetsIn.mp inLeft
    obtain ⟨other, isMember, -, -, isAlso⟩ := mem_offsetsIn.mp inRight
    have entryParts := List.mem_filter.mp member
    have otherParts := List.mem_filter.mp isMember
    have same : entry = other :=
      List.inj_on_of_nodup_map distinct entryParts.1 otherParts.1 (isOffset.trans isAlso.symm)
    have isLeft := of_decide_eq_true entryParts.2
    have isRight := of_decide_eq_true otherParts.2
    exact different (isLeft.symm.trans (same ▸ isRight))

/-! ## A query and the plain filter -/

section Paths

variable {startTs endTs : ℤ} {entries : List IndexEntry}

/-- A query that panics where `crosses` holds and gives what is expected where it does not. -/
theorem answers_iff_not {instrumentId : Option String} {recordTypes : Option RecordTypeSet}
    {crosses : Prop} (expected : List ℕ) (panics : crosses →
      (ofEntries entries).queryOffsets startTs endTs instrumentId recordTypes = none)
    (gives : ¬crosses → ∃ result,
      (ofEntries entries).queryOffsets startTs endTs instrumentId recordTypes = some result ∧
        result.Perm expected) (once : expected.Nodup) (members : ∀ offset, offset ∈ expected ↔
      ∃ entry ∈ entries, entry.Wanted startTs endTs instrumentId recordTypes ∧
        entry.offset = offset) :
    Answers startTs endTs instrumentId recordTypes entries ↔ ¬crosses := by
  constructor
  · intro answers isCrossed
    obtain ⟨result, isResult, -⟩ := answers
    rw [panics isCrossed] at isResult
    cases isResult
  · intro apart
    obtain ⟨result, isResult, isPerm⟩ := gives apart
    apply Exists.intro result
    apply And.intro isResult
    apply And.intro (isPerm.nodup_iff.mpr once)
    intro offset
    rw [isPerm.mem_iff]
    exact members offset

variable (distinct : (entries.map IndexEntry.offset).Nodup)

include distinct

theorem answers_all_iff :
    Answers startTs endTs none none entries ↔ ¬Straddles startTs endTs entries := by
  have isQuery : (ofEntries entries).queryOffsets startTs endTs none none =
      (TimeSeriesIndex.of (entries.map timed)).queryRange startTs endTs := by
    rw [← timeIndex_ofEntries]
    rfl
  apply answers_iff_not (offsetsIn startTs endTs entries)
  · rw [isQuery]
    exact queryRange_of_straddles
  · rw [isQuery]
    exact queryRange_of_apart
  · exact offsetsIn_nodup distinct
  · intro offset
    rw [mem_offsetsIn]
    simp [Wanted, and_assoc]

theorem answers_instrument_iff (instrument : String) :
    Answers startTs endTs (some instrument) none entries ↔
      ¬Straddles startTs endTs (ofInstrument instrument entries) := by
  have isQuery : (ofEntries entries).queryOffsets startTs endTs (some instrument) none =
      (TimeSeriesIndex.of ((ofInstrument instrument entries).map timed)).queryRange
        startTs endTs := instrument_queryRange instrument startTs endTs entries
  apply answers_iff_not (offsetsIn startTs endTs (ofInstrument instrument entries))
  · rw [isQuery]
    exact queryRange_of_straddles
  · rw [isQuery]
    exact queryRange_of_apart
  · exact offsetsIn_nodup (distinct.sublist (List.filter_sublist.map _))
  · intro offset
    rw [mem_offsetsIn]
    simp only [ofInstrument, List.mem_filter, decide_eq_true_eq, Wanted, Option.mem_def,
      Option.some.injEq, forall_eq', reduceCtorEq, IsEmpty.forall_iff, implies_true, and_true,
      and_assoc]
    apply exists_congr
    intro entry
    tauto

theorem answers_types_iff (types : RecordTypeSet) :
    Answers startTs endTs none (some types) entries ↔
      ¬∃ recordType ∈ RecordType.all.filter fun recordType => types.contains recordType,
        Straddles startTs endTs (ofType recordType entries) := by
  have isQuery : (ofEntries entries).queryOffsets startTs endTs none (some types) =
      (RecordTypeIndex.extendOver startTs endTs types (ofEntries entries).recordTypeIndex
        RecordType.all).map (List.insertionSort (· ≤ ·)) := rfl
  apply answers_iff_not ((RecordType.all.filter fun recordType => types.contains recordType).flatMap
    fun recordType => offsetsIn startTs endTs (ofType recordType entries))
  · intro straddles
    rw [isQuery, extendOver_of_straddles straddles]
    rfl
  · intro apart
    obtain ⟨result, isResult, isPerm⟩ := extendOver_of_apart fun recordType member straddles =>
      apart ⟨recordType, member, straddles⟩
    rw [isQuery, isResult]
    exact ⟨_, rfl, (List.perm_insertionSort _ result).trans isPerm⟩
  · exact offsetsOfTypes_nodup distinct (RecordType.all_nodup.filter _)
  · intro offset
    rw [List.mem_flatMap]
    constructor
    · intro found
      obtain ⟨recordType, member, inRange⟩ := found
      obtain ⟨entry, isMember, after, before, isOffset⟩ := mem_offsetsIn.mp inRange
      have parts := List.mem_filter.mp isMember
      have inTypes := (List.mem_filter.mp member).2
      apply Exists.intro entry
      apply And.intro parts.1
      refine ⟨⟨after, before, by simp, ?_⟩, isOffset⟩
      intro other isOther
      cases isOther
      rw [of_decide_eq_true parts.2]
      exact inTypes
    · intro asked
      obtain ⟨entry, member, ⟨after, before, -, inTypes⟩, isOffset⟩ := asked
      apply Exists.intro entry.recordType
      constructor
      · exact List.mem_filter.mpr ⟨RecordType.mem_all _, inTypes types rfl⟩
      · apply mem_offsetsIn.mpr
        exact ⟨entry, List.mem_filter.mpr ⟨member, decide_eq_true rfl⟩, after, before, isOffset⟩

theorem answers_both_iff (instrument : String) (types : RecordTypeSet) :
    Answers startTs endTs (some instrument) (some types) entries ↔
      ¬Straddles startTs endTs (ofInstrument instrument entries) := by
  have isQuery : (ofEntries entries).queryOffsets startTs endTs (some instrument) (some types) =
      ((TimeSeriesIndex.of ((ofInstrument instrument entries).map timed)).queryRange
        startTs endTs).map (List.filter fun offset =>
          (ofEntries entries).recordTypeIndex.containsOffsetInTypes offset types) := by
    rw [← instrument_queryRange]
    rfl
  apply answers_iff_not ((offsetsIn startTs endTs (ofInstrument instrument entries)).filter
    fun offset => (ofEntries entries).recordTypeIndex.containsOffsetInTypes offset types)
  · intro straddles
    rw [isQuery, queryRange_of_straddles straddles]
    rfl
  · intro apart
    obtain ⟨result, isResult, isPerm⟩ := queryRange_of_apart apart
    rw [isQuery, isResult]
    exact ⟨_, rfl, isPerm.filter _⟩
  · exact (offsetsIn_nodup (distinct.sublist (List.filter_sublist.map _))).filter _
  · intro offset
    rw [List.mem_filter, mem_offsetsIn, containsOffsetInTypes_ofEntries]
    constructor
    · intro found
      obtain ⟨⟨entry, isMember, after, before, isOffset⟩, ⟨other, member, inTypes, isAlso⟩⟩ := found
      have parts := List.mem_filter.mp isMember
      have same : entry = other :=
        List.inj_on_of_nodup_map distinct parts.1 member (isOffset.trans isAlso.symm)
      subst same
      refine ⟨entry, member, ⟨after, before, ?_, ?_⟩, isOffset⟩
      · intro name isName
        cases isName
        exact of_decide_eq_true parts.2
      · intro set isSet
        cases isSet
        exact inTypes
    · intro asked
      obtain ⟨entry, member, ⟨after, before, named, inTypes⟩, isOffset⟩ := asked
      constructor
      · exact ⟨entry, List.mem_filter.mpr ⟨member, decide_eq_true (named instrument rfl)⟩, after,
          before, isOffset⟩
      · exact ⟨entry, member, inTypes types rfl, isOffset⟩

end Paths

/-- Queries answer as the plain filter does, unless a group that is searched has timestamps on
both sides of a reversed range. -/
theorem answers_iff_nothing_straddles (startTs endTs : ℤ) (instrumentId : Option String)
    (recordTypes : Option RecordTypeSet) (entries : List IndexEntry)
    (distinct : (entries.map IndexEntry.offset).Nodup) :
    Answers startTs endTs instrumentId recordTypes entries ↔
      ∀ group ∈ searched instrumentId recordTypes entries, ¬Straddles startTs endTs group := by
  cases instrumentId with
  | none =>
    cases recordTypes with
    | none =>
      rw [answers_all_iff distinct, searched]
      simp only [List.mem_singleton, forall_eq]
    | some types =>
      rw [answers_types_iff distinct, searched]
      simp only [List.mem_map, forall_exists_index, and_imp, forall_apply_eq_imp_iff₂,
        not_exists, not_and]
  | some instrument =>
    cases recordTypes with
    | none =>
      rw [answers_instrument_iff distinct, searched]
      simp only [List.mem_singleton, forall_eq]
    | some types =>
      rw [answers_both_iff distinct, searched]
      simp only [List.mem_singleton, forall_eq]

def tickAndBar : List IndexEntry :=
  [⟨1, some "IF2501", .TickData, 100⟩, ⟨10, some "IC2501", .KLineFinished, 200⟩]

/-- A reversed range with all timestamps of the instrument before it is empty. -/
theorem reversed_after_tick_answers : Answers 8 3 (some "IF2501") none tickAndBar :=
  (answers_iff_nothing_straddles 8 3 (some "IF2501") none tickAndBar (by decide)).mpr (by decide)

/-- The same range over all entries panics. -/
theorem reversed_between_not_answers :
    (tickAndBar.map IndexEntry.offset).Nodup ∧ ¬Answers 8 3 none none tickAndBar := by
  apply And.intro (by decide)
  intro answers
  obtain ⟨result, isResult, -⟩ := answers
  have panics : (ofEntries tickAndBar).queryOffsets 8 3 none none = none := by decide
  rw [panics] at isResult
  cases isResult

end CompositeIndexManager

end QAExchange
