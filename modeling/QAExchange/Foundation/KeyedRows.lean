import Mathlib.Data.List.Sort

/-! # Rows with keys

Rows in the order of their keys, and the merge of such rows from several places: sort
all of them and keep the first of those that have the same key.
-/

namespace QAExchange.Foundation

variable {κ α : Type} [LinearOrder κ]

structure KeyedRows (key : α → κ) where
  rows : List α
  sorted : rows.Pairwise fun left right => key left < key right
  deriving DecidableEq

def DistinctKeys (key : α → κ) (rows : List α) : Prop :=
  ∀ left ∈ rows, ∀ right ∈ rows, key left = key right → left = right

theorem eq_of_sorted (key : α → κ) {left right : List α}
    (isLeft : left.Pairwise fun first second => key first < key second)
    (isRight : right.Pairwise fun first second => key first < key second)
    (same : ∀ row, row ∈ left ↔ row ∈ right) : left = right := by
  have : Std.Irrefl fun first second => key first < key second :=
    ⟨fun _ => lt_irrefl _⟩
  have : Std.Antisymm fun first second => key first < key second :=
    ⟨fun _ _ before after => absurd (before.trans after) (lt_irrefl _)⟩
  exact isLeft.eq_of_mem_iff isRight same

namespace KeyedRows

variable {key : α → κ}

def empty : KeyedRows key where
  rows := []
  sorted := .nil

def insertRow (key : α → κ) (row : α) : List α → List α
  | [] => [row]
  | first :: rest =>
    if key row < key first then row :: first :: rest
    else if key row = key first then row :: rest
    else first :: insertRow key row rest

variable {row : α} {rows : List α}

theorem mem_insertRow (sorted : rows.Pairwise fun left right => key left < key right) :
    other ∈ insertRow key row rows ↔ other = row ∨ other ∈ rows ∧ key other ≠ key row := by
  induction rows with
  | nil => simp [insertRow]
  | cons first rest induction =>
    rcases List.pairwise_cons.mp sorted with ⟨smaller, restSorted⟩
    rw [insertRow]
    split_ifs with before same
    · have others : other ∈ first :: rest → key other ≠ key row := by
        intro member
        rcases List.mem_cons.mp member with rfl | member
        · exact ne_of_gt before
        · exact ne_of_gt (before.trans (smaller other member))
      rw [List.mem_cons]
      constructor
      · intro found
        exact found.imp_right fun member => ⟨member, others member⟩
      · intro found
        exact found.imp_right And.left
    · have others : other ∈ rest → key other ≠ key row := by
        intro member
        rw [same]
        exact ne_of_gt (smaller other member)
      rw [List.mem_cons, List.mem_cons]
      constructor
      · intro found
        exact found.imp_right fun member => ⟨.inr member, others member⟩
      · rintro (isRow | ⟨rfl | member, different⟩)
        · exact .inl isRow
        · exact absurd same.symm different
        · exact .inr member
    · have first_ne : key first ≠ key row := fun equal => same equal.symm
      rw [List.mem_cons, induction restSorted, List.mem_cons]
      constructor
      · rintro (rfl | isRow | ⟨member, different⟩)
        · exact .inr ⟨.inl rfl, first_ne⟩
        · exact .inl isRow
        · exact .inr ⟨.inr member, different⟩
      · rintro (isRow | ⟨rfl | member, different⟩)
        · exact .inr (.inl isRow)
        · exact .inl rfl
        · exact .inr (.inr ⟨member, different⟩)

theorem pairwise_insertRow (row : α)
    (sorted : rows.Pairwise fun left right => key left < key right) :
    (insertRow key row rows).Pairwise fun left right => key left < key right := by
  induction rows with
  | nil => exact List.pairwise_singleton _ _
  | cons first rest induction =>
    rcases List.pairwise_cons.mp sorted with ⟨smaller, restSorted⟩
    rw [insertRow]
    split_ifs with before same
    · apply List.Pairwise.cons _ sorted
      intro other member
      rcases List.mem_cons.mp member with rfl | member
      · exact before
      · exact before.trans (smaller other member)
    · apply List.Pairwise.cons _ restSorted
      intro other member
      rw [same]
      exact smaller other member
    · apply List.Pairwise.cons _ (induction restSorted)
      intro other member
      rcases (mem_insertRow restSorted).mp member with rfl | ⟨old, _⟩
      · exact lt_of_le_of_ne (not_lt.mp before) fun equal => same equal.symm
      · exact smaller other old

theorem insertRow_of_lt (greatest : ∀ other ∈ rows, key other < key row) :
    insertRow key row rows = rows ++ [row] := by
  induction rows with
  | nil => rfl
  | cons first rest induction =>
    have smaller := greatest first (by simp)
    rw [insertRow, if_neg (not_lt.mpr smaller.le), if_neg (ne_of_gt smaller),
      induction fun other member => greatest other (List.mem_cons_of_mem _ member),
      List.cons_append]

def insert (row : α) (map : KeyedRows key) : KeyedRows key where
  rows := insertRow key row map.rows
  sorted := pairwise_insertRow row map.sorted

def remove (gone : κ) (map : KeyedRows key) : KeyedRows key where
  rows := map.rows.filter fun row => key row ≠ gone
  sorted := map.sorted.sublist List.filter_sublist

variable {map : KeyedRows key}

theorem mem_remove : row ∈ (map.remove gone).rows ↔ row ∈ map.rows ∧ key row ≠ gone := by
  simp [remove]

def retain (keep : α → Bool) (map : KeyedRows key) : KeyedRows key where
  rows := map.rows.filter keep
  sorted := map.sorted.sublist List.filter_sublist

theorem mem_retain : row ∈ (map.retain keep).rows ↔ row ∈ map.rows ∧ keep row = true :=
  List.mem_filter

theorem mem_insert :
    other ∈ (map.insert row).rows ↔ other = row ∨ other ∈ map.rows ∧ key other ≠ key row :=
  mem_insertRow map.sorted

@[simp] theorem rows_empty : (empty : KeyedRows key).rows = [] := rfl

def get (wanted : κ) (map : KeyedRows key) : Option α :=
  map.rows.find? fun row => key row = wanted

variable {wanted : κ}

theorem get_eq_some : map.get wanted = some row ↔ row ∈ map.rows ∧ key row = wanted := by
  rw [get]
  have sorted := map.sorted
  generalize map.rows = rows at sorted
  induction rows with
  | nil => simp
  | cons first rest induction =>
    rcases List.pairwise_cons.mp sorted with ⟨smaller, restSorted⟩
    by_cases isFirst : key first = wanted
    · rw [List.find?_cons_of_pos (by simpa using isFirst), Option.some_inj]
      constructor
      · rintro rfl
        exact ⟨List.mem_cons_self, isFirst⟩
      · rintro ⟨member, isWanted⟩
        rcases List.mem_cons.mp member with rfl | later
        · rfl
        · exact absurd (isFirst.trans isWanted.symm) (smaller row later).ne
    · rw [List.find?_cons_of_neg (by simpa using isFirst)]
      apply (induction restSorted).trans
      constructor
      · rintro ⟨member, isWanted⟩
        exact ⟨List.mem_cons_of_mem _ member, isWanted⟩
      · rintro ⟨member, isWanted⟩
        rcases List.mem_cons.mp member with rfl | later
        · exact absurd isWanted isFirst
        · exact ⟨later, isWanted⟩

theorem get_eq_none : map.get wanted = none ↔ ∀ row ∈ map.rows, key row ≠ wanted := by
  simp [get]

theorem length_insertRow (absent : ∀ other ∈ rows, key other ≠ key row) :
    (insertRow key row rows).length = rows.length + 1 := by
  induction rows with
  | nil => rfl
  | cons first rest induction =>
    have others := induction fun other member => absent other (List.mem_cons_of_mem _ member)
    have different := (absent first List.mem_cons_self).symm
    rw [insertRow, if_neg different]
    split_ifs
    · rfl
    · rw [List.length_cons, others, List.length_cons]

theorem length_insert (absent : map.get (key row) = none) :
    (map.insert row).rows.length = map.rows.length + 1 :=
  length_insertRow (get_eq_none.mp absent)

theorem length_remove (found : map.get wanted = some row) :
    (map.remove wanted).rows.length + 1 = map.rows.length := by
  rcases get_eq_some.mp found with ⟨member, isWanted⟩
  have sorted := map.sorted
  rw [remove]
  dsimp only
  generalize map.rows = rows at member sorted
  induction rows with
  | nil => cases member
  | cons first rest induction =>
    rcases List.pairwise_cons.mp sorted with ⟨smaller, restSorted⟩
    by_cases isFirst : key first = wanted
    · have all : rest.filter (fun row => key row ≠ wanted) = rest := by
        apply List.filter_eq_self.mpr
        intro other later
        rw [← isFirst]
        exact decide_eq_true (smaller other later).ne'
      rw [List.filter_cons_of_neg (by simpa using isFirst), all]
      rfl
    · have later : row ∈ rest := by
        rcases List.mem_cons.mp member with rfl | later
        · exact absurd isWanted isFirst
        · exact later
      rw [List.filter_cons_of_pos (by simpa using isFirst), List.length_cons,
        induction later restSorted, List.length_cons]

theorem get_insert (row : α) (map : KeyedRows key) (wanted : κ) :
    (map.insert row).get wanted = if key row = wanted then some row else map.get wanted := by
  split_ifs with isRow
  · exact get_eq_some.mpr ⟨mem_insert.mpr (.inl rfl), isRow⟩
  · apply Option.ext
    intro other
    rw [get_eq_some, mem_insert, get_eq_some]
    constructor
    · rintro ⟨rfl | ⟨member, _⟩, isWanted⟩
      · exact absurd isWanted isRow
      · exact ⟨member, isWanted⟩
    · rintro ⟨member, isWanted⟩
      exact ⟨.inr ⟨member, fun same => isRow (same.symm.trans isWanted)⟩, isWanted⟩

theorem get_remove (gone : κ) (map : KeyedRows key) (wanted : κ) :
    (map.remove gone).get wanted = if wanted = gone then none else map.get wanted := by
  split_ifs with isGone
  · apply get_eq_none.mpr
    intro row member
    rw [isGone]
    exact (mem_remove.mp member).2
  · apply Option.ext
    intro other
    rw [get_eq_some, mem_remove, get_eq_some]
    constructor
    · rintro ⟨⟨member, _⟩, isWanted⟩
      exact ⟨member, isWanted⟩
    · rintro ⟨member, isWanted⟩
      exact ⟨⟨member, fun same => isGone (isWanted.symm.trans same)⟩, isWanted⟩

theorem insert_ne_nil (row : α) (map : KeyedRows key) : (map.insert row).rows ≠ [] :=
  List.ne_nil_of_mem (mem_insert.mpr (.inl rfl))

theorem getLast?_insertRow_iff (sorted : rows.Pairwise fun left right => key left < key right) :
    (insertRow key row rows).getLast? = some row ↔ ∀ other ∈ rows, key other ≤ key row := by
  have inserted := pairwise_insertRow row sorted
  constructor
  · intro isLast other member
    by_contra larger
    have stays : other ∈ insertRow key row rows :=
      (mem_insertRow sorted).mpr (.inr ⟨member, (not_le.mp larger).ne'⟩)
    rcases List.getLast?_eq_some_iff.mp isLast with ⟨init, isConcat⟩
    rw [isConcat] at inserted stays
    rcases List.mem_append.mp stays with inside | isRow
    · exact larger ((List.pairwise_append.mp inserted).2.2 other inside row (by simp)).le
    · exact larger (List.mem_singleton.mp isRow ▸ le_refl _)
  · intro greatest
    have member : row ∈ insertRow key row rows := (mem_insertRow sorted).mpr (.inl rfl)
    rcases List.eq_nil_or_concat (insertRow key row rows) with none | ⟨init, last, isConcat⟩
    · rw [none] at member
      cases member
    · have isConcat : insertRow key row rows = init ++ [last] := by simpa using isConcat
      have isLast : last = row := by
        have inside : last ∈ insertRow key row rows := by simp [isConcat]
        rcases (mem_insertRow sorted).mp inside with same | ⟨old, different⟩
        · exact same
        · rw [isConcat] at inserted member
          have smaller := lt_of_le_of_ne (greatest last old) different
          rcases List.mem_append.mp member with earlier | isRow
          · have order := (List.pairwise_append.mp inserted).2.2 row earlier last (by simp)
            exact absurd (smaller.trans order) (lt_irrefl _)
          · exact (List.mem_singleton.mp isRow).symm
      rw [isConcat, List.getLast?_concat, isLast]

/-- An inserted row is the last one if and only if no key is greater. -/
theorem getLast?_insert_iff (row : α) (map : KeyedRows key) :
    (map.insert row).rows.getLast? = some row ↔ ∀ other ∈ map.rows, key other ≤ key row :=
  getLast?_insertRow_iff map.sorted

end KeyedRows

/-- The order in which a hash table gives its keys. -/
structure IterationOrder where
  arrange : List String → List String
  perm : ∀ keys, (arrange keys).Perm keys

def IterationOrder.asIs : IterationOrder where
  arrange := id
  perm := fun _ => .refl _

/-! ## Merging -/

section Merging

variable (key : α → κ)

/-- `sort_by_key`, which is stable. -/
def sortByKey (rows : List α) : List α :=
  rows.insertionSort fun left right => key left ≤ key right

theorem pairwise_sortByKey (rows : List α) :
    (sortByKey key rows).Pairwise fun left right => key left ≤ key right :=
  List.pairwise_insertionSort (fun left right => key left ≤ key right) rows

theorem filter_sortByKey (rows : List α) (wanted : κ) :
    (sortByKey key rows).filter (fun row => key row = wanted) =
      rows.filter fun row => key row = wanted := by
  have perm : (sortByKey key rows).Perm rows := List.perm_insertionSort _ _
  have sameKeys : (rows.filter fun row => key row = wanted).Pairwise
      fun left right => key left ≤ key right := by
    apply List.pairwise_of_forall_mem_list
    intro left isLeft right isRight
    rw [of_decide_eq_true (List.mem_filter.mp isLeft).2,
      of_decide_eq_true (List.mem_filter.mp isRight).2]
  have inSorted := (List.sublist_insertionSort sameKeys List.filter_sublist).filter
    fun row => key row = wanted
  rw [List.filter_filter] at inSorted
  simp only [Bool.and_self] at inSorted
  exact (inSorted.eq_of_length (perm.filter _).length_eq.symm).symm

/-- The rows behind `kept` without those that have the key of the one before them. -/
def dedupAfter (kept : α) : List α → List α
  | [] => [kept]
  | row :: rows =>
    if key row = key kept then dedupAfter kept rows else kept :: dedupAfter row rows

/-- `dedup_by_key` -/
def dedupByKey : List α → List α
  | [] => []
  | row :: rows => dedupAfter key row rows

variable {key}

theorem dedupAfter_spec {kept : α}
    (sorted : (kept :: rows).Pairwise fun left right => key left ≤ key right)
    (distinct : DistinctKeys key (kept :: rows)) :
    (dedupAfter key kept rows).Pairwise (fun left right => key left < key right) ∧
      ∀ row, row ∈ dedupAfter key kept rows ↔ row ∈ kept :: rows := by
  induction rows generalizing kept with
  | nil => exact ⟨List.pairwise_singleton _ _, fun row => Iff.rfl⟩
  | cons first rest induction =>
    rcases List.pairwise_cons.mp sorted with ⟨smaller, restSorted⟩
    rw [dedupAfter]
    split_ifs with same
    · obtain rfl := distinct first (by simp) kept (by simp) same
      have fewer : DistinctKeys key (first :: rest) := fun left isLeft right isRight =>
        distinct left (List.mem_cons_of_mem _ isLeft) right (List.mem_cons_of_mem _ isRight)
      rcases induction restSorted fewer with ⟨increasing, members⟩
      refine ⟨increasing, fun row => ?_⟩
      rw [members, List.mem_cons, List.mem_cons, List.mem_cons, or_self_left]
    · have fewer : DistinctKeys key (first :: rest) := fun left isLeft right isRight =>
        distinct left (List.mem_cons_of_mem _ isLeft) right (List.mem_cons_of_mem _ isRight)
      rcases induction restSorted fewer with ⟨increasing, members⟩
      constructor
      · apply List.Pairwise.cons _ increasing
        intro row member
        have first_lt : key kept < key first :=
          lt_of_le_of_ne (smaller first (by simp)) fun equal => same equal.symm
        rcases List.mem_cons.mp ((members row).mp member) with rfl | later
        · exact first_lt
        · exact first_lt.trans_le ((List.pairwise_cons.mp restSorted).1 row later)
      · intro row
        rw [List.mem_cons, members, List.mem_cons (b := kept)]

theorem merge_spec (distinct : DistinctKeys key rows) :
    (dedupByKey key (sortByKey key rows)).Pairwise (fun left right => key left < key right) ∧
      ∀ row, row ∈ dedupByKey key (sortByKey key rows) ↔ row ∈ rows := by
  have perm : (sortByKey key rows).Perm rows := List.perm_insertionSort _ _
  have sorted : (sortByKey key rows).Pairwise fun left right => key left ≤ key right :=
    List.pairwise_insertionSort (fun left right => key left ≤ key right) rows
  have stillDistinct : DistinctKeys key (sortByKey key rows) := fun left isLeft right isRight =>
    distinct left (perm.mem_iff.mp isLeft) right (perm.mem_iff.mp isRight)
  cases list : sortByKey key rows with
  | nil =>
    rw [list] at perm
    rw [← perm.nil_eq]
    exact ⟨.nil, fun row => Iff.rfl⟩
  | cons first rest =>
    rw [list] at sorted stillDistinct perm
    rcases dedupAfter_spec sorted stillDistinct with ⟨increasing, members⟩
    exact ⟨increasing, fun row => (members row).trans perm.mem_iff⟩

end Merging

section Repeats

/-- The values behind `kept` without those that are the same as the one before them. -/
def dedupByAfter (same : α → α → Bool) (kept : α) : List α → List α
  | [] => [kept]
  | value :: values =>
    if same value kept then dedupByAfter same kept values
    else kept :: dedupByAfter same value values

/-- `dedup_by` -/
def dedupBy (same : α → α → Bool) : List α → List α
  | [] => []
  | value :: values => dedupByAfter same value values

variable {same : α → α → Bool} {kept value : α} {values : List α}

theorem mem_of_mem_dedupByAfter (member : value ∈ dedupByAfter same kept values) :
    value ∈ kept :: values := by
  induction values generalizing kept with
  | nil => exact member
  | cons first values induction =>
    rw [dedupByAfter] at member
    split_ifs at member
    · have inside := induction member
      simp only [List.mem_cons] at inside ⊢
      tauto
    · rcases List.mem_cons.mp member with rfl | later
      · exact List.mem_cons_self
      · exact List.mem_cons_of_mem _ (induction later)

theorem mem_of_mem_dedupBy (member : value ∈ dedupBy same values) : value ∈ values := by
  cases values with
  | nil => exact member
  | cons first values => exact mem_of_mem_dedupByAfter member

theorem dedupByAfter_sublist (same : α → α → Bool) (kept : α) (values : List α) :
    (dedupByAfter same kept values).Sublist (kept :: values) := by
  induction values generalizing kept with
  | nil => exact List.Sublist.refl _
  | cons first values induction =>
    rw [dedupByAfter]
    split_ifs
    · exact (induction kept).trans (List.Sublist.cons_cons kept (List.sublist_cons_self ..))
    · exact List.Sublist.cons_cons kept (induction first)

theorem dedupBy_sublist (same : α → α → Bool) (values : List α) :
    (dedupBy same values).Sublist values := by
  cases values with
  | nil => exact List.Sublist.refl _
  | cons first values => exact dedupByAfter_sublist same first values

variable {key : α → κ}

theorem filter_cons_of_key_eq (same : key value = wanted) (values : List α) :
    (value :: values).filter (fun each => key each = wanted) =
      value :: values.filter fun each => key each = wanted :=
  List.filter_cons_of_pos (decide_eq_true same)

theorem filter_cons_of_key_ne (other : key value ≠ wanted) (values : List α) :
    (value :: values).filter (fun each => key each = wanted) =
      values.filter fun each => key each = wanted :=
  List.filter_cons_of_neg (fun found => other (of_decide_eq_true found))

theorem filter_dedupByAfter
    (sorted : (kept :: values).Pairwise fun left right => key left ≤ key right)
    (agrees : ∀ left ∈ kept :: values, ∀ right ∈ kept :: values,
      same left right = true ↔ key left = key right) (wanted : κ) :
    (dedupByAfter same kept values).filter (fun value => key value = wanted) =
      ((kept :: values).filter fun value => key value = wanted).take 1 := by
  induction values generalizing kept with
  | nil =>
    rw [dedupByAfter, List.filter_singleton]
    cases decide (key kept = wanted) <;> rfl
  | cons first values induction =>
    obtain ⟨smaller, restSorted⟩ := List.pairwise_cons.mp sorted
    have isSame := agrees first (by simp) kept (by simp)
    rw [dedupByAfter]
    by_cases equal : key first = key kept
    · have fewer : (kept :: values).Sublist (kept :: first :: values) :=
        List.Sublist.cons_cons kept (List.sublist_cons_self ..)
      rw [if_pos (isSame.mpr equal), induction (sorted.sublist fewer)
        (fun left isLeft right isRight =>
          agrees left (fewer.subset isLeft) right (fewer.subset isRight))]
      by_cases isWanted : key kept = wanted
      · rw [filter_cons_of_key_eq isWanted, filter_cons_of_key_eq isWanted,
          List.take_succ_cons, List.take_succ_cons, List.take_zero, List.take_zero]
      · have firstToo : key first ≠ wanted := equal ▸ isWanted
        rw [filter_cons_of_key_ne isWanted, filter_cons_of_key_ne isWanted,
          filter_cons_of_key_ne firstToo]
    · rw [if_neg (fun found => equal (isSame.mp found))]
      have later := induction restSorted fun left isLeft right isRight =>
        agrees left (List.mem_cons_of_mem _ isLeft) right (List.mem_cons_of_mem _ isRight)
      by_cases isWanted : key kept = wanted
      · have first_greater : key kept < key first :=
          lt_of_le_of_ne (smaller first List.mem_cons_self) fun same => equal same.symm
        have none_later : ((first :: values).filter fun value => key value = wanted) = [] := by
          apply List.filter_eq_nil_iff.mpr
          intro value member found
          have isEqual : key value = wanted := of_decide_eq_true found
          have greater : key kept < key value := by
            cases member with
            | head => exact first_greater
            | tail _ isLater =>
              exact first_greater.trans_le ((List.pairwise_cons.mp restSorted).1 value isLater)
          rw [isEqual, isWanted] at greater
          exact lt_irrefl _ greater
        rw [filter_cons_of_key_eq isWanted, filter_cons_of_key_eq isWanted, later, none_later,
          List.take_nil, List.take_succ_cons, List.take_nil]
      · rw [filter_cons_of_key_ne isWanted, filter_cons_of_key_ne isWanted, later]

theorem filter_dedupBy (key : α → κ) (same : α → α → Bool)
    (sorted : values.Pairwise fun left right => key left ≤ key right)
    (agrees : ∀ left ∈ values, ∀ right ∈ values, same left right = true ↔ key left = key right)
    (wanted : κ) : (dedupBy same values).filter (fun value => key value = wanted) =
      (values.filter fun value => key value = wanted).take 1 := by
  cases values with
  | nil => rfl
  | cons first values => exact filter_dedupByAfter sorted agrees wanted

theorem map_dedupByAfter (change : α → κ)
    (agrees : ∀ left ∈ kept :: values, ∀ right ∈ kept :: values,
      same left right = true ↔ change left = change right) :
    (dedupByAfter same kept values).map change = dedupAfter id (change kept) (values.map change) := by
  induction values generalizing kept with
  | nil => rfl
  | cons value values induction =>
    have isSame := agrees value (by simp) kept (by simp)
    rw [dedupByAfter, List.map_cons, dedupAfter, id_eq, id_eq]
    by_cases equal : change value = change kept
    · rw [if_pos (isSame.mpr equal), if_pos equal]
      apply induction
      intro left isLeft right isRight
      apply agrees left _ right
      · simp only [List.mem_cons] at isRight ⊢
        tauto
      · simp only [List.mem_cons] at isLeft ⊢
        tauto
    · rw [if_neg (fun found => equal (isSame.mp found)), if_neg equal, List.map_cons]
      congr 1
      apply induction
      intro left isLeft right isRight
      exact agrees left (List.mem_cons_of_mem _ isLeft) right (List.mem_cons_of_mem _ isRight)

/-- Where the values are the same if and only if their keys are, the keys are what is left of
the keys. -/
theorem map_dedupBy (change : α → κ) (agrees : ∀ left ∈ values, ∀ right ∈ values,
      same left right = true ↔ change left = change right) :
    (dedupBy same values).map change = dedupByKey id (values.map change) := by
  cases values with
  | nil => rfl
  | cons value values => exact map_dedupByAfter change agrees

/-- Merging gives a sorted list if and only if nothing in the list is repeated and both have
the same values. -/
theorem merged_eq_iff {merged expected : List κ} :
    dedupByKey id (merged.insertionSort (· ≤ ·)) = expected.insertionSort (· ≤ ·) ↔
      expected.Nodup ∧ ∀ value, value ∈ merged ↔ value ∈ expected := by
  have distinct : DistinctKeys id merged := fun _ _ _ _ same => same
  rcases merge_spec distinct with ⟨increasing, members⟩
  change (dedupByKey id (merged.insertionSort (· ≤ ·))).Pairwise (· < ·) at increasing
  have perm := List.perm_insertionSort (· ≤ ·) expected
  constructor
  · intro equal
    rw [equal] at increasing
    refine ⟨perm.nodup_iff.mp (increasing.imp ne_of_lt), ?_⟩
    intro value
    rw [← members value, ← perm.mem_iff, ← equal]
    rfl
  · rintro ⟨once, same⟩
    have samePerm : (dedupByKey id (merged.insertionSort (· ≤ ·))).Perm
        (expected.insertionSort (· ≤ ·)) := by
      apply (List.perm_ext_iff_of_nodup (increasing.imp ne_of_lt) (perm.nodup_iff.mpr once)).mpr
      intro value
      rw [perm.mem_iff, ← same value]
      exact members value
    exact samePerm.eq_of_pairwise' (increasing.imp le_of_lt) (List.pairwise_insertionSort _ expected)

end Repeats

end QAExchange.Foundation
