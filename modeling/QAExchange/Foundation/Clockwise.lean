import Mathlib.Data.List.Pairwise
import QAExchange.Foundation.KeyedRows

/-! # Rows on a circle

Rows in the order of their keys, read as points on a circle: the next row is the
first one at or after a place, and the first one of all behind the last row.
-/

namespace QAExchange.Foundation

variable {κ α : Type} [LinearOrder κ] {key : α → κ}

namespace KeyedRows

/-- The first row at or after a place on the circle. -/
def clockwise (place : κ) (map : KeyedRows key) : Option α :=
  (map.rows.find? fun row => place ≤ key row).or map.rows.head?

def NotLater (key : α → κ) (place : κ) (row other : α) : Prop :=
  (place ≤ key row ∧ (place ≤ key other → key row ≤ key other)) ∨
    (key row < place ∧ key other < place ∧ key row ≤ key other)

theorem NotLater.refl (place : κ) (row : α) : NotLater key place row row := by
  obtain after | before := le_or_gt place (key row)
  · exact .inl ⟨after, fun _ => le_rfl⟩
  · exact .inr ⟨before, before, le_rfl⟩

variable {place : κ} {row : α}

theorem NotLater.key_eq {other : α} (first : NotLater key place row other)
    (second : NotLater key place other row) : key row = key other := by
  rcases first with ⟨after, less⟩ | ⟨before, otherBefore, less⟩
  · rcases second with ⟨otherAfter, more⟩ | ⟨_, before, _⟩
    · exact le_antisymm (less otherAfter) (more after)
    · exact absurd after (not_le.mpr before)
  · rcases second with ⟨otherAfter, _⟩ | ⟨_, _, more⟩
    · exact absurd otherAfter (not_le.mpr otherBefore)
    · exact le_antisymm less more

variable {map : KeyedRows key}

theorem clockwise_eq_none : map.clockwise place = none ↔ map.rows = [] := by
  constructor
  · intro nothing
    have noHead := (Option.or_eq_none_iff.mp nothing).2
    exact List.head?_eq_none_iff.mp noHead
  · intro isEmpty
    simp only [clockwise, isEmpty, List.find?_nil, List.head?_nil, Option.or_none]

theorem clockwise_spec (isNext : map.clockwise place = some row) :
    row ∈ map.rows ∧ ∀ other ∈ map.rows, NotLater key place row other := by
  rcases map with ⟨rows, sorted⟩
  dsimp only [clockwise] at isNext ⊢
  cases found : rows.find? fun row => place ≤ key row with
  | some first =>
    rw [found, Option.some_or, Option.some.injEq] at isNext
    subst isNext
    rcases List.find?_eq_some_iff_append.mp found with ⟨after, before, behind, rfl, earlier⟩
    rw [decide_eq_true_eq] at after
    refine ⟨by simp, ?_⟩
    intro other member
    left
    refine ⟨after, ?_⟩
    intro otherAfter
    rcases List.mem_append.mp member with isEarlier | isLater
    · have notAfter := earlier other isEarlier
      simp only [Bool.not_eq_true', decide_eq_false_iff_not] at notAfter
      exact absurd otherAfter notAfter
    · rcases List.mem_cons.mp isLater with rfl | isLater
      · exact le_rfl
      · have tailSorted := (List.pairwise_append.mp sorted).2.1
        exact ((List.pairwise_cons.mp tailSorted).1 other isLater).le
  | none =>
    rw [found, Option.none_or] at isNext
    have before : ∀ other ∈ rows, key other < place := by
      intro other member
      have notAfter := List.find?_eq_none.mp found other member
      simpa using notAfter
    cases rows with
    | nil => cases isNext
    | cons head rest =>
      cases isNext
      refine ⟨List.mem_cons_self, ?_⟩
      intro other member
      right
      refine ⟨before row List.mem_cons_self, before other member, ?_⟩
      rcases List.mem_cons.mp member with rfl | isLater
      · exact le_rfl
      · exact ((List.pairwise_cons.mp sorted).1 other isLater).le

theorem eq_of_key_eq {other : α} (member : row ∈ map.rows) (otherMember : other ∈ map.rows)
    (same : key row = key other) : row = other := by
  by_contra different
  have apart : map.rows.Pairwise fun left right => key left ≠ key right :=
    map.sorted.imp fun less => ne_of_lt less
  have symmetric : Std.Symm fun left right : α => key left ≠ key right := ⟨fun _ _ => Ne.symm⟩
  exact apart.forall member otherMember different same

/-- The next row among more rows is the next one among fewer rows, if it is one
of them. -/
theorem clockwise_of_subset {larger : KeyedRows key}
    (subset : ∀ other ∈ map.rows, other ∈ larger.rows) (isNext : larger.clockwise place = some row)
    (member : row ∈ map.rows) : map.clockwise place = some row := by
  rcases clockwise_spec isNext with ⟨inLarger, first⟩
  cases found : map.clockwise place with
  | none =>
    rw [clockwise_eq_none.mp found] at member
    cases member
  | some other =>
    rcases clockwise_spec found with ⟨otherMember, otherFirst⟩
    have same := (first other (subset other otherMember)).key_eq (otherFirst row member)
    rw [eq_of_key_eq inLarger (subset other otherMember) same]

theorem eq_of_mem_iff {other : KeyedRows key} (same : ∀ row, row ∈ map.rows ↔ row ∈ other.rows) :
    map = other := by
  rcases map with ⟨rows, sorted⟩
  rcases other with ⟨others, otherSorted⟩
  have irrefl : Std.Irrefl fun left right : α => key left < key right := ⟨fun _ => lt_irrefl _⟩
  congr 1
  exact sorted.eq_of_mem_iff otherSorted same

/-- All rows from a place on, once around: as many as there are of the rows behind the place
and of all rows again. -/
def around (place : κ) (map : KeyedRows key) : List α :=
  ((map.rows.filter fun row => place ≤ key row) ++ map.rows).take map.rows.length

theorem around_eq (place : κ) (map : KeyedRows key) :
    map.around place = (map.rows.filter fun row => place ≤ key row) ++
        map.rows.filter fun row => key row < place := by
  obtain ⟨rows, sorted⟩ := map
  dsimp only [around]
  have lengths : (rows.filter fun row => place ≤ key row).length +
      (rows.filter fun row => key row < place).length = rows.length := by
    have parts := List.length_eq_countP_add_countP (fun row => decide (place ≤ key row)) (l := rows)
    simp only [decide_eq_true_eq, not_le] at parts
    rw [parts, List.countP_eq_length_filter, List.countP_eq_length_filter]
  have early : rows.take (rows.filter fun row => key row < place).length =
      rows.filter fun row => key row < place := by
    clear lengths
    induction rows with
    | nil => rfl
    | cons first rest induction =>
      obtain ⟨smaller, restSorted⟩ := List.pairwise_cons.mp sorted
      by_cases before : key first < place
      · rw [List.filter_cons, if_pos (decide_eq_true before), List.length_cons,
          List.take_succ_cons, induction restSorted]
      · have none_before : ((first :: rest).filter fun row => key row < place) = [] := by
          apply List.filter_eq_nil_iff.mpr
          intro row member isBefore
          have rowBefore : key row < place := of_decide_eq_true isBefore
          cases member with
          | head => exact before rowBefore
          | tail _ later => exact before ((smaller row later).trans rowBefore)
        rw [none_before, List.length_nil, List.take_zero]
  rw [List.take_append, List.take_of_length_le (by omega)]
  congr 1
  have rest_length : rows.length - (rows.filter fun row => place ≤ key row).length =
      (rows.filter fun row => key row < place).length := by
    omega
  rw [rest_length, early]

theorem mem_around : row ∈ map.around place ↔ row ∈ map.rows := by
  rw [around_eq, List.mem_append, List.mem_filter, List.mem_filter, ← and_or_left,
    decide_eq_true_eq, decide_eq_true_eq]
  exact and_iff_left (le_or_gt place (key row))

theorem around_inOrder (place : κ) (map : KeyedRows key) :
    (map.around place).Pairwise (NotLater key place) := by
  rw [around_eq]
  apply List.pairwise_append.mpr
  refine ⟨?_, ?_, ?_⟩
  · apply (map.sorted.filter _).imp_of_mem
    intro row other isRow _ less
    exact .inl ⟨of_decide_eq_true (List.mem_filter.mp isRow).2, fun _ => less.le⟩
  · apply (map.sorted.filter _).imp_of_mem
    intro row other isRow isOther less
    exact .inr ⟨of_decide_eq_true (List.mem_filter.mp isRow).2,
      of_decide_eq_true (List.mem_filter.mp isOther).2, less.le⟩
  · intro row isRow other isOther
    have after : place ≤ key row := of_decide_eq_true (List.mem_filter.mp isRow).2
    have before : key other < place := of_decide_eq_true (List.mem_filter.mp isOther).2
    exact .inl ⟨after, fun otherAfter => absurd before (not_lt.mpr otherAfter)⟩

theorem head?_around (place : κ) (map : KeyedRows key) :
    (map.around place).head? = map.clockwise place := by
  rw [around_eq, clockwise, List.head?_append, List.head?_filter]
  cases found : map.rows.find? fun row => decide (place ≤ key row) with
  | some row => rfl
  | none =>
    have all_before : (map.rows.filter fun row => key row < place) = map.rows := by
      apply List.filter_eq_self.mpr
      intro row member
      have notAfter := List.find?_eq_none.mp found row member
      rw [decide_eq_true_eq, not_le] at notAfter
      exact decide_eq_true notAfter
    rw [all_before]

end KeyedRows

section Firsts

variable {ω : Type} [DecidableEq ω]

/-- Every value once, where it occurs first. -/
def firsts : List ω → List ω
  | [] => []
  | value :: values => value :: (firsts values).filter (· ≠ value)

theorem mem_firsts {value : ω} {values : List ω} : value ∈ firsts values ↔ value ∈ values := by
  induction values with
  | nil => exact Iff.rfl
  | cons first values induction =>
    rw [firsts, List.mem_cons, List.mem_filter, induction, List.mem_cons, decide_eq_true_eq]
    tauto

theorem nodup_firsts (values : List ω) : (firsts values).Nodup := by
  induction values with
  | nil => exact List.nodup_nil
  | cons first values induction =>
    rw [firsts]
    apply List.nodup_cons.mpr
    constructor
    · intro again
      exact of_decide_eq_true (List.mem_filter.mp again).2 rfl
    · exact induction.filter _

/-- One value occurs before the first occurrence of the other. -/
def OccursBefore (values : List ω) (value other : ω) : Prop :=
  ∃ before after, values = before ++ value :: after ∧ other ∉ before

omit [DecidableEq ω] in
theorem OccursBefore.cons {values : List ω} {value other first : ω}
    (before : OccursBefore values value other) (different : other ≠ first) :
    OccursBefore (first :: values) value other := by
  obtain ⟨earlier, later, rfl, absent⟩ := before
  refine ⟨first :: earlier, later, rfl, ?_⟩
  intro member
  cases member with
  | head => exact different rfl
  | tail _ isEarlier => exact absent isEarlier

theorem firsts_inOrder (values : List ω) : (firsts values).Pairwise (OccursBefore values) := by
  induction values with
  | nil => exact .nil
  | cons first values induction =>
    rw [firsts]
    apply List.Pairwise.cons
    · intro other _
      exact ⟨[], values, rfl, List.not_mem_nil⟩
    · apply (induction.filter _).imp_of_mem
      intro value other _ isOther before
      exact before.cons (of_decide_eq_true (List.mem_filter.mp isOther).2)

end Firsts

end QAExchange.Foundation
