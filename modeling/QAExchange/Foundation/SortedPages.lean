import Mathlib.Data.List.Dedup
import Mathlib.Data.List.Sort
import Mathlib.Order.MinMax

/-! # Pages and groups of sorted lists

A page of a list skips some values and takes the next ones. Sorted lists have the same
pages when they have the same values, whatever the order they came in. Entries are grouped
by a key, and the groups with the best keys are kept.
-/

namespace QAExchange.Foundation

section Bounds

variable {α : Type} [LinearOrder α]

variable {values : List α} {value : α}

theorem le_maximum (member : value ∈ values) (other : α) : value ≤ values.max?.getD other := by
  rcases Option.isSome_iff_exists.mp (List.isSome_max?_of_mem member) with ⟨greatest, isMax⟩
  rw [isMax, Option.getD_some]
  exact List.max?_le_iff isMax |>.mp le_rfl value member

theorem minimum_le (member : value ∈ values) (other : α) : values.min?.getD other ≤ value := by
  rcases Option.isSome_iff_exists.mp (List.isSome_min?_of_mem member) with ⟨least, isMin⟩
  rw [isMin, Option.getD_some]
  exact List.le_min?_iff isMin |>.mp le_rfl value member

theorem le_foldl_max (member : value ∈ values) (first : α) : value ≤ values.foldl max first := by
  rw [List.foldl_max]
  exact le_trans (le_maximum member first) (le_max_right _ _)

theorem foldl_min_le (member : value ∈ values) (first : α) : values.foldl min first ≤ value := by
  rw [List.foldl_min]
  exact le_trans (min_le_right _ _) (minimum_le member first)

end Bounds

section Pages

variable {α : Type}

/-- At most `limit` values after the first `offset`. -/
def pageOf (offset limit : ℕ) (values : List α) : List α := (values.drop offset).take limit

theorem map_pageOf {β : Type} (change : α → β) (offset limit : ℕ) (values : List α) :
    (pageOf offset limit values).map change = pageOf offset limit (values.map change) := by
  rw [pageOf, pageOf, List.map_take, List.map_drop]

theorem eq_of_pages {left right : List α}
    (same : ∀ offset, pageOf offset 1 left = pageOf offset 1 right) : left = right := by
  apply List.ext_getElem?
  intro place
  have first : ∀ values : List α, values[place]? = (pageOf place 1 values).head? := by
    intro values
    rw [pageOf, List.head?_take, if_neg Nat.one_ne_zero, List.head?_drop]
  rw [first, first, same]

end Pages

section Sorted

variable {α : Type} [LinearOrder α]

theorem insertionSort_eq_iff {left right : List α} :
    left.insertionSort (· ≤ ·) = right.insertionSort (· ≤ ·) ↔ left.Perm right := by
  constructor
  · intro same
    have permLeft := List.perm_insertionSort (· ≤ ·) left
    rw [same] at permLeft
    exact permLeft.symm.trans (List.perm_insertionSort (· ≤ ·) right)
  · intro perm
    have sorted : (left.insertionSort (· ≤ ·)).Perm (right.insertionSort (· ≤ ·)) :=
      ((List.perm_insertionSort _ left).trans perm).trans (List.perm_insertionSort _ right).symm
    exact sorted.eq_of_pairwise' (List.pairwise_insertionSort _ left)
      (List.pairwise_insertionSort _ right)

end Sorted

section Splits

variable {α : Type}

theorem filter_and_split (first second : α → Bool) (values : List α) :
    (values.filter first).Perm ((values.filter fun value => first value && second value) ++
      values.filter fun value => first value && !second value) := by
  have accepted : (values.filter first).filter second =
      values.filter fun value => first value && second value := by
    rw [List.filter_filter]
    exact List.filter_congr fun value _ => Bool.and_comm _ _
  have rejected : (values.filter first).filter (fun value => !second value) =
      values.filter fun value => first value && !second value := by
    rw [List.filter_filter]
    exact List.filter_congr fun value _ => Bool.and_comm _ _
  rw [← accepted, ← rejected]
  exact (List.filter_append_perm second _).symm

theorem filter_split (weaker stronger : α → Bool)
    (implies : ∀ value, stronger value = true → weaker value = true) (values : List α) :
    (values.filter weaker).Perm
      (values.filter stronger ++ values.filter fun value => weaker value && !stronger value) := by
  have same : (values.filter fun value => weaker value && stronger value) =
      values.filter stronger := by
    apply List.filter_congr
    intro value _
    cases isStrong : stronger value with
    | false => exact Bool.and_false _
    | true => rw [implies value isStrong, Bool.and_true]
  rw [← same]
  exact filter_and_split weaker stronger values

end Splits

section Groups

variable {α κ : Type} [DecidableEq κ]

/-- The keys in the order of `better`, each once. -/
def keysBy (better : κ → κ → Prop) [DecidableRel better] (key : α → κ) (entries : List α) :
    List κ :=
  (entries.map key).dedup.insertionSort better

def topKeys (better : κ → κ → Prop) [DecidableRel better] (key : α → κ) (count : ℕ)
    (entries : List α) : List κ :=
  (keysBy better key entries).take count

def topGroups (better : κ → κ → Prop) [DecidableRel better] (key : α → κ) (count : ℕ)
    (entries : List α) : List (κ × List α) :=
  (topKeys better key count entries).map fun each =>
    (each, entries.filter fun entry => key entry = each)

section Order

variable {better : κ → κ → Prop} [DecidableRel better] [Std.Total better] [IsTrans κ better]
  [Std.Antisymm better] {key : α → κ}

omit [DecidableEq κ] [DecidableRel better] [Std.Total better] [IsTrans κ better]
  [Std.Antisymm better] in
theorem take_filter_of_all {keys : List κ} (all : ∀ each ∈ keys.take count, keep each = true) :
    (keys.filter keep).take count = keys.take count := by
  induction keys generalizing count with
  | nil => rfl
  | cons first rest induction =>
    cases count with
    | zero => rfl
    | succ count =>
      rw [List.take_succ_cons] at all ⊢
      rcases List.forall_mem_cons.mp all with ⟨isKept, later⟩
      rw [List.filter_cons_of_pos isKept, List.take_succ_cons, induction later]

theorem keysBy_part (sublist : ∀ entry ∈ part, entry ∈ entries) :
    keysBy better key part =
      (keysBy better key entries).filter fun each => decide (each ∈ part.map key) := by
  have partSorted := List.pairwise_insertionSort better (part.map key).dedup
  have allSorted := List.pairwise_insertionSort better (entries.map key).dedup
  have partNodup : (keysBy better key part).Nodup :=
    (List.perm_insertionSort better _).nodup_iff.mpr (List.nodup_dedup _)
  have allNodup : (keysBy better key entries).Nodup :=
    (List.perm_insertionSort better _).nodup_iff.mpr (List.nodup_dedup _)
  have sameMembers (each : κ) : each ∈ keysBy better key part ↔
      each ∈ (keysBy better key entries).filter fun each => decide (each ∈ part.map key) := by
    rw [List.mem_filter, decide_eq_true_eq, keysBy, keysBy, List.mem_insertionSort,
      List.mem_insertionSort, List.mem_dedup, List.mem_dedup]
    constructor
    · intro member
      rcases List.mem_map.mp member with ⟨entry, inPart, rfl⟩
      exact ⟨List.mem_map_of_mem (sublist entry inPart), member⟩
    · exact And.right
  have perm := (List.perm_ext_iff_of_nodup partNodup (allNodup.filter _)).mpr sameMembers
  exact perm.eq_of_pairwise' partSorted (allSorted.filter _)

theorem topGroups_append
    (worse : ∀ entry ∈ rest, key entry ∉ topKeys better key count (first ++ rest)) :
    topGroups better key count first = topGroups better key count (first ++ rest) := by
  have inFirst : ∀ each ∈ topKeys better key count (first ++ rest),
      decide (each ∈ first.map key) = true := by
    intro each isTop
    have isKey := List.mem_of_mem_take isTop
    rw [keysBy, List.mem_insertionSort, List.mem_dedup, List.map_append, List.mem_append] at isKey
    apply decide_eq_true
    apply isKey.resolve_right
    intro inRest
    rcases List.mem_map.mp inRest with ⟨entry, member, rfl⟩
    exact worse entry member isTop
  have sameKeys : topKeys better key count first = topKeys better key count (first ++ rest) := by
    rw [topKeys, keysBy_part (fun entry member =>
      List.mem_append_left rest member), take_filter_of_all inFirst, topKeys]
  rw [topGroups, topGroups, sameKeys]
  apply List.map_congr_left
  intro each isTop
  have none_later : (rest.filter fun entry => key entry = each) = [] := by
    apply List.filter_eq_nil_iff.mpr
    intro entry member same
    rw [decide_eq_true_eq] at same
    exact worse entry member (same ▸ isTop)
  rw [List.filter_append, none_later, List.append_nil]

end Order

end Groups

end QAExchange.Foundation
