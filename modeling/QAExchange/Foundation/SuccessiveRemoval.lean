import Mathlib.Algebra.GroupWithZero.Nat
import Mathlib.Algebra.Order.BigOperators.Group.List
import Mathlib.Data.List.Sort

/-! # Successive removals by position

Items are removed from a list one after another, each by its position in what is left. The
positions are those of the whole list only if each removal is in front of those before it.
-/

namespace QAExchange.Foundation

variable {α β : Type}

def removeAt (index : ℕ) (items : List α) : Option (List α) :=
  if index < items.length then some (items.eraseIdx index) else none

def removeEach : List ℕ → List α → Option (List α)
  | [], items => some items
  | index :: indices, items => (removeAt index items).bind (removeEach indices)

theorem removeAt_map (change : α → β) (index : ℕ) (items : List α) :
    removeAt index (items.map change) = (removeAt index items).map (List.map change) := by
  rw [removeAt, removeAt, List.length_map]
  split_ifs
  · rw [List.eraseIdx_map, Option.map_some]
  · rfl

/-- Which items are left depends on their positions only. -/
theorem removeEach_map (change : α → β) (indices : List ℕ) (items : List α) :
    removeEach indices (items.map change) = (removeEach indices items).map (List.map change) := by
  induction indices generalizing items with
  | nil => rfl
  | cons index indices induction =>
    rw [removeEach, removeEach, removeAt_map]
    cases removeAt index items with
    | none => rfl
    | some rest => exact induction rest

variable {index : ℕ}

theorem removeAt_eq_some {items rest : List α} :
    removeAt index items = some rest ↔ index < items.length ∧ items.eraseIdx index = rest := by
  rw [removeAt]
  split_ifs with inside
  · simp [inside]
  · simp [inside]

variable {indices : List ℕ}

theorem removeEach_sublist {items rest : List α} (removed : removeEach indices items = some rest) :
    rest.Sublist items := by
  induction indices generalizing items with
  | nil =>
    cases removed
    exact List.Sublist.refl _
  | cons index indices induction =>
    obtain ⟨next, removedFirst, removedOthers⟩ := Option.bind_eq_some_iff.mp removed
    obtain ⟨_, rfl⟩ := removeAt_eq_some.mp removedFirst
    exact (induction removedOthers).trans (List.eraseIdx_sublist items index)

/-! ## The sum of the positions

An item in an ascending list of numbers is at least its position. So no removal takes away
less than its position, and the sum of what is left tells whether one has taken away more.
-/

def Rising (numbers : List ℕ) : Prop := numbers.Pairwise (· < ·)

variable {numbers : List ℕ}

theorem Rising.le_getElem (ascending : Rising numbers) (inside : index < numbers.length) :
    index ≤ numbers[index] := by
  induction index with
  | zero => exact Nat.zero_le _
  | succ index induction =>
    have before := induction (Nat.lt_of_succ_lt inside)
    have larger := List.pairwise_iff_getElem.mp ascending index (index + 1)
      (Nat.lt_of_succ_lt inside) inside (Nat.lt_succ_self index)
    omega

theorem sum_eraseIdx_add (inside : index < numbers.length) :
    (numbers.eraseIdx index).sum + numbers[index] = numbers.sum := by
  induction numbers generalizing index with
  | nil => cases inside
  | cons number numbers induction =>
    cases index with
    | zero => simp [Nat.add_comm]
    | succ index =>
      have rest := induction (Nat.lt_of_succ_lt_succ inside)
      simp only [List.eraseIdx_cons_succ, List.sum_cons, List.getElem_cons_succ]
      omega

variable {rest : List ℕ}

theorem Rising.sum_removeEach_le (ascending : Rising numbers)
    (removed : removeEach indices numbers = some rest) : rest.sum + indices.sum ≤ numbers.sum := by
  induction indices generalizing numbers with
  | nil =>
    cases removed
    exact Nat.le_refl _
  | cons index indices induction =>
    obtain ⟨next, removedFirst, removedOthers⟩ := Option.bind_eq_some_iff.mp removed
    obtain ⟨inside, rfl⟩ := removeAt_eq_some.mp removedFirst
    have others := induction (ascending.sublist (List.eraseIdx_sublist numbers index))
      removedOthers
    have total := sum_eraseIdx_add inside
    have atLeast := ascending.le_getElem inside
    rw [List.sum_cons]
    omega

/-- The numbers up to the last removed position are in place, and that position is gone. -/
structure InPlaceBelow (bound : ℕ) (numbers : List ℕ) : Prop where
  ascending : Rising numbers
  inPlace : ∀ index, index < bound → numbers[index]? = some index
  above : ∀ index number, bound ≤ index → numbers[index]? = some number → index < number

variable {bound : ℕ}

theorem InPlaceBelow.erase (below : InPlaceBelow bound numbers) (inFront : index < bound) :
    InPlaceBelow index (numbers.eraseIdx index) where
  ascending := below.ascending.sublist (List.eraseIdx_sublist numbers index)
  inPlace := by
    intro other smaller
    rw [List.getElem?_eraseIdx_of_lt smaller]
    exact below.inPlace other (smaller.trans inFront)
  above := by
    intro other number notBelow found
    rw [List.getElem?_eraseIdx_of_ge notBelow] at found
    by_cases inside : other + 1 < bound
    · have isNext := below.inPlace (other + 1) inside
      rw [found, Option.some_inj] at isNext
      omega
    · have larger := below.above (other + 1) number (Nat.le_of_not_lt inside) found
      omega

theorem InPlaceBelow.sum_lt (below : InPlaceBelow bound numbers) (behind : bound ≤ index)
    (removed : removeEach (index :: indices) numbers = some rest) :
    rest.sum + (index :: indices).sum < numbers.sum := by
  obtain ⟨next, removedFirst, removedOthers⟩ := Option.bind_eq_some_iff.mp removed
  obtain ⟨inside, rfl⟩ := removeAt_eq_some.mp removedFirst
  have ascending : Rising (numbers.eraseIdx index) :=
    below.ascending.sublist (List.eraseIdx_sublist numbers index)
  have others := ascending.sum_removeEach_le removedOthers
  have total := sum_eraseIdx_add inside
  have more := below.above index numbers[index] behind (List.getElem?_eq_getElem inside)
  rw [List.sum_cons]
  omega

theorem InPlaceBelow.removeEach_descending (below : InPlaceBelow bound numbers)
    (within : ∀ index ∈ indices, index < bound) (descending : indices.Pairwise (· > ·)) :
    removeEach indices numbers = some (numbers.filter fun number => number ∉ indices) := by
  induction indices generalizing bound numbers with
  | nil => simp [removeEach]
  | cons index indices induction =>
    have parts := List.pairwise_cons.mp descending
    have inFront := within index List.mem_cons_self
    have isIndex := below.inPlace index inFront
    obtain ⟨inside, isNumber⟩ := List.getElem?_eq_some_iff.mp isIndex
    have others := induction (below.erase inFront) parts.1 parts.2
    rw [removeEach, removeAt, if_pos inside, Option.bind_some, others]
    congr 1
    have distinct : numbers.Nodup := below.ascending.imp fun smaller => smaller.ne
    have erased : numbers.eraseIdx index = numbers.filter fun number => number ≠ index := by
      rw [← distinct.erase_getElem index inside, isNumber, distinct.erase_eq_filter]
      apply List.filter_congr
      intro number _
      exact Bool.eq_iff_iff.mpr (by simp)
    rw [erased, List.filter_filter]
    congr 1
    funext number
    simp [Bool.and_comm]

theorem inPlaceBelow_range (length : ℕ) : InPlaceBelow length (List.range length) where
  ascending := List.pairwise_lt_range
  inPlace := by
    intro index smaller
    exact List.getElem?_range smaller
  above := by
    intro index number notBelow found
    rw [List.getElem?_eq_none (by simpa using notBelow)] at found
    cases found

theorem InPlaceBelow.sum_lt_of_not_descending (below : InPlaceBelow bound numbers)
    (within : ∀ index ∈ indices.head?, index < bound)
    (removed : removeEach indices numbers = some rest) (notDescending : ¬indices.Pairwise (· > ·)) :
    rest.sum + indices.sum < numbers.sum := by
  induction indices generalizing bound numbers with
  | nil => exact absurd List.Pairwise.nil notDescending
  | cons index indices induction =>
    have inFront := within index rfl
    obtain ⟨next, removedFirst, removedOthers⟩ := Option.bind_eq_some_iff.mp removed
    obtain ⟨inside, rfl⟩ := removeAt_eq_some.mp removedFirst
    have isNumber : numbers[index] = index := by
      have isIndex := below.inPlace index inFront
      rwa [List.getElem?_eq_getElem inside, Option.some_inj] at isIndex
    have total := sum_eraseIdx_add inside
    have next := below.erase inFront
    have others : rest.sum + indices.sum < (numbers.eraseIdx index).sum := by
      cases indices with
      | nil => exact absurd (List.pairwise_singleton _ _) notDescending
      | cons second indices =>
        by_cases isBehind : index ≤ second
        · exact next.sum_lt isBehind removedOthers
        · apply induction next
          · intro head isHead
            cases isHead
            omega
          · exact removedOthers
          · intro descending
            apply notDescending
            apply List.pairwise_cons.mpr
            refine ⟨?_, descending⟩
            intro other member
            rcases List.mem_cons.mp member with rfl | later
            · omega
            · have smaller := (List.pairwise_cons.mp descending).1 other later
              omega
    rw [List.sum_cons]
    omega

theorem eq_of_map_eq {key : α → β} {left right : List α}
    (distinct : ∀ first ∈ left, ∀ second ∈ right, key first = key second → first = second)
    (same : left.map key = right.map key) : left = right := by
  induction left generalizing right with
  | nil => exact (List.map_eq_nil_iff.mp same.symm).symm
  | cons first left induction =>
    cases right with
    | nil => cases same
    | cons second right =>
      have parts := List.cons.inj same
      have heads := distinct first List.mem_cons_self second List.mem_cons_self parts.1
      have tails := induction (fun other member later laterMember =>
        distinct other (List.mem_cons_of_mem _ member) later
          (List.mem_cons_of_mem _ laterMember)) parts.2
      rw [heads, tails]

section Positions

variable {key : α → ℕ} {items rest : List α} {indices : List ℕ}
  (positions : items.map key = List.range items.length)

include positions

theorem removeEach_of_descending (within : ∀ index ∈ indices, index < items.length)
    (descending : indices.Pairwise (· > ·)) :
    removeEach indices items = some (items.filter fun item => key item ∉ indices) := by
  have below := inPlaceBelow_range items.length
  have numbers := below.removeEach_descending within descending
  rw [← positions, removeEach_map, Option.map_eq_some_iff] at numbers
  obtain ⟨rest, removed, sameKeys⟩ := numbers
  have distinct : (items.map key).Nodup := by
    rw [positions]
    exact List.nodup_range
  rw [List.filter_map] at sameKeys
  have inItems := (removeEach_sublist removed).subset
  rw [removed, eq_of_map_eq ?_ sameKeys]
  · rfl
  · intro first member second inFiltered
    exact List.inj_on_of_nodup_map distinct (inItems member) (List.mem_of_mem_filter inFiltered)

theorem sum_removeEach_lt (within : ∀ index ∈ indices, index < items.length)
    (removed : removeEach indices items = some rest) (notDescending : ¬indices.Pairwise (· > ·)) :
    (rest.map key).sum + indices.sum < (items.map key).sum := by
  have below := inPlaceBelow_range items.length
  have removedNumbers : removeEach indices (items.map key) = some (rest.map key) := by
    rw [removeEach_map, removed]
    rfl
  rw [positions] at removedNumbers ⊢
  apply below.sum_lt_of_not_descending _ removedNumbers notDescending
  intro index isHead
  exact within index (List.mem_of_mem_head? isHead)

end Positions

theorem forall₂_drop_of_sublist {R : α → α → Prop} (reflexive : ∀ item, R item item)
    {part whole : List α} (isPart : part.Sublist whole) (sorted : whole.Pairwise R) :
    List.Forall₂ R part (whole.drop (whole.length - part.length)) := by
  induction isPart with
  | slnil => exact .nil
  | @cons part rest item isPart induction =>
    have others := induction (List.pairwise_cons.mp sorted).2
    rw [List.length_cons, Nat.succ_sub isPart.length_le]
    exact others
  | @cons_cons part rest item isPart induction =>
    have parts := List.pairwise_cons.mp sorted
    have others := induction parts.2
    rw [List.length_cons, List.length_cons, Nat.add_sub_add_right]
    cases gap : rest.length - part.length with
    | zero =>
      rw [gap] at others
      exact .cons (reflexive item) others
    | succ gap' =>
      have inside : gap' < rest.length := by omega
      rw [gap] at others
      rw [List.drop_succ_cons, List.drop_eq_getElem_cons inside]
      exact .cons (parts.1 _ (List.getElem_mem inside)) others

end QAExchange.Foundation
