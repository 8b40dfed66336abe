import Mathlib.Data.Finset.Card
import Mathlib.Data.List.Sort

/-! # Quorums

Two groups of members that are together more than all members have one in common.
Half of all values reach the one in the middle.
-/

namespace QAExchange.Foundation

variable {Member : Type} [DecidableEq Member]

/-- Members without repetition that are more than half of all. -/
structure IsQuorum (members group : List Member) : Prop where
  nodup : group.Nodup
  subset : group ⊆ members
  majority : members.length < 2 * group.length

theorem IsQuorum.exists_mem_both {members first second : List Member}
    (isFirst : IsQuorum members first) (isSecond : IsQuorum members second) :
    ∃ member, member ∈ first ∧ member ∈ second := by
  by_contra none
  have disjoint : Disjoint first.toFinset second.toFinset := by
    rw [Finset.disjoint_left]
    intro member inFirst inSecond
    exact none ⟨member, List.mem_toFinset.mp inFirst, List.mem_toFinset.mp inSecond⟩
  have within : first.toFinset ∪ second.toFinset ⊆ members.toFinset := by
    intro member isMember
    rw [Finset.mem_union, List.mem_toFinset, List.mem_toFinset] at isMember
    exact List.mem_toFinset.mpr (isMember.elim (isFirst.subset ·) (isSecond.subset ·))
  have counted := Finset.card_le_card within
  rw [Finset.card_union_of_disjoint disjoint, List.toFinset_card_of_nodup isFirst.nodup,
    List.toFinset_card_of_nodup isSecond.nodup] at counted
  have atMost := members.toFinset_card_le
  have more := isFirst.majority
  have moreToo := isSecond.majority
  omega

theorem length_le_two_mul_filter_middle {values : List ℕ} {middle : ℕ}
    (isMiddle : (values.insertionSort (· ≤ ·))[values.length / 2]? = some middle) :
    values.length ≤ 2 * (values.filter fun value => middle ≤ value).length := by
  have sameLength : (values.insertionSort (· ≤ ·)).length = values.length :=
    List.length_insertionSort _ values
  have inOrder : (values.insertionSort (· ≤ ·)).Pairwise (· ≤ ·) :=
    List.pairwise_insertionSort _ values
  have permuted := (List.perm_insertionSort (· ≤ ·) values).filter fun value => middle ≤ value
  rw [← permuted.length_eq]
  rw [← sameLength] at isMiddle ⊢
  generalize values.insertionSort (· ≤ ·) = sorted at isMiddle inOrder
  rcases List.getElem?_eq_some_iff.mp isMiddle with ⟨inside, sameMiddle⟩
  have upper : (sorted.drop (sorted.length / 2)).filter (fun value => middle ≤ value) =
      sorted.drop (sorted.length / 2) := by
    rw [List.filter_eq_self]
    intro value member
    rw [List.drop_eq_getElem_cons inside, sameMiddle, List.mem_cons] at member
    have rest := inOrder.sublist (List.drop_sublist (sorted.length / 2) sorted)
    rw [List.drop_eq_getElem_cons inside, sameMiddle, List.pairwise_cons] at rest
    rcases member with rfl | later
    · exact decide_eq_true le_rfl
    · exact decide_eq_true (rest.1 value later)
  have within := ((List.drop_sublist (sorted.length / 2) sorted).filter
    fun value => middle ≤ value).length_le
  rw [upper, List.length_drop] at within
  omega

end QAExchange.Foundation
