import QAExchange.Foundation.DependencyOrder
import QAExchange.Foundation.KeyedRows

/-! # Levels

Values are put into groups by a number, and the groups are listed in the order of
their numbers. The position of a group in this list is its number only if no number is
left out, which decides when the groups are the levels of a dependency graph.
-/

namespace QAExchange.Foundation

variable {α : Type}

/-- The value joins the group of its number, which is opened for it when there is none. -/
def pushGroup (number : ℕ) (value : α) : List (ℕ × List α) → List (ℕ × List α)
  | [] => [(number, [value])]
  | (other, values) :: groups =>
    if other = number then (other, values ++ [value]) :: groups
    else (other, values) :: pushGroup number value groups

structure Grouped (number : α → ℕ) (values : List α) (groups : List (ℕ × List α)) : Prop where
  distinct : (groups.map Prod.fst).Nodup
  perm : (groups.map Prod.snd).flatten.Perm values
  nonempty : ∀ group ∈ groups, group.2 ≠ []
  number_eq : ∀ group ∈ groups, ∀ value ∈ group.2, number value = group.1

theorem mem_numbers_pushGroup {number other : ℕ} {value : α} {groups : List (ℕ × List α)} :
    other ∈ (pushGroup number value groups).map Prod.fst ↔
      other = number ∨ other ∈ groups.map Prod.fst := by
  induction groups with
  | nil => simp [pushGroup]
  | cons group groups induction =>
    rw [pushGroup]
    split_ifs with same
    · simp [same]
    · rw [List.map_cons, List.mem_cons, induction, List.map_cons, List.mem_cons, or_left_comm]

namespace Grouped

variable {number : α → ℕ} {values : List α} {groups : List (ℕ × List α)}

theorem empty (number : α → ℕ) : Grouped number [] [] where
  distinct := List.nodup_nil
  perm := .nil
  nonempty := fun _ member => absurd member List.not_mem_nil
  number_eq := fun _ member => absurd member List.not_mem_nil

private theorem distinct_push (value : α) :
    ∀ {groups : List (ℕ × List α)}, (groups.map Prod.fst).Nodup →
      ((pushGroup (number value) value groups).map Prod.fst).Nodup
  | [], _ => List.nodup_singleton _
  | group :: groups, distinct => by
    rcases List.nodup_cons.mp distinct with ⟨isNew, rest⟩
    rw [pushGroup]
    split_ifs with same
    · exact distinct
    · apply List.nodup_cons.mpr
      refine ⟨?_, distinct_push value rest⟩
      rw [mem_numbers_pushGroup]
      intro found
      rcases found with isNumber | old
      · exact same isNumber
      · exact isNew old

private theorem perm_push (number : ℕ) (value : α) :
    ∀ groups : List (ℕ × List α), ((pushGroup number value groups).map Prod.snd).flatten.Perm
      ((groups.map Prod.snd).flatten ++ [value])
  | [] => .refl _
  | group :: groups => by
    rw [pushGroup]
    split_ifs with same
    · simp only [List.map_cons, List.flatten_cons, List.append_assoc]
      exact List.perm_append_comm.append_left _
    · simp only [List.map_cons, List.flatten_cons, List.append_assoc]
      exact (perm_push number value groups).append_left _

private theorem group_push (number : ℕ) (value : α) {group : ℕ × List α} :
    ∀ {groups : List (ℕ × List α)}, group ∈ pushGroup number value groups →
      group ∈ groups ∨ group = (number, [value]) ∨
        ∃ values, (number, values) ∈ groups ∧ group = (number, values ++ [value])
  | [], member => .inr (.inl (List.mem_singleton.mp member))
  | (other, others) :: groups, member => by
    rw [pushGroup] at member
    split_ifs at member with same
    · rcases List.mem_cons.mp member with isGroup | rest
      · rw [same] at isGroup
        rw [same]
        exact .inr (.inr ⟨others, List.mem_cons_self, isGroup⟩)
      · exact .inl (List.mem_cons_of_mem _ rest)
    · rcases List.mem_cons.mp member with isGroup | rest
      · rw [isGroup]
        exact .inl List.mem_cons_self
      · rcases group_push number value rest with old | new | ⟨values, old, isGroup⟩
        · exact .inl (List.mem_cons_of_mem _ old)
        · exact .inr (.inl new)
        · exact .inr (.inr ⟨values, List.mem_cons_of_mem _ old, isGroup⟩)

section

variable (grouped : Grouped number values groups)
include grouped

theorem push (value : α) :
    Grouped number (values ++ [value]) (pushGroup (number value) value groups) where
  distinct := distinct_push value grouped.distinct
  perm := (perm_push (number value) value groups).trans (grouped.perm.append_right _)
  nonempty := by
    intro group member
    rcases group_push (number value) value member with old | new | ⟨values, _, isGroup⟩
    · exact grouped.nonempty group old
    · rw [new]
      exact List.cons_ne_nil _ _
    · rw [isGroup]
      exact List.append_ne_nil_of_right_ne_nil _ (List.cons_ne_nil _ _)
  number_eq := by
    intro group member other isValue
    rcases group_push (number value) value member with old | new | ⟨values, old, isGroup⟩
    · exact grouped.number_eq group old other isValue
    · rw [new] at isValue ⊢
      rw [List.mem_singleton.mp isValue]
    · rw [isGroup] at isValue ⊢
      rcases List.mem_append.mp isValue with inside | last
      · exact grouped.number_eq _ old other inside
      · rw [List.mem_singleton.mp last]

theorem of_perm {other : List (ℕ × List α)} (perm : other.Perm groups) :
    Grouped number values other where
  distinct := (perm.map _).nodup_iff.mpr grouped.distinct
  perm := (perm.map _).flatten.trans grouped.perm
  nonempty := fun group member => grouped.nonempty group (perm.mem_iff.mp member)
  number_eq := fun group member => grouped.number_eq group (perm.mem_iff.mp member)

theorem mem_values (isGroup : group ∈ groups) (member : value ∈ group.2) : value ∈ values := by
  apply grouped.perm.mem_iff.mp
  exact List.mem_flatten.mpr ⟨group.2, List.mem_map_of_mem isGroup, member⟩

theorem exists_group (member : value ∈ values) :
    ∃ group ∈ groups, value ∈ group.2 ∧ number value = group.1 := by
  rcases List.mem_flatten.mp (grouped.perm.mem_iff.mpr member) with ⟨inner, isInner, inside⟩
  rcases List.mem_map.mp isInner with ⟨group, isGroup, rfl⟩
  exact ⟨group, isGroup, inside, grouped.number_eq group isGroup value inside⟩

theorem sortByKey_lt : (sortByKey Prod.fst groups).Pairwise fun left right => left.1 < right.1 := by
  have sorted : (sortByKey Prod.fst groups).Pairwise fun left right =>
      left.1 ≤ right.1 := List.pairwise_insertionSort _ groups
  have distinct : ((sortByKey Prod.fst groups).map Prod.fst).Nodup :=
    ((List.perm_insertionSort _ groups).map _).nodup_iff.mpr grouped.distinct
  have different : (sortByKey Prod.fst groups).Pairwise fun left right =>
      left.1 ≠ right.1 := List.pairwise_map.mp distinct
  exact (sorted.and different).imp fun both => lt_of_le_of_ne both.1 both.2

end

end Grouped

/-! ## The position of a group -/

section Positions

variable {groups : List (ℕ × List α)}

/-- Groups in strict order whose numbers leave nothing out are at the place of their number. -/
theorem number_eq_place (sorted : groups.Pairwise fun left right => left.1 < right.1)
    (full : ∀ group ∈ groups, ∀ smaller < group.1, ∃ other ∈ groups, other.1 = smaller) :
    ∀ (place : ℕ) (group : ℕ × List α), groups[place]? = some group → group.1 = place := by
  have order : ∀ (first second : ℕ) (left right : ℕ × List α), groups[first]? = some left →
      groups[second]? = some right → left.1 < right.1 → first < second := by
    intro first second left right isLeft isRight smaller
    rcases List.getElem?_eq_some_iff.mp isLeft with ⟨inFirst, rfl⟩
    rcases List.getElem?_eq_some_iff.mp isRight with ⟨inSecond, rfl⟩
    by_contra notBefore
    rcases Nat.lt_or_eq_of_le (Nat.le_of_not_lt notBefore) with before | same
    · have larger := List.pairwise_iff_getElem.mp sorted second first inSecond inFirst before
      omega
    · subst same
      omega
  intro place
  induction place using Nat.strongRecOn with
  | ind place induction =>
    intro group isGroup
    have member := List.mem_of_getElem? isGroup
    by_contra different
    rcases Nat.lt_or_gt_of_ne different with smaller | larger
    · -- the group at the place of the smaller number has that number, too
      rcases List.getElem?_eq_some_iff.mp isGroup with ⟨inside, rfl⟩
      have earlier : groups[groups[place].1]? = some groups[groups[place].1] :=
        List.getElem?_eq_getElem (smaller.trans inside)
      have same := induction _ smaller _ earlier
      have below := List.pairwise_iff_getElem.mp sorted groups[place].1 place
        (smaller.trans inside) inside smaller
      omega
    · rcases full group member place larger with ⟨other, isOther, isPlace⟩
      rcases List.getElem?_of_mem isOther with ⟨index, found⟩
      have before := order index place other group found isGroup (by omega)
      have same := induction index before other found
      omega

variable {dependencies : α → List α} {number height : α → ℕ} {values : List α}

/-- The values without dependencies have the number 0, or there are no others and all
have the same. -/
def Grounded (dependencies : α → List α) (number : α → ℕ) (values : List α) : Prop :=
  (∀ value ∈ values, dependencies value = [] → number value = 0) ∨
    (∀ value ∈ values, dependencies value = []) ∧
      ∀ value ∈ values, ∀ other ∈ values, number value = number other

instance [DecidableEq α] (dependencies : α → List α) (number : α → ℕ) (values : List α) :
    Decidable (Grounded dependencies number values) :=
  inferInstanceAs (Decidable ((∀ value ∈ values, dependencies value = [] → number value = 0) ∨
    (∀ value ∈ values, dependencies value = []) ∧
      ∀ value ∈ values, ∀ other ∈ values, number value = number other))

section Heights

variable (inside : ∀ value ∈ values, ∀ dependency ∈ dependencies value, dependency ∈ values)
  (longest : ∀ value ∈ values, LongestChain dependencies value (height value))

include longest

theorem height_eq_zero_iff (member : value ∈ values) :
    height value = 0 ↔ dependencies value = [] := by
  rw [← LongestChain.zero_iff]
  constructor
  · intro zero
    rw [← zero]
    exact longest value member
  · intro zero
    exact (longest value member).unique zero

include inside

theorem exists_height_eq (member : value ∈ values) (atMost : smaller ≤ height value) :
    ∃ other ∈ values, height other = smaller := by
  generalize isHeight : height value = length at atMost
  induction length generalizing value with
  | zero => exact ⟨value, member, by omega⟩
  | succ length induction =>
    by_cases same : smaller = length + 1
    · exact ⟨value, member, by omega⟩
    · have chain := longest value member
      rw [isHeight] at chain
      rcases chain.exists_dependency with ⟨dependency, isDependency, shorter⟩
      have isOther := inside value member dependency isDependency
      exact induction isOther ((longest dependency isOther).unique shorter) (by omega)

variable (known : ∀ value ∈ values, dependencies value ≠ [] → number value = height value)

include known

theorem Grouped.grounded_of_longestChain (grouped : Grouped number values groups)
    (sorted : groups.Pairwise fun left right => left.1 < right.1)
    (right : ∀ (place : ℕ) (group : ℕ × List α), groups[place]? = some group →
      ∀ value ∈ group.2, LongestChain dependencies value place) :
    Grounded dependencies number values := by
  have placed : ∀ value ∈ values, ∃ group, groups[height value]? = some group ∧
      number value = group.1 := by
    intro value member
    rcases grouped.exists_group member with ⟨group, isGroup, isValue, isNumber⟩
    rcases List.getElem?_of_mem isGroup with ⟨place, found⟩
    have same := (right place group found value isValue).unique (longest value member)
    rw [same] at found
    exact ⟨group, found, isNumber⟩
  by_cases none : ∀ value ∈ values, dependencies value = []
  · refine .inr ⟨none, ?_⟩
    intro value member other isOther
    rcases placed value member with ⟨group, found, isNumber⟩
    rcases placed other isOther with ⟨second, foundSecond, isSecond⟩
    rw [(height_eq_zero_iff longest member).mpr (none value member)] at found
    rw [(height_eq_zero_iff longest isOther).mpr (none other isOther), found,
      Option.some_inj] at foundSecond
    rw [isNumber, isSecond, foundSecond]
  · left
    intro root isRoot empty
    simp only [not_forall] at none
    rcases none with ⟨value, member, some⟩
    have positive : height value ≠ 0 := fun zero => some ((height_eq_zero_iff longest member).mp zero)
    -- a value of height 1 has the number 1, which leaves 0 for those of height 0
    rcases exists_height_eq inside longest member (Nat.one_le_iff_ne_zero.mpr positive) with
      ⟨first, isFirst, isOne⟩
    have firstNumber : number first = 1 := by
      rw [known first isFirst, isOne]
      intro empty
      have zero := (height_eq_zero_iff longest isFirst).mpr empty
      omega
    rcases placed first isFirst with ⟨upper, foundUpper, upperNumber⟩
    rcases placed root isRoot with ⟨lower, foundLower, lowerNumber⟩
    rw [isOne] at foundUpper
    rw [(height_eq_zero_iff longest isRoot).mpr empty] at foundLower
    rcases List.getElem?_eq_some_iff.mp foundUpper with ⟨inUpper, rfl⟩
    rcases List.getElem?_eq_some_iff.mp foundLower with ⟨inLower, rfl⟩
    have smaller := List.pairwise_iff_getElem.mp sorted 0 1 inLower inUpper Nat.zero_lt_one
    omega

theorem Grouped.longestChain_of_grounded (grouped : Grouped number values groups)
    (sorted : groups.Pairwise fun left right => left.1 < right.1)
    (grounded : Grounded dependencies number values) (place : ℕ) (group : ℕ × List α)
    (found : groups[place]? = some group) :
    ∀ value ∈ group.2, LongestChain dependencies value place := by
  intro value isValue
  have isGroup := List.mem_of_getElem? found
  have member := grouped.mem_values isGroup isValue
  have isNumber := grouped.number_eq group isGroup value isValue
  rcases grounded with zero | ⟨none, same⟩
  · have numberHeight : ∀ value ∈ values, number value = height value := by
      intro value member
      by_cases empty : dependencies value = []
      · rw [zero value member empty, (height_eq_zero_iff longest member).mpr empty]
      · exact known value member empty
    have atPlace : group.1 = place := by
      apply number_eq_place sorted _ place group found
      intro group isGroup smaller below
      rcases List.exists_mem_of_ne_nil _ (grouped.nonempty group isGroup) with ⟨inner, isInner⟩
      have innerMember := grouped.mem_values isGroup isInner
      have innerNumber := grouped.number_eq group isGroup inner isInner
      rw [numberHeight inner innerMember] at innerNumber
      have atMost : smaller ≤ height inner := by omega
      rcases exists_height_eq inside longest innerMember atMost with
        ⟨other, isOther, otherHeight⟩
      rcases grouped.exists_group isOther with ⟨found, isFound, _, foundNumber⟩
      refine ⟨found, isFound, ?_⟩
      rw [← foundNumber, numberHeight other isOther, otherHeight]
    have chain := longest value member
    rw [← numberHeight value member, isNumber, atPlace] at chain
    exact chain
  · have first : place = 0 := by
      by_contra later
      rcases List.getElem?_eq_some_iff.mp found with ⟨inPlace, isPlace⟩
      have inZero : 0 < groups.length := by omega
      have smaller := List.pairwise_iff_getElem.mp sorted 0 place inZero inPlace (by omega)
      have zeroGroup : groups[0] ∈ groups := List.getElem_mem inZero
      rcases List.exists_mem_of_ne_nil _ (grouped.nonempty _ zeroGroup) with ⟨other, isOther⟩
      have otherNumber := grouped.number_eq _ zeroGroup other isOther
      have equal := same value member other (grouped.mem_values zeroGroup isOther)
      rw [isPlace] at smaller
      omega
    rw [first]
    exact LongestChain.zero_iff.mpr (none value member)

/-- When only the values without dependencies may have a wrong number, the groups are the
levels of the graph exactly if these are grounded. -/
theorem Grouped.longestChain_iff (grouped : Grouped number values groups)
    (sorted : groups.Pairwise fun left right => left.1 < right.1) :
    (∀ (place : ℕ) (group : ℕ × List α), groups[place]? = some group →
      ∀ value ∈ group.2, LongestChain dependencies value place) ↔
      Grounded dependencies number values :=
  ⟨grouped.grounded_of_longestChain inside longest known sorted,
    grouped.longestChain_of_grounded inside longest known sorted⟩

end Heights

end Positions

end QAExchange.Foundation
