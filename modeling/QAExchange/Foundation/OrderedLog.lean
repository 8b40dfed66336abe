import Mathlib.Data.List.Infix

/-! # Logs in increasing order

The entries of a log have strictly increasing numbers. A beginning of such a log
is known by its last number.
-/

namespace QAExchange.Foundation

variable {Entry : Type} (number : Entry → ℕ)

def Ascending (log : List Entry) : Prop := log.Pairwise fun first second => number first < number second

variable {number} {log : List Entry}

theorem Ascending.of_initial (ascending : Ascending number log) (isPrefix : first <+: log) :
    Ascending number first :=
  List.Pairwise.sublist isPrefix.sublist ascending

variable {entry : Entry}

theorem ascending_append_singleton :
    Ascending number (log ++ [entry]) ↔
      Ascending number log ∧ ∀ earlier ∈ log, number earlier < number entry := by
  simp [Ascending, List.pairwise_append]

section

variable (ascending : Ascending number log)
include ascending

theorem Ascending.le_last (isLast : last ∈ log.getLast?) (member : entry ∈ log) :
    number entry ≤ number last := by
  rcases List.eq_nil_or_concat' log with rfl | ⟨earlier, end', rfl⟩
  · cases member
  · rw [List.getLast?_concat, Option.mem_some_iff] at isLast
    subst isLast
    rcases List.mem_append.mp member with inEarlier | same
    · exact Nat.le_of_lt ((ascending_append_singleton.mp ascending).2 entry inEarlier)
    · rw [List.mem_singleton.mp same]

theorem Ascending.getLast?_eq (member : entry ∈ log)
    (largest : ∀ other ∈ log, number other ≤ number entry) : log.getLast? = some entry := by
  rcases List.eq_nil_or_concat' log with rfl | ⟨earlier, last, rfl⟩
  · cases member
  · rw [List.getLast?_concat]
    rcases List.mem_append.mp member with inEarlier | same
    · have before := (ascending_append_singleton.mp ascending).2 entry inEarlier
      have after := largest last (List.mem_append_right _ (List.mem_singleton_self last))
      omega
    · rw [List.mem_singleton.mp same]

/-- Of two beginnings the one with the lower last number is a beginning of the other. -/
theorem Ascending.prefix_of_le (isFirst : first ++ [end'] <+: log)
    (isSecond : second ++ [endToo] <+: log) (atMost : number end' ≤ number endToo) :
    first ++ [end'] <+: second ++ [endToo] := by
  rcases List.prefix_or_prefix_of_prefix isFirst isSecond with within | within
  · exact within
  · rcases List.prefix_concat_iff.mp within with equal | inside
    · rw [equal]
    · have member : endToo ∈ first :=
        inside.subset (List.mem_append_right _ (List.mem_singleton_self _))
      have less := (ascending_append_singleton.mp (ascending.of_initial isFirst)).2 endToo member
      omega

theorem Ascending.prefix_eq (isFirst : first ++ [end'] <+: log)
    (isSecond : second ++ [endToo] <+: log) (same : number end' = number endToo) :
    first ++ [end'] = second ++ [endToo] := by
  have within := ascending.prefix_of_le isFirst isSecond same.le
  have around := ascending.prefix_of_le isSecond isFirst same.ge
  exact within.eq_of_length (le_antisymm within.length_le around.length_le)

theorem Ascending.filter_le_last (isPrefix : first ++ [last] <+: log) :
    log.filter (fun entry => number entry ≤ number last) = first ++ [last] := by
  rcases isPrefix with ⟨rest, rfl⟩
  have inOrder := List.pairwise_append.mp ascending
  rw [List.filter_append]
  have all : (first ++ [last]).filter (fun entry => number entry ≤ number last) =
      first ++ [last] := by
    rw [List.filter_eq_self]
    intro entry member
    have atMost : number entry ≤ number last := by
      apply Ascending.le_last inOrder.1 _ member
      rw [List.getLast?_concat]
      rfl
    exact decide_eq_true atMost
  have none : rest.filter (fun entry => number entry ≤ number last) = [] := by
    rw [List.filter_eq_nil_iff]
    intro entry member within
    have above := inOrder.2.2 last (List.mem_append_right _ (List.mem_singleton_self last)) entry
      member
    have below := of_decide_eq_true within
    omega
  rw [all, none, List.append_nil]

theorem Ascending.split (bound : ℕ) :
    log.filter (fun entry => number entry < bound) ++
      log.filter (fun entry => bound ≤ number entry) = log := by
  induction log with
  | nil => rfl
  | cons entry log induction =>
    have rest := List.pairwise_cons.mp ascending
    by_cases below : number entry < bound
    · rw [List.filter_cons_of_pos (by simpa using below),
        List.filter_cons_of_neg (by simpa using below), List.cons_append, induction rest.2]
    · have nothing : log.filter (fun entry => number entry < bound) = [] := by
        rw [List.filter_eq_nil_iff]
        intro later member isBelow
        have above := rest.1 later member
        have under := of_decide_eq_true isBelow
        omega
      have whole := induction rest.2
      rw [nothing, List.nil_append] at whole
      rw [List.filter_cons_of_neg (by simpa using below), nothing, List.nil_append,
        List.filter_cons_of_pos (by simpa using below), whole]

theorem Ascending.eq_of_number_eq {first second : Entry} (inFirst : first ∈ log)
    (inSecond : second ∈ log) (same : number first = number second) : first = second := by
  rcases List.append_of_mem inFirst with ⟨before, after, rfl⟩
  have inOrder := List.pairwise_append.mp ascending
  have rest := List.pairwise_cons.mp inOrder.2.1
  rcases List.mem_append.mp inSecond with early | later
  · have less := inOrder.2.2 second early first (List.mem_cons_self ..)
    omega
  · rcases List.mem_cons.mp later with equal | late
    · exact equal.symm
    · have less := rest.1 second late
      omega

end

def Consecutive (number : Entry → ℕ) (log : List Entry) : Prop :=
  log.map number = List.range' 1 log.length

section

variable (consecutive : Consecutive number log)
include consecutive

theorem Consecutive.ascending : Ascending number log := by
  have inOrder : (log.map number).Pairwise (· < ·) := by
    rw [consecutive]
    exact List.pairwise_lt_range'
  exact List.pairwise_map.mp inOrder

theorem Consecutive.positive (member : entry ∈ log) : 0 < number entry := by
  have inRange := List.mem_map_of_mem (f := number) member
  rw [consecutive, List.mem_range'_1] at inRange
  omega

theorem Consecutive.of_initial (isPrefix : first <+: log) : Consecutive number first := by
  rcases isPrefix with ⟨rest, rfl⟩
  rw [Consecutive, List.map_append, List.length_append, ← List.range'_append_1] at consecutive
  exact (List.append_inj consecutive (by rw [List.length_map, List.length_range'])).1

theorem Consecutive.number_eq (isPrefix : before ++ [entry] <+: log) :
    number entry = before.length + 1 := by
  have whole := consecutive.of_initial isPrefix
  rw [Consecutive, List.map_append, List.length_append, List.length_singleton, List.range'_1_concat]
    at whole
  have last := List.append_inj_right' whole rfl
  rw [List.map_singleton, List.singleton_inj] at last
  omega

end

end QAExchange.Foundation
