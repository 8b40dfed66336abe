import Mathlib.Algebra.Order.BigOperators.Group.List
import Mathlib.Algebra.Order.Group.Defs
import Mathlib.Data.List.Perm.Subperm
import Mathlib.Data.List.Induction
import Mathlib.Tactic.Abel

/-! # The life of an order in a book

A book accepts an order, fills it in any number of steps and lets it go when
its last volume is filled or when it is cancelled. The events of one order in
the order the book made them form a `Life`, which fixes the volume still open.
-/

namespace QAExchange.Foundation

inductive LifeEvent (Volume : Type)
  | opened
  | part (volume : Volume)
  | final (volume : Volume)
  | cancelled

def LifeEvent.volume [Zero Volume] : LifeEvent Volume → Volume
  | .part volume | .final volume => volume
  | .opened | .cancelled => 0

/-- An event after which the book forgets the order. -/
def LifeEvent.isEnd : LifeEvent Volume → Bool
  | .final _ | .cancelled => true
  | .opened | .part _ => false

def filledTotal [AddCommMonoid Volume] (events : List (LifeEvent Volume)) : Volume :=
  (events.map LifeEvent.volume).sum

@[simp] theorem filledTotal_nil [AddCommMonoid Volume] :
    filledTotal ([] : List (LifeEvent Volume)) = 0 := rfl

@[simp] theorem filledTotal_append [AddCommMonoid Volume] (first rest : List (LifeEvent Volume)) :
    filledTotal (first ++ rest) = filledTotal first + filledTotal rest := by
  simp [filledTotal]

theorem filledTotal_cons [AddCommMonoid Volume] (event : LifeEvent Volume)
    (events : List (LifeEvent Volume)) :
    filledTotal (event :: events) = event.volume + filledTotal events := by
  simp [filledTotal]

@[simp] theorem filledTotal_singleton [AddCommMonoid Volume] (event : LifeEvent Volume) :
    filledTotal [event] = event.volume := by
  simp [filledTotal]

section Life

variable {Volume : Type} [AddCommGroup Volume] [LinearOrder Volume]

/-- `Life total left events`: an order of volume `total` went through `events`
and has `left` still open. -/
inductive Life (total : Volume) : Volume → List (LifeEvent Volume) → Prop
  | opened : Life total total [.opened]
  | part {left events volume} : Life total left events → 0 < volume → volume < left →
      Life total (left - volume) (events ++ [.part volume])
  | final {left events} : Life total left events → 0 < left →
      Life total 0 (events ++ [.final left])
  | cancelled {left events} : Life total left events → 0 < left →
      Life total 0 (events ++ [.cancelled])

/-- The event that reports a fill of `volume` out of `left`. -/
def fillEvent (left volume : Volume) : LifeEvent Volume :=
  if volume = left then .final volume else .part volume

omit [AddCommGroup Volume] in
theorem fillEvent_ne_opened (left volume : Volume) : fillEvent left volume ≠ .opened := by
  unfold fillEvent
  split <;> simp

namespace Life

variable {total left : Volume} {events : List (LifeEvent Volume)}

theorem ne_nil (life : Life total left events) : events ≠ [] := by
  cases life <;> simp

theorem eq_opened_cons (life : Life total left events) : ∃ rest, events = .opened :: rest := by
  induction life with
  | opened => exact ⟨[], rfl⟩
  | part _ _ _ induction | final _ _ induction | cancelled _ _ induction =>
    rcases induction with ⟨rest, rfl⟩
    exact ⟨rest ++ [_], rfl⟩

theorem fill (life : Life total left events) (positive : 0 < volume) (atMost : volume ≤ left) :
    Life total (left - volume) (events ++ [fillEvent left volume]) := by
  by_cases whole : volume = left
  · subst whole
    simpa [fillEvent] using life.final positive
  · simpa [fillEvent, whole] using life.part positive (lt_of_le_of_ne atMost whole)

/-- While volume is open no event has ended the life. -/
theorem isEnd_eq_false (life : Life total left events) (stillOpen : 0 < left) :
    ∀ event ∈ events, event.isEnd = false := by
  induction life with
  | opened => simp [LifeEvent.isEnd]
  | part _ positive less induction =>
    intro event member
    rcases List.mem_append.mp member with earlier | last
    · exact induction (positive.trans less) event earlier
    · rw [List.mem_singleton.mp last, LifeEvent.isEnd]
  | final => exact absurd stillOpen (lt_irrefl _)
  | cancelled => exact absurd stillOpen (lt_irrefl _)

theorem of_append (nonempty : events ≠ []) (life : Life total left (events ++ rest)) :
    ∃ before, Life total before events ∧ (rest ≠ [] → 0 < before) ∧
      (rest = [] → before = left) := by
  induction rest using List.reverseRecOn generalizing left with
  | nil => exact ⟨left, by simpa using life, by simp, by simp⟩
  | append_singleton rest last induction =>
    rw [← List.append_assoc] at life
    have shorter : ∃ before, Life total before (events ++ rest) ∧ 0 < before := by
      generalize whole : events ++ rest ++ [last] = all at life
      cases life with
      | opened =>
        have := congrArg List.length whole
        simp at this
        exact absurd (List.eq_nil_of_length_eq_zero (by omega)) nonempty
      | part before positive less =>
        rcases List.append_inj' whole rfl with ⟨same, _⟩
        exact ⟨_, same ▸ before, positive.trans less⟩
      | final before stillOpen =>
        rcases List.append_inj' whole rfl with ⟨same, _⟩
        exact ⟨_, same ▸ before, stillOpen⟩
      | cancelled before stillOpen =>
        rcases List.append_inj' whole rfl with ⟨same, _⟩
        exact ⟨_, same ▸ before, stillOpen⟩
    rcases shorter with ⟨middle, middleLife, middleOpen⟩
    rcases induction middleLife with ⟨before, beforeLife, properPrefix, wholePrefix⟩
    refine ⟨before, beforeLife, fun _ => ?_, by simp⟩
    by_cases restNil : rest = []
    · rw [wholePrefix restNil]
      exact middleOpen
    · exact properPrefix restNil

/-- An event that ends a life is its last event. -/
theorem eq_nil_of_isEnd {event : LifeEvent Volume} (ends : event.isEnd = true)
    (life : Life total left (events ++ event :: rest)) : rest = [] := by
  by_contra more
  rw [List.append_cons] at life
  rcases of_append (by simp) life with ⟨before, beforeLife, stillOpen, _⟩
  have notEnd := beforeLife.isEnd_eq_false (stillOpen more) event (by simp)
  rw [ends] at notEnd
  cases notEnd

theorem isEnd_of_closed (life : Life total left events) (positive : 0 < total) (closed : left = 0) :
    ∃ earlier last, events = earlier ++ [last] ∧ last.isEnd = true := by
  cases life with
  | opened => exact absurd closed positive.ne'
  | part before partPositive less => exact absurd closed (sub_ne_zero.mpr less.ne')
  | final before stillOpen => exact ⟨_, _, rfl, rfl⟩
  | cancelled before stillOpen => exact ⟨_, _, rfl, rfl⟩

theorem fill_pos (life : Life total left events)
    (member : .part volume ∈ events ∨ .final volume ∈ events) : 0 < volume := by
  induction life with
  | opened => simp at member
  | part before positive less induction =>
    simp only [List.mem_append, List.mem_singleton, reduceCtorEq, or_false] at member
    rcases member with (earlier | last) | earlier
    · exact induction (.inl earlier)
    · cases last
      exact positive
    · exact induction (.inr earlier)
  | final before stillOpen induction =>
    simp only [List.mem_append, List.mem_singleton, reduceCtorEq, or_false] at member
    rcases member with earlier | earlier | last
    · exact induction (.inl earlier)
    · exact induction (.inr earlier)
    · cases last
      exact stillOpen
  | cancelled before stillOpen induction =>
    simp only [List.mem_append, List.mem_singleton, reduceCtorEq, or_false] at member
    exact induction member

variable [IsOrderedAddMonoid Volume]

section

variable (life : Life total left events)
include life

theorem left_nonneg (positive : 0 < total) : 0 ≤ left := by
  cases life with
  | opened => exact positive.le
  | part _ _ less => exact sub_nonneg.mpr less.le
  | final => exact le_rfl
  | cancelled => exact le_rfl

/-- Filled and open volume add up to the total, unless the order was
cancelled with volume open. -/
theorem filledTotal_add_left : (filledTotal events + left = total ∧ .cancelled ∉ events) ∨
      (left = 0 ∧ filledTotal events < total ∧ .cancelled ∈ events ∧
        ∀ volume, .final volume ∉ events) := by
  induction life with
  | opened => left; simp [LifeEvent.volume]
  | part before positive less induction =>
    rcases induction with ⟨sum, notCancelled⟩ | ⟨leftZero, _⟩
    · left
      refine ⟨?_, by simpa using notCancelled⟩
      rw [← sum]
      simp only [filledTotal_append, filledTotal_singleton, LifeEvent.volume]
      abel
    · exact absurd (positive.trans less) (by simp [leftZero])
  | final before stillOpen induction =>
    rcases induction with ⟨sum, notCancelled⟩ | ⟨leftZero, _⟩
    · left
      refine ⟨?_, by simpa using notCancelled⟩
      simpa [LifeEvent.volume] using sum
    · exact absurd stillOpen (by simp [leftZero])
  | cancelled before stillOpen induction =>
    rcases induction with ⟨sum, notCancelled⟩ | ⟨leftZero, _⟩
    · right
      refine ⟨rfl, ?_, by simp, ?_⟩
      · rw [← sum]
        simpa [LifeEvent.volume] using stillOpen
      · intro volume member
        rcases List.mem_append.mp member with earlier | last
        · simpa [LifeEvent.isEnd] using before.isEnd_eq_false stillOpen _ earlier
        · simp at last
    · exact absurd stillOpen (by simp [leftZero])

theorem filledTotal_nonneg : 0 ≤ filledTotal events := by
  induction life with
  | opened => simp [LifeEvent.volume]
  | part before positive less induction =>
    simpa [LifeEvent.volume] using add_nonneg induction positive.le
  | final before stillOpen induction =>
    simpa [LifeEvent.volume] using add_nonneg induction stillOpen.le
  | cancelled before stillOpen induction => simpa [LifeEvent.volume] using induction

theorem filledTotal_pos (member : .part volume ∈ events) : 0 < filledTotal events := by
  induction life with
  | opened => simp at member
  | part before positive less induction =>
    simpa [LifeEvent.volume] using add_pos_of_nonneg_of_pos before.filledTotal_nonneg positive
  | final before stillOpen induction =>
    simpa [LifeEvent.volume] using add_pos_of_nonneg_of_pos before.filledTotal_nonneg stillOpen
  | cancelled before stillOpen induction =>
    rcases List.mem_append.mp member with earlier | last
    · simpa [LifeEvent.volume] using induction earlier
    · simp at last

theorem filledTotal_le (positive : 0 < total) : filledTotal events ≤ total := by
  rcases life.filledTotal_add_left with ⟨sum, _⟩ | ⟨_, less, _⟩
  · rw [← sum]
    exact le_add_of_nonneg_right (life.left_nonneg positive)
  · exact less.le

theorem filledTotal_le_of_subperm (positive : 0 < total) (within : several.Subperm events) :
    filledTotal several ≤ total := by
  have nonneg : ∀ event ∈ events, 0 ≤ event.volume := by
    clear within positive
    induction life with
    | opened => exact List.forall_mem_singleton.mpr le_rfl
    | part _ above _ induction | final _ above induction =>
      exact List.forall_mem_append.mpr ⟨induction, List.forall_mem_singleton.mpr above.le⟩
    | cancelled _ _ induction =>
      exact List.forall_mem_append.mpr ⟨induction, List.forall_mem_singleton.mpr le_rfl⟩
  rcases within with ⟨same, perm, sublist⟩
  calc filledTotal several = filledTotal same := ((perm.map _).sum_eq).symm
    _ ≤ filledTotal events :=
        (sublist.map _).sum_le_sum (List.forall_mem_map.mpr nonneg)
    _ ≤ total := life.filledTotal_le positive

/-- The whole volume is filled exactly when some event was the last fill. -/
theorem filledTotal_eq_iff (positive : 0 < total) :
    filledTotal events = total ↔ ∃ volume, .final volume ∈ events := by
  constructor
  · intro whole
    cases life with
    | opened => simp [LifeEvent.volume] at whole; exact absurd positive (by simp [← whole])
    | part before partPositive less =>
      rcases (before.part partPositive less).filledTotal_add_left with
        ⟨sum, _⟩ | ⟨_, short, _⟩
      · rw [whole, add_eq_left, sub_eq_zero] at sum
        exact absurd sum less.ne'
      · exact absurd whole short.ne
    | @final left _ before stillOpen => exact ⟨left, by simp⟩
    | cancelled before stillOpen =>
      rcases (before.cancelled stillOpen).filledTotal_add_left with
        ⟨_, notCancelled⟩ | ⟨_, short, _⟩
      · simp at notCancelled
      · exact absurd whole short.ne
  · rintro ⟨volume, member⟩
    rcases life.filledTotal_add_left with ⟨sum, _⟩ | ⟨_, _, _, noFinal⟩
    · have leftZero : left = 0 := by
        by_contra nonzero
        have stillOpen := lt_of_le_of_ne (life.left_nonneg positive) (Ne.symm nonzero)
        simpa [LifeEvent.isEnd] using life.isEnd_eq_false stillOpen _ member
      simpa [leftZero] using sum
    · exact absurd member (noFinal volume)

end

end Life

end Life

end QAExchange.Foundation
