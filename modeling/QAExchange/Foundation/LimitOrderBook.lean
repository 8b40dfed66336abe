import Mathlib.Algebra.Order.BigOperators.Group.List
import Mathlib.Algebra.Order.Group.Defs
import Mathlib.Tactic.Abel

/-! # Price-time priority

A limit order book over arbitrary identifiers, prices and volumes. Each side
is a queue, best price first and oldest order first within a price. An incoming
order sweeps the opposite queue from its front and joins its own queue with
what is left.
-/

namespace QAExchange.Foundation

inductive Side
  | buy
  | sell
  deriving DecidableEq

namespace Side

def opposite : Side → Side
  | .buy => .sell
  | .sell => .buy

@[simp] theorem opposite_opposite (side : Side) : side.opposite.opposite = side := by
  cases side <;> rfl

theorem eq_or_eq_opposite (side other : Side) : other = side ∨ other = side.opposite := by
  cases side <;> cases other <;> simp [opposite]

theorem opposite_ne (side : Side) : side.opposite ≠ side := by
  cases side <;> simp [opposite]

section Ahead

variable {Price : Type} [LinearOrder Price]

/-- In the queue of `side`, price `first` is at least as good as `second`. -/
def Ahead : Side → Price → Price → Prop
  | .buy, first, second => second ≤ first
  | .sell, first, second => first ≤ second

instance (side : Side) (first second : Price) : Decidable (side.Ahead first second) :=
  match side with
  | .buy => inferInstanceAs (Decidable (second ≤ first))
  | .sell => inferInstanceAs (Decidable (first ≤ second))

theorem Ahead.trans {side : Side} {first second third : Price}
    (left : side.Ahead first second) (right : side.Ahead second third) :
    side.Ahead first third := by
  cases side
  · exact le_trans (α := Price) right left
  · exact le_trans (α := Price) left right

theorem Ahead.total (side : Side) (first second : Price) :
    side.Ahead first second ∨ side.Ahead second first := by
  cases side
  · exact le_total second first
  · exact le_total first second

/-- An order on `side` with this limit may trade at the resting `price`. -/
def Accepts (side : Side) (limit price : Price) : Prop := side.opposite.Ahead price limit

instance (side : Side) (limit price : Price) : Decidable (side.Accepts limit price) :=
  inferInstanceAs (Decidable (side.opposite.Ahead price limit))

@[simp] theorem accepts_buy (limit price : Price) :
    Side.buy.Accepts limit price ↔ price ≤ limit := Iff.rfl

@[simp] theorem accepts_sell (limit price : Price) :
    Side.sell.Accepts limit price ↔ limit ≤ price := Iff.rfl

end Ahead

end Side

structure Resting (Id Price Volume : Type) where
  id : Id
  price : Price
  volume : Volume
  deriving DecidableEq

/-- One match of an incoming order with a resting one, at the resting price.
`remains` is the volume that the resting order keeps. -/
structure Match (Id Price Volume : Type) where
  maker : Id
  price : Price
  volume : Volume
  remains : Volume

/-- Result of sweeping a queue: the matches in order, what stays in the queue
and the volume of the incoming order that found no match. -/
structure Sweep (Id Price Volume : Type) where
  matches' : List (Match Id Price Volume)
  queue : List (Resting Id Price Volume)
  left : Volume

section Queue

variable {Id Price Volume : Type} [LinearOrder Price]

def enqueue (side : Side) (order : Resting Id Price Volume) :
    List (Resting Id Price Volume) → List (Resting Id Price Volume)
  | [] => [order]
  | first :: rest =>
    if side.Ahead first.price order.price then first :: enqueue side order rest
    else order :: first :: rest

theorem mem_enqueue {side : Side} {order other : Resting Id Price Volume}
    {queue : List (Resting Id Price Volume)} :
    other ∈ enqueue side order queue ↔ other = order ∨ other ∈ queue := by
  induction queue with
  | nil => simp [enqueue]
  | cons first rest induction =>
    simp only [enqueue]
    split
    · rw [List.mem_cons, induction, List.mem_cons]
      tauto
    · simp

theorem enqueue_perm (side : Side) (order : Resting Id Price Volume)
    (queue : List (Resting Id Price Volume)) :
    (enqueue side order queue).Perm (order :: queue) := by
  induction queue with
  | nil => exact .refl _
  | cons first rest induction =>
    simp only [enqueue]
    split
    · exact (induction.cons first).trans (.swap order first rest)
    · exact .refl _

variable [AddCommGroup Volume] [LinearOrder Volume]

/-- Match an order on `side` against the front of the opposite queue for as
long as the front price is acceptable and volume is left. -/
def sweep (side : Side) (limit : Price) (left : Volume) :
    List (Resting Id Price Volume) → Sweep Id Price Volume
  | [] => ⟨[], [], left⟩
  | order :: rest =>
    if side.Accepts limit order.price then
      if left < order.volume then
        ⟨[⟨order.id, order.price, left, order.volume - left⟩],
          { order with volume := order.volume - left } :: rest, 0⟩
      else if left = order.volume then
        ⟨[⟨order.id, order.price, order.volume, 0⟩], rest, 0⟩
      else
        let later := sweep side limit (left - order.volume) rest
        ⟨⟨order.id, order.price, order.volume, 0⟩ :: later.matches', later.queue, later.left⟩
    else
      ⟨[], order :: rest, left⟩

/-- Volume resting at prices that an order on `side` accepts. -/
def available (side : Side) (limit : Price) (queue : List (Resting Id Price Volume)) : Volume :=
  ((queue.filter fun order => side.Accepts limit order.price).map Resting.volume).sum

structure IsQueue (side : Side) (queue : List (Resting Id Price Volume)) : Prop where
  sorted : queue.Pairwise fun first second => side.Ahead first.price second.price
  positive : ∀ order ∈ queue, 0 < order.volume

namespace IsQueue

variable {side : Side} {queue rest : List (Resting Id Price Volume)}
  {order : Resting Id Price Volume}

theorem nil (side : Side) : IsQueue side ([] : List (Resting Id Price Volume)) :=
  ⟨.nil, by simp⟩

theorem tail (isQueue : IsQueue side (order :: rest)) : IsQueue side rest :=
  ⟨(List.pairwise_cons.mp isQueue.sorted).2, fun other member =>
    isQueue.positive other (List.mem_cons_of_mem _ member)⟩

theorem not_accepts {limit : Price} (isQueue : IsQueue side.opposite (order :: rest))
    (refused : ¬side.Accepts limit order.price) :
    ∀ other ∈ rest, ¬side.Accepts limit other.price := by
  intro other member accepted
  exact refused (((List.pairwise_cons.mp isQueue.sorted).1 other member).trans accepted)

end IsQueue

theorem IsQueue.enqueue {side : Side} {queue : List (Resting Id Price Volume)}
    {order : Resting Id Price Volume} (isQueue : IsQueue side queue)
    (positive : 0 < order.volume) : IsQueue side (Foundation.enqueue side order queue) := by
  refine ⟨?_, ?_⟩
  · induction queue with
    | nil => simp [Foundation.enqueue]
    | cons first rest induction =>
      rcases List.pairwise_cons.mp isQueue.sorted with ⟨firstAhead, _⟩
      simp only [Foundation.enqueue]
      split
      · rename_i ahead
        refine List.pairwise_cons.mpr ⟨?_, induction isQueue.tail⟩
        intro other member
        rcases mem_enqueue.mp member with rfl | member
        · exact ahead
        · exact firstAhead other member
      · rename_i notAhead
        have orderAhead : side.Ahead order.price first.price :=
          (Side.Ahead.total side _ _).resolve_left notAhead
        refine List.pairwise_cons.mpr ⟨?_, isQueue.sorted⟩
        intro other member
        rcases List.mem_cons.mp member with rfl | member
        · exact orderAhead
        · exact orderAhead.trans (firstAhead other member)
  · intro other member
    rcases mem_enqueue.mp member with rfl | member
    · exact positive
    · exact isQueue.positive other member

/-! ## Sweeping -/

section Sweeping

variable {side : Side} {limit : Price}

variable {left : Volume} {queue : List (Resting Id Price Volume)}

theorem mem_sweep_queue (member : order ∈ (sweep side limit left queue).queue) :
    ∃ before ∈ queue, before.id = order.id ∧ before.price = order.price := by
  induction queue generalizing left with
  | nil => simp [sweep] at member
  | cons first rest induction =>
    simp only [sweep] at member
    split_ifs at member
    · rcases List.mem_cons.mp member with rfl | member
      · exact ⟨first, by simp, rfl, rfl⟩
      · exact ⟨order, by simp [member], rfl, rfl⟩
    · exact ⟨order, by simp [member], rfl, rfl⟩
    · rcases induction member with ⟨before, beforeMem, same⟩
      exact ⟨before, by simp [beforeMem], same⟩
    · exact ⟨order, member, rfl, rfl⟩

theorem sweep_of_not_accepts (refused : ∀ order ∈ queue, ¬side.Accepts limit order.price) :
    sweep side limit left queue = ⟨[], queue, left⟩ := by
  cases queue with
  | nil => rfl
  | cons first rest => simp [sweep, refused first (by simp)]

/-- A sweep has a match if and only if some resting price is acceptable. -/
theorem sweep_matches_eq_nil_iff (limit : Price) (left : Volume)
    (isQueue : IsQueue side.opposite queue) : (sweep side limit left queue).matches' = [] ↔
      ∀ order ∈ queue, ¬side.Accepts limit order.price := by
  constructor
  · intro none
    cases queue with
    | nil => simp
    | cons first rest =>
      have refused : ¬side.Accepts limit first.price := by
        intro accepted
        rw [sweep, if_pos accepted] at none
        split_ifs at none
      intro order member
      rcases List.mem_cons.mp member with rfl | later
      · exact refused
      · exact isQueue.not_accepts refused order later
  · intro refused
    rw [sweep_of_not_accepts refused]

/-- A sweep only takes orders out of the queue. -/
theorem sweep_queue_ids (queue : List (Resting Id Price Volume)) :
    ((sweep side limit left queue).queue.map Resting.id).Sublist (queue.map Resting.id) := by
  induction queue generalizing left with
  | nil => exact .refl _
  | cons first rest induction =>
    simp only [sweep]
    split_ifs
    · exact .refl _
    · exact .cons _ (.refl _)
    · exact .cons _ induction
    · exact .refl _

/-- A resting order stays as it is, unless it has a match. Once its volume is
matched it is gone. -/
theorem sweep_order (side : Side) (limit : Price) (left : Volume)
    (nodup : (queue.map Resting.id).Nodup) (member : order ∈ queue) :
    order ∈ (sweep side limit left queue).queue ∨
      ∃ found ∈ (sweep side limit left queue).matches', found.maker = order.id ∧
        (found.remains = 0 → order.id ∉ (sweep side limit left queue).queue.map Resting.id) := by
  induction queue generalizing left with
  | nil => simp at member
  | cons first rest induction =>
    rw [List.map_cons, List.nodup_cons] at nodup
    simp only [sweep]
    split_ifs with _ less
    · rcases List.mem_cons.mp member with rfl | member
      · refine .inr ⟨_, List.mem_singleton_self _, rfl, fun whole => ?_⟩
        exact absurd (sub_eq_zero.mp whole) less.ne'
      · exact .inl (List.mem_cons_of_mem _ member)
    · rcases List.mem_cons.mp member with rfl | member
      · exact .inr ⟨_, List.mem_singleton_self _, rfl, fun _ => nodup.1⟩
      · exact .inl member
    · rcases List.mem_cons.mp member with rfl | member
      · refine .inr ⟨_, List.mem_cons_self, rfl, fun _ stays => ?_⟩
        exact nodup.1 ((sweep_queue_ids rest).subset stays)
      · rcases induction (left - first.volume) nodup.2 member with
          stays | ⟨found, isMatch, rest⟩
        · exact .inl stays
        · exact .inr ⟨found, List.mem_cons_of_mem _ isMatch, rest⟩
    · exact .inl member

theorem sweep_left_nonneg [IsOrderedAddMonoid Volume] (side : Side) (limit : Price)
    (queue : List (Resting Id Price Volume)) (nonneg : 0 ≤ left) :
    0 ≤ (sweep side limit left queue).left := by
  induction queue generalizing left with
  | nil => exact nonneg
  | cons first rest induction =>
    simp only [sweep]
    split_ifs with _ less
    · exact le_rfl
    · exact le_rfl
    · exact induction (sub_nonneg.mpr (not_lt.mp less))
    · exact nonneg

variable [IsOrderedAddMonoid Volume]

theorem IsQueue.sweep (isQueue : IsQueue kind queue) :
    IsQueue kind (Foundation.sweep side limit left queue).queue := by
  induction queue generalizing left with
  | nil => exact isQueue
  | cons first rest induction =>
    rcases List.pairwise_cons.mp isQueue.sorted with ⟨firstAhead, restSorted⟩
    simp only [Foundation.sweep]
    split_ifs with accepted less
    · refine ⟨List.pairwise_cons.mpr ⟨firstAhead, restSorted⟩, ?_⟩
      intro order member
      rcases List.mem_cons.mp member with rfl | member
      · exact sub_pos.mpr less
      · exact isQueue.positive order (by simp [member])
    · exact isQueue.tail
    · exact induction isQueue.tail
    · exact isQueue

theorem available_nonneg (isQueue : IsQueue kind queue) : 0 ≤ available side limit queue := by
  apply List.sum_nonneg
  intro volume member
  rcases List.mem_map.mp member with ⟨order, orderMem, rfl⟩
  exact (isQueue.positive order (List.mem_filter.mp orderMem).1).le

theorem sweep_left (isQueue : IsQueue side.opposite queue) (nonneg : 0 ≤ left) :
    (sweep side limit left queue).left = left - min left (available side limit queue) := by
  induction queue generalizing left with
  | nil => simp [sweep, available, nonneg]
  | cons first rest induction =>
    have restNonneg : 0 ≤ available side limit rest := available_nonneg isQueue.tail
    by_cases accepted : side.Accepts limit first.price
    · have total : available side limit (first :: rest) =
          first.volume + available side limit rest := by
        simp [available, accepted]
      rw [total]
      simp only [sweep, accepted, if_true]
      split_ifs with less same
      · have enough : left ≤ first.volume + available side limit rest :=
          less.le.trans (le_add_of_nonneg_right restNonneg)
        rw [min_eq_left enough, sub_self]
      · rw [same, min_eq_left (le_add_of_nonneg_right restNonneg), sub_self]
      · have bigger : first.volume ≤ left := not_lt.mp less
        rw [induction isQueue.tail (sub_nonneg.mpr bigger)]
        rcases le_total left (first.volume + available side limit rest) with enough | short
        · rw [min_eq_left enough, min_eq_left (sub_le_iff_le_add'.mpr enough)]
          abel
        · rw [min_eq_right short, min_eq_right (le_sub_iff_add_le'.mpr short)]
          abel
    · have none := isQueue.not_accepts accepted
      have empty : available side limit (first :: rest) = 0 := by
        have filtered : (first :: rest).filter
            (fun order => decide (side.Accepts limit order.price)) = [] := by
          rw [List.filter_eq_nil_iff]
          intro order member
          rcases List.mem_cons.mp member with rfl | member
          · simpa using accepted
          · simpa using none order member
        simp [available, filtered]
      simp [sweep, accepted, empty, nonneg]

end Sweeping

end Queue

end QAExchange.Foundation
