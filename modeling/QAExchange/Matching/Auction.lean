import Mathlib.Algebra.Order.BigOperators.Group.List
import Mathlib.Data.List.Dedup
import Mathlib.Data.List.MinMax
import Mathlib.Data.List.Sort
import Mathlib.Data.Rat.Floor
import QAExchange.Foundation.FieldNumerals

/-! # The price of a call auction

The calculator tries the prices of the orders, rounded to cents, and takes one at which the most
is traded.
-/

namespace QAExchange

structure AuctionResult where
  auctionPrice : ℚ
  auctionVolume : ℚ
  theoreticalPrice : Option ℚ
  unfilledBuyVolume : ℚ
  unfilledSellVolume : ℚ
  deriving DecidableEq

namespace AuctionCalculator

/-- Rounding away from zero at the half, and the cast to `i64`, which saturates. -/
def roundToI64 (value : ℚ) : ℤ :=
  max (-9223372036854775808) (min 9223372036854775807
    (if 0 ≤ value then ⌊value + 1 / 2⌋ else ⌈value - 1 / 2⌉))

/-- The `BTreeSet` of prices in cents, in ascending order. -/
def pricePoints (buyOrders sellOrders : List (ℚ × ℚ)) : List ℤ :=
  (((buyOrders ++ sellOrders).map fun order => roundToI64 (order.1 * 100)).dedup).insertionSort
    fun left right => left ≤ right

def volumeOf (orders : List (ℚ × ℚ)) : ℚ := (orders.map fun order => order.2).sum

def buyVolume (buyOrders : List (ℚ × ℚ)) (price : ℚ) : ℚ :=
  volumeOf (buyOrders.filter fun order => price ≤ order.1)

def sellVolume (sellOrders : List (ℚ × ℚ)) (price : ℚ) : ℚ :=
  volumeOf (sellOrders.filter fun order => order.1 ≤ price)

def matchVolume (buyOrders sellOrders : List (ℚ × ℚ)) (price : ℚ) : ℚ :=
  min (buyVolume buyOrders price) (sellVolume sellOrders price)

/-- The prices at which something is traded. The volumes that go with them follow from them. -/
def candidates (buyOrders sellOrders : List (ℚ × ℚ)) : List ℚ :=
  ((pricePoints buyOrders sellOrders).map fun priceInt : ℤ => (priceInt : ℚ) / 100).filter
    fun price => 0 < matchVolume buyOrders sellOrders price

def bestCandidates (buyOrders sellOrders : List (ℚ × ℚ)) : List ℚ :=
  let candidates := candidates buyOrders sellOrders
  match (candidates.map (matchVolume buyOrders sellOrders)).maximum with
  | ⊥ => []
  | (maxVolume : ℚ) => candidates.filter
      fun price => |matchVolume buyOrders sellOrders price - maxVolume| < 1 / 1000000

def choose (best : List ℚ) (referencePrice : Option ℚ) : Option ℚ :=
  if best.length = 1 then best.head?
  else
    match referencePrice with
    | some refPrice =>
      (best.insertionSort fun left right => |left - refPrice| ≤ |right - refPrice|).head?
    | none => best[best.length / 2]?

def resultAt (buyOrders sellOrders : List (ℚ × ℚ)) (auctionPrice : ℚ) : AuctionResult :=
  let auctionVolume := matchVolume buyOrders sellOrders auctionPrice
  { auctionPrice
    auctionVolume
    theoreticalPrice := some auctionPrice
    unfilledBuyVolume := buyVolume buyOrders auctionPrice - auctionVolume
    unfilledSellVolume := sellVolume sellOrders auctionPrice - auctionVolume }

def calculateAuctionPriceWithReference (buyOrders sellOrders : List (ℚ × ℚ))
    (referencePrice : Option ℚ) : Option AuctionResult :=
  if buyOrders = [] ∨ sellOrders = [] then none
  else
    (choose (bestCandidates buyOrders sellOrders) referencePrice).map
      (resultAt buyOrders sellOrders)

/-! ## Prices in cents -/

/-- The price is a number of cents that an `i64` holds. -/
def OnGrid (price : ℚ) : Prop :=
  ∃ cents : ℤ, -9223372036854775808 ≤ cents ∧ cents ≤ 9223372036854775807 ∧
    price = (cents : ℚ) / 100

theorem roundToI64_cents {cents : ℤ} (least : -9223372036854775808 ≤ cents)
    (most : cents ≤ 9223372036854775807) : roundToI64 ((cents : ℚ) / 100 * 100) = cents := by
  have floor : ⌊(1 / 2 : ℚ)⌋ = 0 := by norm_num
  have ceil : ⌈(-(1 / 2) : ℚ)⌉ = 0 := by norm_num
  rw [div_mul_cancel₀ _ (by norm_num), roundToI64, Int.floor_intCast_add, floor, sub_eq_add_neg,
    Int.ceil_intCast_add, ceil, add_zero, ite_self, min_eq_right most, max_eq_right least]

variable {buyOrders sellOrders orders : List (ℚ × ℚ)}

theorem mem_pricePoints : point ∈ pricePoints buyOrders sellOrders ↔
    ∃ order ∈ buyOrders ++ sellOrders, roundToI64 (order.1 * 100) = point := by
  rw [pricePoints, List.mem_insertionSort, List.mem_dedup, List.mem_map]

theorem mem_candidates (onGrid : ∀ order ∈ buyOrders ++ sellOrders, OnGrid order.1) :
    price ∈ candidates buyOrders sellOrders ↔
      0 < matchVolume buyOrders sellOrders price ∧
        ∃ order ∈ buyOrders ++ sellOrders, order.1 = price := by
  have sameCents : ∀ order ∈ buyOrders ++ sellOrders,
      ((roundToI64 (order.1 * 100) : ℤ) : ℚ) / 100 = order.1 := by
    intro order member
    rcases onGrid order member with ⟨cents, least, most, isCents⟩
    rw [isCents, roundToI64_cents least most]
  rw [candidates, List.mem_filter, decide_eq_true_eq, and_comm, List.mem_map]
  apply and_congr_right
  intro traded
  constructor
  · rintro ⟨point, member, rfl⟩
    rcases mem_pricePoints.mp member with ⟨order, isOrder, rfl⟩
    exact ⟨order, isOrder, (sameCents order isOrder).symm⟩
  · rintro ⟨order, isOrder, rfl⟩
    exact ⟨_, mem_pricePoints.mpr ⟨order, isOrder, rfl⟩, sameCents order isOrder⟩

theorem mem_bestCandidates : price ∈ bestCandidates buyOrders sellOrders ↔
    price ∈ candidates buyOrders sellOrders ∧ ∀ other ∈ candidates buyOrders sellOrders,
      matchVolume buyOrders sellOrders other - 1 / 1000000 <
        matchVolume buyOrders sellOrders price := by
  unfold bestCandidates
  dsimp only
  split
  next isBot =>
    have none := List.map_eq_nil_iff.mp (List.maximum_eq_bot.mp isBot)
    simp [none]
  next maxVolume isMax =>
    rcases List.maximum_eq_coe_iff.mp isMax with ⟨attained, bounded⟩
    rw [List.forall_mem_map] at bounded
    rw [List.mem_filter, decide_eq_true_eq]
    apply and_congr_right
    intro member
    have below := bounded price member
    rw [abs_sub_comm, abs_of_nonneg (by linarith)]
    constructor
    · intro near other isOther
      have := bounded other isOther
      linarith
    · intro near
      rcases List.mem_map.mp attained with ⟨other, isOther, same⟩
      have := near other isOther
      rw [same] at this
      linarith

theorem choose_isSome (referencePrice : Option ℚ) (some : best ≠ []) :
    (choose best referencePrice).isSome := by
  have isPos := List.length_pos_iff.mpr some
  unfold choose
  split_ifs
  · exact List.isSome_head?.mpr some
  · cases referencePrice with
    | none => exact Option.isSome_iff_exists.mpr ⟨_, List.getElem?_eq_getElem (by omega)⟩
    | some refPrice =>
      apply List.isSome_head?.mpr
      rwa [ne_eq, ← List.length_eq_zero_iff, List.length_insertionSort, List.length_eq_zero_iff]

theorem mem_of_choose (chosen : choose best referencePrice = some price) : price ∈ best := by
  unfold choose at chosen
  split_ifs at chosen
  · exact List.mem_of_mem_head? chosen
  · cases referencePrice with
    | none => exact List.mem_of_getElem? chosen
    | some refPrice => exact (List.mem_insertionSort _).mp (List.mem_of_mem_head? chosen)

theorem exists_maximum {values : List ℚ} (some : values ≠ []) :
    ∃ value ∈ values, ∀ other ∈ values, other ≤ value := by
  rcases WithBot.ne_bot_iff_exists.mp (List.maximum_ne_bot_of_ne_nil some) with ⟨value, isMax⟩
  exact ⟨value, List.maximum_eq_coe_iff.mp isMax.symm⟩

theorem volumeOf_filter_pos_iff (positive : ∀ order ∈ orders, 0 < order.2) (keep : ℚ × ℚ → Bool) :
    0 < volumeOf (orders.filter keep) ↔ ∃ order ∈ orders, keep order = true := by
  constructor
  · intro isPos
    by_contra none
    rw [List.filter_eq_nil_iff.mpr fun order member kept => none ⟨order, member, kept⟩] at isPos
    exact lt_irrefl 0 isPos
  · rintro ⟨order, member, kept⟩
    apply List.sum_pos
    · intro volume isVolume
      rcases List.mem_map.mp isVolume with ⟨other, isOther, rfl⟩
      exact positive other (List.mem_of_mem_filter isOther)
    · rw [ne_eq, List.map_eq_nil_iff]
      exact List.ne_nil_of_mem (List.mem_filter.mpr ⟨member, kept⟩)

theorem volumeOf_filter_le (positive : ∀ order ∈ orders, 0 < order.2)
    {keep more : ℚ × ℚ → Bool} (implies : ∀ order, keep order = true → more order = true) :
    volumeOf (orders.filter keep) ≤ volumeOf (orders.filter more) := by
  apply List.Sublist.sum_le_sum ((List.monotone_filter_right orders implies).map _)
  intro volume isVolume
  rcases List.mem_map.mp isVolume with ⟨other, isOther, rfl⟩
  exact (positive other (List.mem_of_mem_filter isOther)).le

section Positive

variable (positive : ∀ order ∈ buyOrders ++ sellOrders, 0 < order.2)

include positive

theorem matchVolume_pos_iff : 0 < matchVolume buyOrders sellOrders price ↔
    (∃ buy ∈ buyOrders, price ≤ buy.1) ∧ ∃ sell ∈ sellOrders, sell.1 ≤ price := by
  rw [List.forall_mem_append] at positive
  rw [matchVolume, lt_min_iff, buyVolume, sellVolume, volumeOf_filter_pos_iff positive.1,
    volumeOf_filter_pos_iff positive.2]
  simp only [decide_eq_true_eq]

theorem exists_sell_price (traded : 0 < matchVolume buyOrders sellOrders price) :
    ∃ sell ∈ sellOrders, matchVolume buyOrders sellOrders price ≤
      matchVolume buyOrders sellOrders sell.1 := by
  rcases (matchVolume_pos_iff positive).mp traded with ⟨_, first, isFirst, firstBelow⟩
  let below := (sellOrders.filter fun order => order.1 ≤ price).map fun order => order.1
  have some : below ≠ [] := List.ne_nil_of_mem
    (List.mem_map_of_mem (List.mem_filter.mpr ⟨isFirst, decide_eq_true firstBelow⟩))
  rcases exists_maximum some with ⟨highest, attained, bounded⟩
  rcases List.mem_map.mp attained with ⟨sell, member, rfl⟩
  rcases List.mem_filter.mp member with ⟨isSell, sellBelow⟩
  have sellBelow := of_decide_eq_true sellBelow
  rw [List.forall_mem_append] at positive
  refine ⟨sell, isSell, min_le_min ?_ ?_⟩
  · apply volumeOf_filter_le positive.1
    intro order above
    exact decide_eq_true (sellBelow.trans (of_decide_eq_true above))
  · apply le_of_eq
    rw [sellVolume, sellVolume]
    congr 1
    apply List.filter_congr
    intro order isOrder
    rw [decide_eq_decide]
    constructor
    · intro orderBelow
      exact bounded _ (List.mem_map_of_mem
        (List.mem_filter.mpr ⟨isOrder, decide_eq_true orderBelow⟩))
    · intro atMost
      exact atMost.trans sellBelow

end Positive

/-! ## The result -/

theorem bestCandidates_ne_nil (some : candidates buyOrders sellOrders ≠ []) :
    bestCandidates buyOrders sellOrders ≠ [] := by
  have volumes := List.map_eq_nil_iff (f := matchVolume buyOrders sellOrders).not.mpr some
  rcases exists_maximum volumes with ⟨maxVolume, attained, bounded⟩
  rcases List.mem_map.mp attained with ⟨price, member, rfl⟩
  rw [List.forall_mem_map] at bounded
  refine List.ne_nil_of_mem (mem_bestCandidates.mpr ⟨member, ?_⟩)
  intro other isOther
  have := bounded other isOther
  linarith

theorem calculate_eq_some (found : calculateAuctionPriceWithReference buyOrders sellOrders
      referencePrice = some result) :
    ∃ price, choose (bestCandidates buyOrders sellOrders) referencePrice = some price ∧
      result = resultAt buyOrders sellOrders price := by
  unfold calculateAuctionPriceWithReference at found
  split_ifs at found
  rcases Option.map_eq_some_iff.mp found with ⟨price, chosen, rfl⟩
  exact ⟨price, chosen, rfl⟩

variable (onGrid : ∀ order ∈ buyOrders ++ sellOrders, OnGrid order.1)
  (positive : ∀ order ∈ buyOrders ++ sellOrders, 0 < order.2)

include onGrid positive

theorem calculate_eq_none_iff (referencePrice : Option ℚ) :
    calculateAuctionPriceWithReference buyOrders sellOrders referencePrice = none ↔
      ¬ ∃ buy ∈ buyOrders, ∃ sell ∈ sellOrders, sell.1 ≤ buy.1 := by
  constructor
  · rintro isNone ⟨buy, isBuy, sell, isSell, crosses⟩
    have member : sell.1 ∈ candidates buyOrders sellOrders :=
      (mem_candidates onGrid).mpr ⟨(matchVolume_pos_iff positive).mpr
        ⟨⟨buy, isBuy, crosses⟩, sell, isSell, le_rfl⟩,
        sell, List.mem_append_right _ isSell, rfl⟩
    have chosen := choose_isSome referencePrice
      (bestCandidates_ne_nil (List.ne_nil_of_mem member))
    rw [calculateAuctionPriceWithReference, if_neg, Option.map_eq_none_iff] at isNone
    · rw [isNone] at chosen
      cases chosen
    · rintro (none | none)
      · exact List.ne_nil_of_mem isBuy none
      · exact List.ne_nil_of_mem isSell none
  · intro crossesNot
    rw [Option.eq_none_iff_forall_ne_some]
    intro result found
    rcases calculate_eq_some found with ⟨price, chosen, _⟩
    have member := (mem_bestCandidates.mp (mem_of_choose chosen)).1
    rcases (matchVolume_pos_iff positive).mp ((mem_candidates onGrid).mp member).1 with
      ⟨⟨buy, isBuy, above⟩, sell, isSell, below⟩
    exact crossesNot ⟨buy, isBuy, sell, isSell, below.trans above⟩

theorem matchVolume_lt_of_best (best : price ∈ bestCandidates buyOrders sellOrders)
    (other : ℚ) : matchVolume buyOrders sellOrders other <
      matchVolume buyOrders sellOrders price + 1 / 1000000 := by
  rcases mem_bestCandidates.mp best with ⟨member, near⟩
  have traded := ((mem_candidates onGrid).mp member).1
  by_cases otherTraded : 0 < matchVolume buyOrders sellOrders other
  · rcases exists_sell_price positive otherTraded with ⟨sell, isSell, asMuch⟩
    have := near sell.1 ((mem_candidates onGrid).mpr
      ⟨otherTraded.trans_le asMuch, sell, List.mem_append_right _ isSell, rfl⟩)
    linarith
  · linarith [not_lt.mp otherTraded]

/-- For prices on the grid, orders that cross are matched, and no price trades more than what is
traded but for the tolerance. -/
theorem calculate_nearly_maximal (referencePrice : Option ℚ) :
    (calculateAuctionPriceWithReference buyOrders sellOrders referencePrice = none ↔
      ¬ ∃ buy ∈ buyOrders, ∃ sell ∈ sellOrders, sell.1 ≤ buy.1) ∧
    ∀ result, calculateAuctionPriceWithReference buyOrders sellOrders referencePrice =
        some result →
      result.auctionVolume = matchVolume buyOrders sellOrders result.auctionPrice ∧
        ∀ price, matchVolume buyOrders sellOrders price < result.auctionVolume + 1 / 1000000 := by
  refine ⟨calculate_eq_none_iff onGrid positive referencePrice, ?_⟩
  intro result found
  rcases calculate_eq_some found with ⟨price, chosen, rfl⟩
  exact ⟨rfl, matchVolume_lt_of_best onGrid positive (mem_of_choose chosen)⟩

omit onGrid positive

/-- Two prices at which nearly the same is traded: the one nearest to the reference is taken. -/
theorem calculate_below_maximum :
    ¬ ∀ (buyOrders sellOrders : List (ℚ × ℚ)) (referencePrice : Option ℚ),
      buyOrders ≠ [] → sellOrders ≠ [] →
      (∀ order ∈ buyOrders ++ sellOrders, 0 < order.1 ∧ 0 < order.2) →
      (calculateAuctionPriceWithReference buyOrders sellOrders referencePrice = none ↔
        ¬ ∃ buy ∈ buyOrders, ∃ sell ∈ sellOrders, sell.1 ≤ buy.1) ∧
      ∀ result, calculateAuctionPriceWithReference buyOrders sellOrders referencePrice =
          some result →
        result.auctionVolume = matchVolume buyOrders sellOrders result.auctionPrice ∧
          ∀ price, matchVolume buyOrders sellOrders price ≤ result.auctionVolume := by
  intro claim
  have optimal := (claim [(2, 2)] [(1, 1), (2, 1 / 2000000)] (some 1) (by decide) (by decide)
    (by decide +kernel)).2 (resultAt [(2, 2)] [(1, 1), (2, 1 / 2000000)] 1) (by decide +kernel)
  exact absurd (optimal.2 2) (by decide +kernel)

def oneBuyer : List (ℚ × ℚ) := [(100, 200)]

def oneSeller : List (ℚ × ℚ) := [(97, 100)]

theorem oneBuyer_onGrid : ∀ order ∈ oneBuyer ++ oneSeller, OnGrid order.1 := by
  rw [oneBuyer, oneSeller, List.forall_mem_append, List.forall_mem_singleton,
    List.forall_mem_singleton]
  exact ⟨⟨10000, by norm_num⟩, 9700, by norm_num⟩

theorem oneBuyer_matched :
    calculateAuctionPriceWithReference oneBuyer oneSeller none ≠ none ∧
      ∀ result, calculateAuctionPriceWithReference oneBuyer oneSeller none = some result →
        ∀ price, matchVolume oneBuyer oneSeller price < result.auctionVolume + 1 / 1000000 := by
  have nearly := calculate_nearly_maximal oneBuyer_onGrid (by decide +kernel) none
  exact ⟨by decide +kernel, fun result found => (nearly.2 result found).2⟩

end AuctionCalculator

end QAExchange
