import QAExchange.Matching.Auction

/-! # The rules of a call auction

Of the prices that trade the most, the one that leaves nobody aside who asked for a better price
and that lies next to the reference is to be taken. The calculator looks at the volume alone.
-/

namespace QAExchange.AuctionCalculator

def Fits (buyOrders sellOrders : List (ℚ × ℚ)) (price : ℚ) : Prop :=
  volumeOf (buyOrders.filter fun order => price < order.1) ≤
      matchVolume buyOrders sellOrders price ∧
    volumeOf (sellOrders.filter fun order => order.1 < price) ≤
      matchVolume buyOrders sellOrders price

structure Good (admitted : ℚ → Prop) (buyOrders sellOrders : List (ℚ × ℚ)) (price : ℚ) :
    Prop where
  isAdmitted : admitted price
  trades : 0 < matchVolume buyOrders sellOrders price
  maximal : ∀ other, matchVolume buyOrders sellOrders other ≤
    matchVolume buyOrders sellOrders price
  fits : Fits buyOrders sellOrders price
  oneSideFilled : buyVolume buyOrders price = matchVolume buyOrders sellOrders price ∨
    sellVolume sellOrders price = matchVolume buyOrders sellOrders price

structure ObeysRules (admitted : ℚ → Prop) (buyOrders sellOrders : List (ℚ × ℚ))
    (referencePrice : Option ℚ) (result : AuctionResult) : Prop where
  fits : Fits buyOrders sellOrders result.auctionPrice
  oneSideFilled : result.unfilledBuyVolume = 0 ∨ result.unfilledSellVolume = 0
  closest : ∀ refPrice, referencePrice = some refPrice →
    Good admitted buyOrders sellOrders result.auctionPrice ∧
      ∀ other, Good admitted buyOrders sellOrders other →
        |result.auctionPrice - refPrice| ≤ |other - refPrice|

def nearBest (buyOrders sellOrders : List (ℚ × ℚ)) : List ℚ :=
  ((buyOrders ++ sellOrders).map fun order => order.1).dedup.filter fun price =>
    0 < matchVolume buyOrders sellOrders price ∧ ∀ order ∈ buyOrders ++ sellOrders,
      matchVolume buyOrders sellOrders order.1 - 1 / 1000000 <
        matchVolume buyOrders sellOrders price

/-- One price lies nearer to the reference than another, or it is the lower one of two that lie
as near. -/
def Precedes (refPrice price other : ℚ) : Prop :=
  |price - refPrice| < |other - refPrice| ∨
    |price - refPrice| = |other - refPrice| ∧ price < other

/-- A price that breaks the rules is not the one that the tie-break finds: a good one precedes it,
or, without a reference, it does not stand in the middle. -/
def TieBreaks (admitted : ℚ → Prop) (buyOrders sellOrders : List (ℚ × ℚ)) :
    Option ℚ → Prop
  | some refPrice =>
    (∀ price ∈ nearBest buyOrders sellOrders, ¬ Good admitted buyOrders sellOrders price →
      ∃ good ∈ nearBest buyOrders sellOrders,
        Good admitted buyOrders sellOrders good ∧ Precedes refPrice good price) ∧
    ∀ other, Good admitted buyOrders sellOrders other →
      ∃ good ∈ nearBest buyOrders sellOrders, Good admitted buyOrders sellOrders good ∧
        |good - refPrice| ≤ |other - refPrice|
  | none => ∀ price ∈ nearBest buyOrders sellOrders, ¬ Fits buyOrders sellOrders price →
      ((nearBest buyOrders sellOrders).filter fun other => other < price).length ≠
        (nearBest buyOrders sellOrders).length / 2

theorem precedes_trichotomy (refPrice price other : ℚ) :
    Precedes refPrice price other ∨ price = other ∨ Precedes refPrice other price := by
  rcases lt_trichotomy |price - refPrice| |other - refPrice| with less | same | more
  · exact .inl (.inl less)
  · rcases lt_trichotomy price other with less | equal | more
    · exact .inl (.inr ⟨same, less⟩)
    · exact .inr (.inl equal)
    · exact .inr (.inr (.inr ⟨same.symm, more⟩))
  · exact .inr (.inr (.inl more))

variable {best : List ℚ}

theorem choose_reference (ascending : best.Pairwise fun left right => left < right)
    (chosen : choose best (some refPrice) = some price) :
    ∀ other ∈ best, ¬ Precedes refPrice other price := by
  have member := mem_of_choose chosen
  unfold choose at chosen
  split_ifs at chosen with one
  · rcases List.length_eq_one_iff.mp one with ⟨only, rfl⟩
    intro other isOther
    rw [List.mem_singleton.mp isOther, List.mem_singleton.mp member]
    rintro (less | ⟨_, less⟩) <;> exact lt_irrefl _ less
  · dsimp only at chosen
    let nearer := fun left right : ℚ => |left - refPrice| ≤ |right - refPrice|
    rcases List.head?_eq_some_iff.mp chosen with ⟨rest, isSorted⟩
    have : Std.Total nearer := ⟨fun _ _ => le_total _ _⟩
    have : IsTrans ℚ nearer := ⟨fun _ _ _ first second => le_trans first second⟩
    have sorted := List.pairwise_insertionSort nearer best
    rw [isSorted, List.pairwise_cons] at sorted
    rintro other isOther (less | ⟨same, less⟩)
    · have inSorted := (List.mem_insertionSort nearer).mpr isOther
      rw [isSorted] at inSorted
      rcases List.mem_cons.mp inSorted with rfl | inRest
      · exact lt_irrefl _ less
      · exact not_le.mpr less (sorted.1 other inRest)
    · -- the sort is stable, so the lower one of two that lie as near comes first
      have stays : [other, price].Sublist (price :: rest) := by
        rw [← isSorted]
        refine List.pair_sublist_insertionSort same.le ?_
        rcases List.append_of_mem isOther with ⟨lower, higher, rfl⟩
        rcases List.pairwise_append.mp ascending with ⟨_, _, between⟩
        rcases List.mem_append.mp member with isLower | isHigher
        · exact absurd less (between price isLower other List.mem_cons_self).not_gt
        · have isLater := List.mem_of_ne_of_mem less.ne' isHigher
          exact ((List.singleton_sublist.mpr isLater).cons_cons other).trans
            (List.sublist_append_right _ _)
      have nodup : (price :: rest).Nodup := by
        rw [← isSorted]
        exact (List.perm_insertionSort _ _).nodup_iff.mpr (ascending.imp fun less => less.ne)
      cases stays with
      | cons _ later => exact (List.nodup_cons.mp nodup).1 (later.subset (by simp))
      | cons_cons => exact lt_irrefl _ less

theorem length_filter_lt (ascending : best.Pairwise fun left right => left < right)
    (isAt : best[index]? = some price) :
    (best.filter fun other => other < price).length = index := by
  induction best generalizing index with
  | nil => cases isAt
  | cons first rest induction =>
    rcases List.pairwise_cons.mp ascending with ⟨smaller, restAscending⟩
    cases index with
    | zero =>
      cases isAt
      rw [List.length_eq_zero_iff, List.filter_eq_nil_iff]
      intro other member
      rw [decide_eq_true_eq, not_lt]
      rcases List.mem_cons.mp member with rfl | isLater
      · exact le_rfl
      · exact (smaller other isLater).le
    | succ index =>
      rw [List.getElem?_cons_succ] at isAt
      have below := smaller price (List.mem_of_getElem? isAt)
      rw [List.filter_cons, if_pos (decide_eq_true below), List.length_cons,
        induction restAscending isAt]

theorem choose_none : choose best none = best[best.length / 2]? := by
  unfold choose
  split_ifs with one
  · rw [one, List.head?_eq_getElem?]
  · rfl

/-! ## The rules -/

variable {buyOrders sellOrders : List (ℚ × ℚ)}

theorem ascending_bestCandidates :
    (bestCandidates buyOrders sellOrders).Pairwise fun left right => left < right := by
  have points : (pricePoints buyOrders sellOrders).Pairwise fun left right => left < right := by
    have nodup : (pricePoints buyOrders sellOrders).Nodup :=
      (List.perm_insertionSort _ _).nodup_iff.mpr (List.nodup_dedup _)
    exact ((List.pairwise_insertionSort _ _).and nodup).imp fun both => lt_of_le_of_ne both.1 both.2
  have ascending : (candidates buyOrders sellOrders).Pairwise fun left right => left < right := by
    refine List.Pairwise.filter _ (List.Pairwise.map _ ?_ points)
    intro left right less
    exact div_lt_div_of_pos_right (Int.cast_lt.mpr less) (by norm_num)
  unfold bestCandidates
  dsimp only
  split
  · exact .nil
  · exact ascending.filter _

section Rules

variable (onGrid : ∀ order ∈ buyOrders ++ sellOrders, OnGrid order.1)
  (positive : ∀ order ∈ buyOrders ++ sellOrders, 0 < order.2)

include onGrid

theorem nearBest_perm :
    (nearBest buyOrders sellOrders).Perm (bestCandidates buyOrders sellOrders) := by
  apply (List.perm_ext_iff_of_nodup ((List.nodup_dedup _).filter _)
    (ascending_bestCandidates.imp fun less => less.ne)).mpr
  intro price
  rw [mem_bestCandidates, mem_candidates onGrid, List.mem_filter, List.mem_dedup, List.mem_map,
    decide_eq_true_eq]
  constructor
  · rintro ⟨isOrder, traded, near⟩
    refine ⟨⟨traded, isOrder⟩, ?_⟩
    intro other isOther
    rcases ((mem_candidates onGrid).mp isOther).2 with ⟨order, member, rfl⟩
    exact near order member
  · rintro ⟨⟨traded, isOrder⟩, near⟩
    refine ⟨isOrder, traded, ?_⟩
    intro order member
    by_cases otherTraded : 0 < matchVolume buyOrders sellOrders order.1
    · exact near order.1 ((mem_candidates onGrid).mpr ⟨otherTraded, order, member, rfl⟩)
    · linarith [not_lt.mp otherTraded]

include positive

theorem calculate_of_choose
    (chosen : choose (bestCandidates buyOrders sellOrders) referencePrice = some price) :
    calculateAuctionPriceWithReference buyOrders sellOrders referencePrice =
      some (resultAt buyOrders sellOrders price) := by
  have member := (mem_bestCandidates.mp (mem_of_choose chosen)).1
  rcases (matchVolume_pos_iff positive).mp ((mem_candidates onGrid).mp member).1 with
    ⟨⟨buy, isBuy, _⟩, sell, isSell, _⟩
  rw [calculateAuctionPriceWithReference, if_neg, chosen, Option.map_some]
  rintro (none | none)
  · exact List.ne_nil_of_mem isBuy none
  · exact List.ne_nil_of_mem isSell none

theorem bestCandidates_ne_nil_of_trades (trades : 0 < matchVolume buyOrders sellOrders price) :
    bestCandidates buyOrders sellOrders ≠ [] := by
  rcases exists_sell_price positive trades with ⟨sell, isSell, asMuch⟩
  exact bestCandidates_ne_nil (List.ne_nil_of_mem ((mem_candidates onGrid).mpr
    ⟨trades.trans_le asMuch, sell, List.mem_append_right _ isSell, rfl⟩))

/-- What is returned obeys the rules exactly if the tie-break does not end at a price that breaks
them. -/
theorem obeysRules_iff (admitted : ℚ → Prop) (referencePrice : Option ℚ) :
    (∀ result, calculateAuctionPriceWithReference buyOrders sellOrders referencePrice =
        some result → ObeysRules admitted buyOrders sellOrders referencePrice result) ↔
      TieBreaks admitted buyOrders sellOrders referencePrice := by
  have perm := nearBest_perm onGrid
  have oneSide : ∀ price, (resultAt buyOrders sellOrders price).unfilledBuyVolume = 0 ∨
      (resultAt buyOrders sellOrders price).unfilledSellVolume = 0 := by
    intro price
    rw [resultAt, sub_eq_zero, sub_eq_zero]
    exact (min_choice _ _).imp Eq.symm Eq.symm
  cases referencePrice with
  | none =>
    have count : ∀ price,
        ((nearBest buyOrders sellOrders).filter fun other => other < price).length =
          ((bestCandidates buyOrders sellOrders).filter fun other => other < price).length :=
      fun price => (perm.filter _).length_eq
    constructor
    · intro rules price member notFits
      rw [count, perm.length_eq]
      intro isMiddle
      rcases List.getElem?_of_mem (perm.mem_iff.mp member) with ⟨index, isAt⟩
      rw [length_filter_lt ascending_bestCandidates isAt] at isMiddle
      rw [isMiddle, ← choose_none] at isAt
      exact notFits (rules _ (calculate_of_choose onGrid positive isAt)).fits
    · intro middle result found
      rcases calculate_eq_some found with ⟨price, chosen, rfl⟩
      refine ⟨?_, oneSide price, fun refPrice isReference => nomatch isReference⟩
      by_contra notFits
      apply middle price (perm.mem_iff.mpr (mem_of_choose chosen)) notFits
      rw [count, perm.length_eq]
      rw [choose_none] at chosen
      exact length_filter_lt ascending_bestCandidates chosen
  | some refPrice =>
    have notBeaten : ∀ {price},
        choose (bestCandidates buyOrders sellOrders) (some refPrice) = some price →
          ∀ other ∈ bestCandidates buyOrders sellOrders, ¬ Precedes refPrice other price :=
      fun chosen => choose_reference ascending_bestCandidates chosen
    constructor
    · intro rules
      have taken : bestCandidates buyOrders sellOrders ≠ [] → ∃ price,
          choose (bestCandidates buyOrders sellOrders) (some refPrice) = some price ∧
            price ∈ nearBest buyOrders sellOrders ∧
            Good admitted buyOrders sellOrders price ∧
            ∀ other, Good admitted buyOrders sellOrders other →
              |price - refPrice| ≤ |other - refPrice| := by
        intro isSome
        rcases Option.isSome_iff_exists.mp (choose_isSome (some refPrice) isSome) with
          ⟨price, chosen⟩
        exact ⟨price, chosen, perm.mem_iff.mpr (mem_of_choose chosen),
          (rules _ (calculate_of_choose onGrid positive chosen)).closest refPrice rfl⟩
      constructor
      · intro other member notGood
        have isBest := perm.mem_iff.mp member
        rcases taken (List.ne_nil_of_mem isBest) with ⟨price, chosen, isNear, good, _⟩
        refine ⟨price, isNear, good, ?_⟩
        rcases precedes_trichotomy refPrice price other with precedes | rfl | precedes
        · exact precedes
        · exact absurd good notGood
        · exact absurd precedes (notBeaten chosen other isBest)
      · intro other otherGood
        rcases taken (bestCandidates_ne_nil_of_trades onGrid positive otherGood.trades) with
          ⟨price, _, isNear, good, closest⟩
        exact ⟨price, isNear, good, closest other otherGood⟩
    · rintro ⟨beaten, closer⟩ result found
      rcases calculate_eq_some found with ⟨price, chosen, rfl⟩
      have member := perm.mem_iff.mpr (mem_of_choose chosen)
      have good : Good admitted buyOrders sellOrders price := by
        by_contra notGood
        rcases beaten price member notGood with ⟨good, isNear, _, precedes⟩
        exact notBeaten chosen good (perm.mem_iff.mp isNear) precedes
      refine ⟨good.fits, oneSide price, ?_⟩
      rintro _ ⟨⟩
      refine ⟨good, ?_⟩
      intro other otherGood
      rcases closer other otherGood with ⟨near, isNear, _, asNear⟩
      apply le_trans _ asNear
      exact not_lt.mp fun less =>
        notBeaten chosen near (perm.mem_iff.mp isNear) (.inl less)

end Rules

theorem oneBuyer_unserved : ¬ ∀ result,
    calculateAuctionPriceWithReference oneBuyer oneSeller (some 97) = some result →
      ObeysRules OnGrid oneBuyer oneSeller (some 97) result := by
  intro rules
  have fits := (rules (resultAt oneBuyer oneSeller 97) (by decide +kernel)).fits
  exact absurd fits.1 (by decide +kernel)

theorem not_tieBreaks_oneBuyer : ¬ TieBreaks OnGrid oneBuyer oneSeller (some 97) :=
  (obeysRules_iff oneBuyer_onGrid (by decide +kernel) OnGrid (some 97)).not.mp oneBuyer_unserved

/-- The lower price is nearer to the reference, but at this price the buyer, who bids more, is
not served. -/
theorem calculate_breaks_rules :
    ¬ ∀ (buyOrders sellOrders : List (ℚ × ℚ)) (referencePrice : Option ℚ),
      (∀ order ∈ buyOrders ++ sellOrders, OnGrid order.1) →
      (∀ order ∈ buyOrders ++ sellOrders, 0 < order.2) →
      ∀ result, calculateAuctionPriceWithReference buyOrders sellOrders referencePrice =
        some result → ObeysRules OnGrid buyOrders sellOrders referencePrice result :=
  fun claim => oneBuyer_unserved
    (claim oneBuyer oneSeller (some 97) oneBuyer_onGrid (by decide +kernel))

end QAExchange.AuctionCalculator
