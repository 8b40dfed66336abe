import QAExchange.Foundation.OrderLife

/-! # The lives of all orders in a book

A book is seen here through its `Ledger`: the volume each order still has open
and the identifiers it has given out. Every call of the book writes events into
its log, and the events of one identifier form a `Life`.
-/

namespace QAExchange.Foundation

@[ext]
structure Ledger (Id Volume : Type) [Zero Volume] [LT Volume] where
  left : Id → Volume
  issued : Id → Prop
  issued_of_open : ∀ id, 0 < left id → issued id

abbrev Entry (Id Volume : Type) := Id × LifeEvent Volume

section

variable {Id Volume : Type} [DecidableEq Id]

def eventsOf (id : Id) (log : List (Entry Id Volume)) : List (LifeEvent Volume) :=
  (log.filter fun entry => entry.1 = id).map Prod.snd

@[simp] theorem eventsOf_nil (id : Id) : eventsOf id ([] : List (Entry Id Volume)) = [] := rfl

@[simp] theorem eventsOf_append (id : Id) (first rest : List (Entry Id Volume)) :
    eventsOf id (first ++ rest) = eventsOf id first ++ eventsOf id rest := by
  simp [eventsOf]

@[simp] theorem eventsOf_cons_self (id : Id) (event : LifeEvent Volume)
    (log : List (Entry Id Volume)) :
    eventsOf id ((id, event) :: log) = event :: eventsOf id log := by
  simp [eventsOf]

variable {id : Id}

theorem eventsOf_cons_of_ne (differs : other ≠ id) (event : LifeEvent Volume)
    (log : List (Entry Id Volume)) : eventsOf id ((other, event) :: log) = eventsOf id log := by
  simp [eventsOf, differs]

theorem mem_eventsOf {event : LifeEvent Volume} {log : List (Entry Id Volume)} :
    event ∈ eventsOf id log ↔ (id, event) ∈ log := by
  simp [eventsOf]

variable [AddCommGroup Volume] [LinearOrder Volume]

/-- Open volumes after a match of `volume` between two orders. -/
def settle (left : Id → Volume) (taker maker : Id) (volume : Volume) : Id → Volume :=
  Function.update (Function.update left taker (left taker - volume)) maker (left maker - volume)

/-- The matches of one incoming order: each gives an event of the incoming
order and then one of the resting order, for the same volume. -/
inductive Fills (taker : Id) :
    (Id → Volume) → List (Entry Id Volume) → (Id → Volume) → Prop
  | done (left) : Fills taker left [] left
  | pair {left left' maker volume entries} : maker ≠ taker → 0 < volume →
      volume ≤ left taker → volume ≤ left maker →
      Fills taker (settle left taker maker volume) entries left' →
      Fills taker left ((taker, fillEvent (left taker) volume) ::
        (maker, fillEvent (left maker) volume) :: entries) left'

/-- A log explains a ledger: each order opened in the log has lived through its
events, and identifiers that were never issued have none. -/
structure Explains (total : Id → Volume) (log : List (Entry Id Volume))
    (ledger : Ledger Id Volume) : Prop where
  lives : ∀ id, .opened ∈ eventsOf id log →
    Life (total id) (ledger.left id) (eventsOf id log)
  silent : ∀ id, ¬ledger.issued id → eventsOf id log = []

variable {taker : Id} {left left' : Id → Volume} {entries : List (Entry Id Volume)}

section

variable (fills : Fills taker left entries left')
include fills

theorem Fills.lives (life : Life total (left id) before) :
    Life total (left' id) (before ++ eventsOf id entries) := by
  induction fills generalizing before with
  | done => simpa using life
  | @pair left left' maker volume entries differs positive takerOpen makerOpen _ induction =>
    by_cases isTaker : taker = id
    · subst isTaker
      have later := life.fill positive takerOpen
      rw [eventsOf_cons_self, eventsOf_cons_of_ne differs, List.append_cons]
      apply induction
      simpa [settle, Function.update_of_ne differs.symm] using later
    · by_cases isMaker : maker = id
      · subst isMaker
        have later := life.fill positive makerOpen
        rw [eventsOf_cons_of_ne isTaker, eventsOf_cons_self, List.append_cons]
        apply induction
        simpa [settle] using later
      · rw [eventsOf_cons_of_ne isTaker, eventsOf_cons_of_ne isMaker]
        apply induction
        simpa [settle, Function.update_of_ne (Ne.symm isMaker),
          Function.update_of_ne (Ne.symm isTaker)] using life

theorem Fills.eventsOf_eq_nil (closed : ¬0 < left id) : eventsOf id entries = [] := by
  induction fills with
  | done => rfl
  | @pair left left' maker volume entries differs positive takerOpen makerOpen _ induction =>
    have notTaker : taker ≠ id := by
      rintro rfl
      exact closed (lt_of_lt_of_le positive takerOpen)
    have notMaker : maker ≠ id := by
      rintro rfl
      exact closed (lt_of_lt_of_le positive makerOpen)
    rw [eventsOf_cons_of_ne notTaker, eventsOf_cons_of_ne notMaker]
    apply induction
    simpa [settle, Function.update_of_ne notMaker.symm,
      Function.update_of_ne notTaker.symm] using closed

theorem Fills.opened_not_mem (id : Id) : (id, .opened) ∉ entries := by
  induction fills with
  | done => simp
  | pair _ _ _ _ _ induction =>
    rw [List.mem_cons, List.mem_cons, not_or, not_or]
    exact ⟨fun same => fillEvent_ne_opened _ _ (congrArg Prod.snd same).symm,
      fun same => fillEvent_ne_opened _ _ (congrArg Prod.snd same).symm, induction⟩

theorem Fills.filled_eq (id : Id) : filledTotal (eventsOf id entries) = left id - left' id := by
  induction fills with
  | done => simp
  | @pair left left' maker volume entries differs _ _ _ _ induction =>
    have filled : ∀ before : Volume, (fillEvent before volume).volume = volume := by
      intro before
      unfold fillEvent
      split_ifs <;> rfl
    by_cases isTaker : taker = id
    · subst isTaker
      rw [eventsOf_cons_self, eventsOf_cons_of_ne differs, filledTotal_cons, filled, induction]
      simp only [settle, Function.update_of_ne differs.symm, Function.update_self]
      abel
    · by_cases isMaker : maker = id
      · subst isMaker
        rw [eventsOf_cons_of_ne isTaker, eventsOf_cons_self, filledTotal_cons, filled, induction]
        simp only [settle, Function.update_self]
        abel
      · rw [eventsOf_cons_of_ne isTaker, eventsOf_cons_of_ne isMaker, induction]
        simp only [settle, Function.update_of_ne (Ne.symm isMaker),
          Function.update_of_ne (Ne.symm isTaker)]

end

namespace Explains

variable {total : Id → Volume} {log : List (Entry Id Volume)} {ledger ledger' : Ledger Id Volume}

theorem nil (total : Id → Volume) (ledger : Ledger Id Volume) :
    Explains total ([] : List (Entry Id Volume)) ledger :=
  ⟨by simp, by simp⟩

theorem placed (explained : Explains total log ledger) (fresh : ¬ledger.issued id)
    (issued : ∀ other, ledger'.issued other ↔ other = id ∨ ledger.issued other)
    (fills : Fills id (Function.update ledger.left id volume) entries ledger'.left) :
    Explains (Function.update total id volume) (log ++ (id, .opened) :: entries) ledger' := by
  refine ⟨fun other opened => ?_, fun other unissued => ?_⟩
  · by_cases isNew : other = id
    · subst isNew
      rw [eventsOf_append, explained.silent other fresh, eventsOf_cons_self]
      have life : Life volume (Function.update ledger.left other volume other) [.opened] := by
        rw [Function.update_self]
        exact .opened
      simpa using fills.lives life
    · rw [eventsOf_append, eventsOf_cons_of_ne (Ne.symm isNew)] at opened ⊢
      have before : .opened ∈ eventsOf other log := by
        rcases List.mem_append.mp opened with before | later
        · exact before
        · exact absurd (mem_eventsOf.mp later) (fills.opened_not_mem other)
      have life := explained.lives other before
      rw [Function.update_of_ne isNew]
      apply fills.lives
      rw [Function.update_of_ne isNew]
      exact life
  · rw [issued, not_or] at unissued
    have closed : ¬0 < Function.update ledger.left id volume other := by
      rw [Function.update_of_ne unissued.1]
      exact fun stillOpen => unissued.2 (ledger.issued_of_open other stillOpen)
    rw [eventsOf_append, explained.silent other unissued.2,
      eventsOf_cons_of_ne (Ne.symm unissued.1), fills.eventsOf_eq_nil closed]
    rfl

theorem withdrawn (explained : Explains total log ledger) (stillOpen : 0 < ledger.left id)
    (issued : ∀ other, ledger'.issued other ↔ ledger.issued other)
    (closed : ledger'.left = Function.update ledger.left id 0) :
    Explains total (log ++ [(id, .cancelled)]) ledger' := by
  refine ⟨fun other opened => ?_, fun other unissued => ?_⟩
  · by_cases isOrder : other = id
    · subst isOrder
      rw [eventsOf_append, eventsOf_cons_self, eventsOf_nil] at opened ⊢
      have before : .opened ∈ eventsOf other log := by simpa using opened
      rw [closed, Function.update_self]
      exact (explained.lives other before).cancelled stillOpen
    · rw [eventsOf_append, eventsOf_cons_of_ne (Ne.symm isOrder), eventsOf_nil,
        List.append_nil] at opened ⊢
      rw [closed, Function.update_of_ne isOrder]
      exact explained.lives other opened
  · rw [issued] at unissued
    have isOther : id ≠ other := by
      rintro rfl
      exact unissued (ledger.issued_of_open id stillOpen)
    rw [eventsOf_append, explained.silent other unissued, eventsOf_cons_of_ne isOther]
    rfl

end Explains

end

end QAExchange.Foundation
