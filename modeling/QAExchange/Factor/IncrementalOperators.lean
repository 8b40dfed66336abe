import QAExchange.Factor.Extremes

/-! # Incremental operators

The operators that are updated, expired and merged: sum, count, average, minimum and maximum.
An expiry undoes an update and a merge is the state of the appended inputs, except where the
buffer of the minimum or the maximum shows through.
-/

namespace QAExchange.Operators

open Foundation

/-! ## The operators -/

structure IncrementalOperator (Input Output : Type) where
  State : Type
  init : State
  update : State → Input → State
  value : State → Output
  expire : State → Input → State
  merge : State → State → State

inductive StateChange (Input : Type)
  | update (input : Input)
  | expire (expired : Input)

namespace StateChange

variable {Input : Type}

def updates (changes : List (StateChange Input)) : List Input :=
  changes.filterMap fun
    | update input => some input
    | expire _ => none

@[simp] theorem updates_nil : updates ([] : List (StateChange Input)) = [] := rfl

@[simp] theorem updates_append_update (changes : List (StateChange Input)) (input : Input) :
    updates (changes ++ [update input]) = updates changes ++ [input] := by
  simp [updates]

@[simp] theorem updates_append_expire (changes : List (StateChange Input)) (expired : Input) :
    updates (changes ++ [expire expired]) = updates changes := by
  simp [updates]

end StateChange

namespace IncrementalOperator

variable {Input Output : Type} (operator : IncrementalOperator Input Output)

/-- The state after some inputs. -/
def fold (inputs : List Input) : operator.State := inputs.foldl operator.update operator.init

def change (state : operator.State) : StateChange Input → operator.State
  | .update input => operator.update state input
  | .expire expired => operator.expire state expired

def run (state : operator.State) (changes : List (StateChange Input)) : operator.State :=
  changes.foldl operator.change state

/-- The expiry of the first input leaves the value of the others. -/
def ExpireLaw (x : Input) (xs : List Input) : Prop :=
  operator.value (operator.expire (operator.fold (x :: xs)) x) = operator.value (operator.fold xs)

/-- A merged state has the value of the appended inputs, after further changes as well. -/
def MergeLaw (xs ys : List Input) (further : List (StateChange Input)) : Prop :=
  operator.value (operator.run (operator.merge (operator.fold xs) (operator.fold ys)) further) =
    operator.value (operator.run (operator.fold (xs ++ ys)) further)

def Lawful (x : Input) (xs ys : List Input) (further : List (StateChange Input)) : Prop :=
  operator.ExpireLaw x xs ∧ operator.MergeLaw xs ys further

theorem run_append_singleton (state : operator.State) (changes : List (StateChange Input))
    (last : StateChange Input) :
    operator.run state (changes ++ [last]) = operator.change (operator.run state changes) last := by
  rw [run, List.foldl_append]
  rfl

variable {operator}

theorem mergeLaw_of_eq
    (merged : operator.merge (operator.fold xs) (operator.fold ys) = operator.fold (xs ++ ys))
    (further : List (StateChange Input)) : operator.MergeLaw xs ys further := by
  rw [MergeLaw, merged]

end IncrementalOperator

structure SumState (K : Type) where
  sum : K
  count : ℕ

structure CountState where
  count : ℕ

def Sum (K : Type) [CommRing K] : IncrementalOperator K K where
  State := SumState K
  init := { sum := 0, count := 0 }
  update state input := { sum := state.sum + input, count := state.count + 1 }
  value state := state.sum
  expire state expired := { sum := state.sum - expired, count := state.count - 1 }
  merge left right := { sum := left.sum + right.sum, count := left.count + right.count }

def Count : IncrementalOperator Unit ℕ where
  State := CountState
  init := { count := 0 }
  update state _ := { count := state.count + 1 }
  value state := state.count
  expire state _ := { count := state.count - 1 }
  merge left right := { count := left.count + right.count }

def Avg (K : Type) [Field K] : IncrementalOperator K K where
  State := SumState K
  init := { sum := 0, count := 0 }
  update state input := { sum := state.sum + input, count := state.count + 1 }
  value state := if state.count = 0 then 0 else state.sum / state.count
  expire state expired := { sum := state.sum - expired, count := state.count - 1 }
  merge left right := { sum := left.sum + right.sum, count := left.count + right.count }

@[irreducible] def defaultWindow : ℕ := 1024

theorem defaultWindow_pos : 0 < defaultWindow := by
  rw [defaultWindow]
  decide

def moreExtreme {K : Type} (pick : K → K → K) : Option K → Option K → Option K
  | some left, some right => some (pick left right)
  | some left, none => some left
  | none, some right => some right
  | none, none => none

/-- The expired value is not taken from the buffer, and a merged state keeps the left one. -/
def extremeOperator {K : Type} [DecidableEq K] (beats : K → K → Prop) [DecidableRel beats]
    (pick : K → K → K) : IncrementalOperator K (Option K) where
  State := ExtremeState K
  init := ExtremeState.withCapacity defaultWindow
  update := ExtremeState.update beats (· = ·) pick
  value state := state.current
  expire state expired :=
    if state.current = some expired then state.recalculate pick else state
  merge left right :=
    { buffer := left.buffer
      current := moreExtreme pick left.current right.current }

def Min (K : Type) [LinearOrder K] : IncrementalOperator K (Option K) :=
  extremeOperator (· < ·) min

def Max (K : Type) [LinearOrder K] : IncrementalOperator K (Option K) :=
  extremeOperator (· > ·) max

section Sums

variable {K : Type}

theorem Sum.fold_eq [CommRing K] (inputs : List K) :
    (Sum K).fold inputs = { sum := inputs.sum, count := inputs.length } := by
  induction inputs using List.reverseRecOn with
  | nil => rfl
  | append_singleton inputs input induction =>
    rw [IncrementalOperator.fold, List.foldl_append, ← IncrementalOperator.fold, induction,
      List.sum_append, List.sum_singleton, List.length_append]
    rfl

theorem Sum.lawful [CommRing K] (x : K) (xs ys : List K) (further : List (StateChange K)) :
    (Sum K).Lawful x xs ys further := by
  constructor
  · rw [IncrementalOperator.ExpireLaw, Sum.fold_eq, Sum.fold_eq, List.sum_cons]
    exact add_sub_cancel_left x xs.sum
  · apply IncrementalOperator.mergeLaw_of_eq
    rw [Sum.fold_eq, Sum.fold_eq, Sum.fold_eq, List.sum_append, List.length_append]
    rfl

theorem Count.fold_eq (inputs : List Unit) : Count.fold inputs = { count := inputs.length } := by
  induction inputs using List.reverseRecOn with
  | nil => rfl
  | append_singleton inputs input induction =>
    rw [IncrementalOperator.fold, List.foldl_append, ← IncrementalOperator.fold, induction,
      List.length_append]
    rfl

theorem Count.lawful (x : Unit) (xs ys : List Unit) (further : List (StateChange Unit)) :
    Count.Lawful x xs ys further := by
  constructor
  · rw [IncrementalOperator.ExpireLaw, Count.fold_eq, Count.fold_eq]
    rfl
  · apply IncrementalOperator.mergeLaw_of_eq
    rw [Count.fold_eq, Count.fold_eq, Count.fold_eq, List.length_append]
    rfl

theorem Avg.fold_eq [Field K] (inputs : List K) :
    (Avg K).fold inputs = ({ sum := inputs.sum, count := inputs.length } : SumState K) :=
  Sum.fold_eq inputs

theorem Avg.lawful [Field K] (x : K) (xs ys : List K) (further : List (StateChange K)) :
    (Avg K).Lawful x xs ys further := by
  constructor
  · have expired : (Avg K).expire ((Avg K).fold (x :: xs)) x = (Avg K).fold xs := by
      rw [Avg.fold_eq, Avg.fold_eq, List.sum_cons]
      exact congrArg (SumState.mk · xs.length) (add_sub_cancel_left x xs.sum)
    rw [IncrementalOperator.ExpireLaw, expired]
  · apply IncrementalOperator.mergeLaw_of_eq
    rw [Avg.fold_eq, Avg.fold_eq, Avg.fold_eq, List.sum_append, List.length_append]
    rfl

end Sums

/-! ## Minimum and maximum -/

section Conditions

variable {K : Type} [DecidableEq K] (beats : K → K → Prop) (pick : K → K → K)

def ExpiresHarmlessly (x : K) (xs : List K) : Prop :=
  xs.length = defaultWindow ∨ ∃ y ∈ xs, ¬beats x y

/-- The extreme of the right inputs is known to a merged state by its cache only: it beats all
left inputs and all later ones, and no expiry has named it. -/
def OnlyCached (xs ys : List K) (further : List (StateChange K)) (extreme : K) : Prop :=
  reduce pick ys = some extreme ∧
    (∀ value ∈ xs ++ StateChange.updates further, beats extreme value) ∧
      StateChange.expire extreme ∉ further

omit [DecidableEq K] in
theorem onlyCached_append_update :
    OnlyCached beats pick xs ys (further ++ [.update value]) extreme ↔
      OnlyCached beats pick xs ys further extreme ∧ beats extreme value := by
  constructor
  · rintro ⟨isExtreme, beatsAll, notExpired⟩
    rw [StateChange.updates_append_update, ← List.append_assoc] at beatsAll
    refine ⟨⟨isExtreme, ?_, ?_⟩, beatsAll value (by simp)⟩
    · intro other mem
      exact beatsAll other (List.mem_append_left _ mem)
    · exact fun mem => notExpired (List.mem_append_left _ mem)
  · rintro ⟨⟨isExtreme, beatsAll, notExpired⟩, beatsValue⟩
    refine ⟨isExtreme, ?_, ?_⟩
    · rw [StateChange.updates_append_update, ← List.append_assoc]
      intro other mem
      rcases List.mem_append.mp mem with old | new
      · exact beatsAll other old
      · rw [List.mem_singleton.mp new]
        exact beatsValue
    · simpa using notExpired

omit [DecidableEq K] in
theorem onlyCached_append_expire :
    OnlyCached beats pick xs ys (further ++ [.expire expired]) extreme ↔
      OnlyCached beats pick xs ys further extreme ∧ expired ≠ extreme := by
  constructor
  · rintro ⟨isExtreme, beatsAll, notExpired⟩
    rw [StateChange.updates_append_expire] at beatsAll
    refine ⟨⟨isExtreme, beatsAll, fun mem => notExpired (List.mem_append_left _ mem)⟩, ?_⟩
    intro equal
    exact notExpired (by simp [equal])
  · rintro ⟨⟨isExtreme, beatsAll, notExpired⟩, other⟩
    refine ⟨isExtreme, ?_, ?_⟩
    · rw [StateChange.updates_append_expire]
      exact beatsAll
    · intro mem
      rcases List.mem_append.mp mem with old | new
      · exact notExpired old
      · exact other (StateChange.expire.inj (List.mem_singleton.mp new)).symm

/-- A cached extreme is still in the window of all inputs; without one, the window of the left
and the later inputs has the extreme of the window of all. -/
def MergesHarmlessly (xs ys : List K) (further : List (StateChange K)) : Prop :=
  let own := lastWindow defaultWindow (xs ++ StateChange.updates further)
  let kept := lastWindow defaultWindow (xs ++ ys ++ StateChange.updates further)
  (∀ extreme, OnlyCached beats pick xs ys further extreme → extreme ∈ kept) ∧
    ((∀ extreme, ¬OnlyCached beats pick xs ys further extreme) →
      reduce pick own = reduce pick kept)

end Conditions

section Extremes

variable {K : Type} [LinearOrder K]

theorem Min.fold_follows (inputs : List K) :
    ((Min K).fold inputs : ExtremeState K).Follows defaultWindow
      (lastWindow defaultWindow inputs) :=
  ExtremeState.follows_foldl defaultWindow_pos (fun _ => rfl) inputs

variable {state : ExtremeState K}

theorem Min.expire_of_follows (follows : state.Follows defaultWindow window) (expired : K) :
    (Min K).expire state expired = state := by
  change (if state.current = some expired then state.recalculate min else state) = state
  split_ifs
  · rw [ExtremeState.recalculate, reduce_min, follows.buffer_eq, ← follows.current_eq]
  · rfl

theorem min?_cons_eq_min?_iff (x : K) (xs : List K) :
    (x :: xs).min? = xs.min? ↔ ∃ y ∈ xs, ¬x < y := by
  rw [List.min?_cons]
  cases smallest : xs.min? with
  | none =>
    rw [List.min?_eq_none_iff.mp smallest]
    simp
  | some least =>
    have least_spec := List.min?_eq_some_iff.mp smallest
    rw [Option.some.injEq]
    constructor
    · intro equal
      exact ⟨least, least_spec.1, not_lt.mpr (min_eq_right_iff.mp equal)⟩
    · rintro ⟨y, mem, notBelow⟩
      exact min_eq_right ((least_spec.2 y mem).trans (not_lt.mp notBelow))

variable {xs : List K}

theorem Min.expireLaw_iff {x : K} (fits : xs.length ≤ defaultWindow) :
    (Min K).ExpireLaw x xs ↔ ExpiresHarmlessly (· < ·) x xs := by
  have longer := Min.fold_follows (x :: xs)
  have shorter := Min.fold_follows xs
  rw [IncrementalOperator.ExpireLaw, Min.expire_of_follows longer]
  have left : (Min K).value ((Min K).fold (x :: xs)) =
      (lastWindow defaultWindow (x :: xs)).min? := longer.current_eq
  have right : (Min K).value ((Min K).fold xs) = xs.min? := by
    rw [lastWindow_of_short fits] at shorter
    exact shorter.current_eq
  rw [left, right, ExpiresHarmlessly]
  by_cases full : xs.length = defaultWindow
  · have dropped : lastWindow defaultWindow (x :: xs) = xs := by
      have one : (x :: xs).length - defaultWindow = 1 := by
        rw [List.length_cons]
        omega
      rw [lastWindow, one]
      rfl
    rw [dropped]
    exact iff_of_true rfl (Or.inl full)
  · have short : (x :: xs).length ≤ defaultWindow := by
      rw [List.length_cons]
      omega
    rw [lastWindow_of_short short, min?_cons_eq_min?_iff]
    exact (or_iff_right full).symm

/-! ### Merged states -/

/-- The buffer holds the last values and the cache an extreme below all of them. -/
structure Caches (state : ExtremeState K) (values : List K) (extreme : K) : Prop where
  buffer_eq : state.buffer = ⟨lastWindow defaultWindow values, defaultWindow⟩
  current_eq : state.current = some extreme
  below : ∀ value ∈ values, extreme < value

variable {values : List K} {extreme : K}

section

variable (caches : Caches state values extreme)
include caches

theorem Caches.update_eq (value : K) : (Min K).update state value =
      ({ buffer := ⟨lastWindow defaultWindow (values ++ [value]), defaultWindow⟩
         current := some (min extreme value) } : ExtremeState K) := by
  rcases RingBuffer.push_lastWindow defaultWindow_pos values value with ⟨popped, pushed, from_⟩
  change ExtremeState.update (· < ·) (· = ·) min state value = _
  rw [ExtremeState.update, caches.buffer_eq, pushed, caches.current_eq]
  cases popped with
  | none =>
    dsimp only
    split_ifs with beaten
    · rw [min_eq_right beaten.le]
    · rw [min_eq_left (not_lt.mp beaten), ← caches.current_eq]
  | some expired =>
    have other : expired ≠ extreme := (caches.below expired (from_ expired rfl)).ne'
    dsimp only
    rw [if_neg other]
    split_ifs with beaten
    · rw [min_eq_right beaten.le]
    · rw [min_eq_left (not_lt.mp beaten), ← caches.current_eq]

theorem Caches.update_of_lt (above : extreme < value) :
    Caches ((Min K).update state value) (values ++ [value]) extreme := by
  rw [caches.update_eq value]
  refine ⟨rfl, congrArg some (min_eq_left above.le), ?_⟩
  intro other mem
  rcases List.mem_append.mp mem with old | new
  · exact caches.below other old
  · rw [List.mem_singleton.mp new]
    exact above

theorem Caches.update_of_le (notAbove : value ≤ extreme) :
    ((Min K).update state value : ExtremeState K).Follows defaultWindow
      (lastWindow defaultWindow (values ++ [value])) := by
  rw [caches.update_eq value]
  refine ⟨rfl, rfl, ?_⟩
  dsimp only
  rw [min_eq_right notAbove]
  symm
  apply List.min?_eq_some_iff.mpr
  constructor
  · exact mem_lastWindow_append defaultWindow_pos values value
  · intro other mem
    rcases List.mem_append.mp (mem_of_mem_lastWindow mem) with old | new
    · exact notAbove.trans (caches.below other old).le
    · rw [List.mem_singleton.mp new]

theorem Caches.expire_self :
    ((Min K).expire state extreme : ExtremeState K).Follows defaultWindow
      (lastWindow defaultWindow values) := by
  change (if state.current = some extreme then state.recalculate min else state).Follows _ _
  rw [if_pos caches.current_eq, ExtremeState.recalculate, caches.buffer_eq]
  exact ⟨rfl, rfl, reduce_min _⟩

theorem Caches.expire_other (other : expired ≠ extreme) : (Min K).expire state expired = state := by
  change (if state.current = some expired then state.recalculate min else state) = state
  apply if_neg
  rw [caches.current_eq]
  exact fun equal => other (Option.some.inj equal).symm

end

variable {ys : List K}

theorem Min.onlyCached_unique {further : List (StateChange K)} {first second : K}
    (one : OnlyCached (· < ·) min xs ys further first)
    (two : OnlyCached (· < ·) min xs ys further second) : first = second :=
  Option.some.inj (one.1.symm.trans two.1)

/-- The merged state either caches the extreme of the right inputs or follows its own buffer. -/
def MergedView (xs ys : List K) (done : List (StateChange K)) (state : ExtremeState K) : Prop :=
  (∃ extreme, OnlyCached (· < ·) min xs ys done extreme ∧
      Caches state (xs ++ StateChange.updates done) extreme) ∨
    ((∀ extreme, ¬OnlyCached (· < ·) min xs ys done extreme) ∧
      state.Follows defaultWindow
        (lastWindow defaultWindow (xs ++ StateChange.updates done)))

theorem mergedView_merge (fitsLeft : xs.length ≤ defaultWindow)
    (fitsRight : ys.length ≤ defaultWindow) :
    MergedView xs ys [] ((Min K).merge ((Min K).fold xs) ((Min K).fold ys)) := by
  have left := Min.fold_follows xs
  have right := Min.fold_follows ys
  rw [lastWindow_of_short fitsLeft] at left
  rw [lastWindow_of_short fitsRight] at right
  generalize ((Min K).fold xs : ExtremeState K) = leftState at left ⊢
  generalize ((Min K).fold ys : ExtremeState K) = rightState at right ⊢
  have buffer : leftState.buffer = ⟨lastWindow defaultWindow xs, defaultWindow⟩ := by
    rw [lastWindow_of_short fitsLeft, ← left.buffer_eq, ← left.capacity_eq]
  have merged : (Min K).merge leftState rightState =
      (⟨leftState.buffer, moreExtreme min xs.min? ys.min?⟩ : ExtremeState K) := by
    rw [← left.current_eq, ← right.current_eq]
    rfl
  rw [merged, buffer]
  unfold MergedView
  rw [StateChange.updates_nil, List.append_nil]
  cases rightLeast : ys.min? with
  | none =>
    right
    refine ⟨?_, rfl, rfl, ?_⟩
    · intro extreme onlyCached
      rw [OnlyCached, reduce_min, rightLeast] at onlyCached
      exact nomatch onlyCached.1
    · rw [lastWindow_of_short fitsLeft]
      cases xs.min? with
      | none => rfl
      | some least => rfl
  | some extreme =>
    by_cases below : ∀ value ∈ xs, extreme < value
    · left
      refine ⟨extreme, ⟨by rw [reduce_min, rightLeast], ?_, List.not_mem_nil⟩, rfl, ?_, below⟩
      · rw [StateChange.updates_nil, List.append_nil]
        exact below
      · cases leftLeast : xs.min? with
        | none => rfl
        | some least =>
          have mem := (List.min?_eq_some_iff.mp leftLeast).1
          exact congrArg some (min_eq_right (below least mem).le)
    · right
      refine ⟨?_, rfl, rfl, ?_⟩
      · intro other onlyCached
        rw [OnlyCached, reduce_min, rightLeast, StateChange.updates_nil, List.append_nil]
          at onlyCached
        exact below (Option.some.inj onlyCached.1 ▸ onlyCached.2.1)
      · push Not at below
        rcases below with ⟨value, mem, above⟩
        rw [lastWindow_of_short fitsLeft]
        cases leftLeast : xs.min? with
        | none =>
          rw [List.min?_eq_none_iff.mp leftLeast] at mem
          exact nomatch mem
        | some least =>
          have smallest := (List.min?_eq_some_iff.mp leftLeast).2 value mem
          exact congrArg some (min_eq_left (smallest.trans above))

theorem MergedView.change (view : MergedView xs ys done state) (next : StateChange K) :
    MergedView xs ys (done ++ [next]) ((Min K).change state next) := by
  rcases view with ⟨extreme, onlyCached, caches⟩ | ⟨notCached, follows⟩
  · cases next with
    | update value =>
      unfold MergedView
      rw [StateChange.updates_append_update, ← List.append_assoc]
      by_cases above : extreme < value
      · left
        exact ⟨extreme, (onlyCached_append_update _ _).mpr ⟨onlyCached, above⟩,
          caches.update_of_lt above⟩
      · right
        refine ⟨?_, caches.update_of_le (not_lt.mp above)⟩
        intro other still
        rcases (onlyCached_append_update _ _).mp still with ⟨before, beaten⟩
        exact above (Min.onlyCached_unique onlyCached before ▸ beaten)
    | expire expired =>
      unfold MergedView
      rw [StateChange.updates_append_expire]
      by_cases other : expired = extreme
      · right
        rw [other]
        refine ⟨?_, caches.expire_self⟩
        intro still cached
        rcases (onlyCached_append_expire _ _).mp cached with ⟨before, differs⟩
        exact differs (Min.onlyCached_unique onlyCached before)
      · left
        refine ⟨extreme, (onlyCached_append_expire _ _).mpr ⟨onlyCached, other⟩, ?_⟩
        have same : (Min K).change state (.expire expired) = state := caches.expire_other other
        rw [same]
        exact caches
  · right
    cases next with
    | update value =>
      rw [StateChange.updates_append_update, ← List.append_assoc]
      refine ⟨?_, follows.update defaultWindow_pos (fun _ => rfl) value⟩
      intro extreme still
      exact notCached extreme ((onlyCached_append_update _ _).mp still).1
    | expire expired =>
      rw [StateChange.updates_append_expire]
      have same : (Min K).change state (.expire expired) = state :=
        Min.expire_of_follows follows expired
      rw [same]
      refine ⟨?_, follows⟩
      intro extreme still
      exact notCached extreme ((onlyCached_append_expire _ _).mp still).1

theorem MergedView.run {state : (Min K).State} (view : MergedView xs ys [] state)
    (further : List (StateChange K)) : MergedView xs ys further ((Min K).run state further) := by
  induction further using List.reverseRecOn with
  | nil => exact view
  | append_singleton further next induction =>
    rw [IncrementalOperator.run_append_singleton]
    exact induction.change next

/-- One buffer for all inputs follows them through the updates, and expiries do nothing. -/
theorem Min.run_follows {inputs : List K} {state : (Min K).State}
    (follows : ExtremeState.Follows defaultWindow state (lastWindow defaultWindow inputs))
    (further : List (StateChange K)) :
    ((Min K).run state further : ExtremeState K).Follows defaultWindow
      (lastWindow defaultWindow (inputs ++ StateChange.updates further)) := by
  induction further using List.reverseRecOn with
  | nil =>
    rw [StateChange.updates_nil, List.append_nil]
    exact follows
  | append_singleton further next induction =>
    rw [IncrementalOperator.run_append_singleton]
    cases next with
    | update value =>
      rw [StateChange.updates_append_update, ← List.append_assoc]
      exact induction.update defaultWindow_pos (fun _ => rfl) value
    | expire expired =>
      rw [StateChange.updates_append_expire]
      have same : (Min K).change ((Min K).run state further) (.expire expired) =
          (Min K).run state further := Min.expire_of_follows induction expired
      rw [same]
      exact induction

theorem Min.mergeLaw_iff (fitsLeft : xs.length ≤ defaultWindow)
    (fitsRight : ys.length ≤ defaultWindow) (further : List (StateChange K)) :
    (Min K).MergeLaw xs ys further ↔ MergesHarmlessly (· < ·) min xs ys further := by
  have view := (mergedView_merge fitsLeft fitsRight).run further
  have whole := (Min.run_follows (Min.fold_follows (xs ++ ys)) further).current_eq
  have value : (Min K).value ((Min K).run ((Min K).fold (xs ++ ys)) further) =
      (lastWindow defaultWindow (xs ++ ys ++ StateChange.updates further)).min? := whole
  rw [IncrementalOperator.MergeLaw, value, MergesHarmlessly]
  rcases view with ⟨extreme, onlyCached, caches⟩ | ⟨notCached, follows⟩
  · have cached : (Min K).value ((Min K).run ((Min K).merge ((Min K).fold xs) ((Min K).fold ys))
        further) = some extreme := caches.current_eq
    have least : ∀ other ∈ lastWindow defaultWindow (xs ++ ys ++ StateChange.updates further),
        extreme ≤ other := by
      intro other mem
      have somewhere := mem_of_mem_lastWindow mem
      rw [List.append_assoc, List.mem_append, List.mem_append] at somewhere
      rcases somewhere with inLeft | inRight | later
      · exact (caches.below other (List.mem_append_left _ inLeft)).le
      · rw [OnlyCached, reduce_min] at onlyCached
        exact (List.min?_eq_some_iff.mp onlyCached.1).2 other inRight
      · exact (caches.below other (List.mem_append_right _ later)).le
    rw [cached, eq_comm, List.min?_eq_some_iff]
    constructor
    · rintro ⟨mem, _⟩
      refine ⟨?_, fun none => absurd onlyCached (none extreme)⟩
      intro other alsoCached
      rw [Min.onlyCached_unique alsoCached onlyCached]
      exact mem
    · rintro ⟨kept, _⟩
      exact ⟨kept extreme onlyCached, least⟩
  · have own : (Min K).value ((Min K).run ((Min K).merge ((Min K).fold xs) ((Min K).fold ys))
        further) = (lastWindow defaultWindow (xs ++ StateChange.updates further)).min? :=
      follows.current_eq
    rw [own, reduce_min, reduce_min]
    constructor
    · intro equal
      exact ⟨fun extreme onlyCached => absurd onlyCached (notCached extreme), fun _ => equal⟩
    · rintro ⟨_, equal⟩
      exact equal notCached

/-- A minimum obeys the laws exactly when the expiry and the merge do no harm. -/
theorem Min.lawful_iff (x : K) (fitsLeft : xs.length ≤ defaultWindow)
    (fitsRight : ys.length ≤ defaultWindow) (further : List (StateChange K)) :
    (Min K).Lawful x xs ys further ↔
      ExpiresHarmlessly (· < ·) x xs ∧ MergesHarmlessly (· < ·) min xs ys further := by
  rw [IncrementalOperator.Lawful, Min.expireLaw_iff fitsLeft, Min.mergeLaw_iff fitsLeft fitsRight]

theorem Max.lawful_iff (x : K) (fitsLeft : xs.length ≤ defaultWindow)
    (fitsRight : ys.length ≤ defaultWindow) (further : List (StateChange K)) :
    (Max K).Lawful x xs ys further ↔
      ExpiresHarmlessly (· > ·) x xs ∧ MergesHarmlessly (· > ·) max xs ys further :=
  Min.lawful_iff (K := Kᵒᵈ) x fitsLeft fitsRight further

end Extremes

section Laws

variable {K : Type} [Field K] [LinearOrder K]

/-- Sum, count and average obey the laws for all inputs. The minimum and the maximum do so
exactly where no extreme lingers in the buffer and none was known from the right buffer only. -/
theorem incrementalOperators_lawful_iff (x : K) {xs ys : List K}
    (fitsLeft : xs.length ≤ defaultWindow) (fitsRight : ys.length ≤ defaultWindow)
    (further : List (StateChange K)) (units others : List Unit)
    (counted : List (StateChange Unit)) : (Sum K).Lawful x xs ys further ∧
      Count.Lawful () units others counted ∧ (Avg K).Lawful x xs ys further ∧
      ((Min K).Lawful x xs ys further ↔
        ExpiresHarmlessly (· < ·) x xs ∧ MergesHarmlessly (· < ·) min xs ys further) ∧
      ((Max K).Lawful x xs ys further ↔
        ExpiresHarmlessly (· > ·) x xs ∧ MergesHarmlessly (· > ·) max xs ys further) :=
  ⟨Sum.lawful x xs ys further, Count.lawful () units others counted,
    Avg.lawful x xs ys further, Min.lawful_iff x fitsLeft fitsRight further,
    Max.lawful_iff x fitsLeft fitsRight further⟩

/-- Expiring 3 leaves the minimum 1, and the 2 of the right side is not missed. -/
theorem min_lawful_of_smaller_left : (Min ℚ).Lawful 3 [1] [2] [] := by
  have short : ∀ value : ℚ, [value].length ≤ defaultWindow := by
    intro value
    exact defaultWindow_pos
  have laws := incrementalOperators_lawful_iff (3 : ℚ) (short 1) (short 2) [] [] [] []
  apply laws.2.2.2.1.mpr
  refine ⟨Or.inr ⟨1, by simp, by norm_num⟩, ?_, ?_⟩
  · intro extreme onlyCached
    have isTwo : some (2 : ℚ) = some extreme := onlyCached.1
    have below := onlyCached.2.1 1 (by simp)
    rw [← Option.some.inj isTwo] at below
    norm_num at below
  · intro _
    decide +kernel

/-- The expired minimum lingers in the buffer, and a merged minimum is lost with its expiry. -/
theorem min_expired_lingers : (Min ℚ).value ((Min ℚ).expire ((Min ℚ).fold [1, 2]) 1) = some 1 ∧
      (Min ℚ).value ((Min ℚ).fold [2]) = some 2 ∧
      (Min ℚ).value ((Min ℚ).run ((Min ℚ).merge ((Min ℚ).fold [3]) ((Min ℚ).fold [1]))
        [.expire 1]) = some 3 ∧
      (Min ℚ).value ((Min ℚ).run ((Min ℚ).fold [3, 1]) [.expire 1]) = some 1 ∧
      ¬(Min ℚ).Lawful 1 [2] [] [] ∧ ¬(Min ℚ).MergeLaw [3] [1] [.expire 1] := by
  have lingers : (Min ℚ).value ((Min ℚ).expire ((Min ℚ).fold [1, 2]) 1) = some 1 := by
    decide +kernel
  have without : (Min ℚ).value ((Min ℚ).fold [2]) = some 2 := by decide +kernel
  have lost : (Min ℚ).value ((Min ℚ).run ((Min ℚ).merge ((Min ℚ).fold [3]) ((Min ℚ).fold [1]))
      [.expire 1]) = some 3 := by decide +kernel
  have kept : (Min ℚ).value ((Min ℚ).run ((Min ℚ).fold [3, 1]) [.expire 1]) = some 1 := by
    decide +kernel
  refine ⟨lingers, without, lost, kept, ?_, ?_⟩
  · rintro ⟨expires, _⟩
    rw [IncrementalOperator.ExpireLaw, lingers, without] at expires
    norm_num at expires
  · intro merges
    rw [IncrementalOperator.MergeLaw, List.singleton_append, lost, kept] at merges
    norm_num at merges

end Laws

end QAExchange.Operators
