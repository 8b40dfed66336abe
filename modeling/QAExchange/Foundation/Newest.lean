import Mathlib.Data.List.Induction
import Mathlib.Order.Lattice

/-! # The newest entries

Two ways to find the newest entry of a name in a list: one pass that replaces the entry it
has by strictly newer ones, and a search from the end.
-/

namespace QAExchange.Foundation

variable {α κ τ : Type} [DecidableEq κ] [LinearOrder τ]

section Definitions

variable (name : α → κ) (time : α → τ)

/-- The entry of each name after one entry more. -/
def keepNewer (kept : κ → Option α) (entry : α) : κ → Option α :=
  match kept (name entry) with
  | none => Function.update kept (name entry) (some entry)
  | some existing =>
    if time existing < time entry then Function.update kept (name entry) (some entry) else kept

def newest (entries : List α) : κ → Option α :=
  entries.foldl (keepNewer name time) fun _ => none

def lastNamed (wanted : κ) (entries : List α) : Option α :=
  entries.reverse.find? fun entry => name entry = wanted

/-- The first entry of a name at a time. -/
def firstAt (wanted : κ) (moment : τ) (entries : List α) : Option α :=
  entries.find? fun entry => name entry = wanted ∧ time entry = moment

end Definitions

variable {name : α → κ} {time : α → τ}

variable {wanted : κ}

theorem keepNewer_of_ne {kept : κ → Option α} {entry : α} (other : name entry ≠ wanted) :
    keepNewer name time kept entry wanted = kept wanted := by
  unfold keepNewer
  cases kept (name entry) with
  | none => exact Function.update_of_ne other.symm _ _
  | some existing =>
    dsimp only
    split_ifs
    · exact Function.update_of_ne other.symm _ _
    · rfl

theorem keepNewer_self (kept : κ → Option α) (entry : α) :
    keepNewer name time kept entry (name entry) =
      match kept (name entry) with
      | none => some entry
      | some existing => if time existing < time entry then some entry else some existing := by
  unfold keepNewer
  cases isKept : kept (name entry) with
  | none => exact Function.update_self ..
  | some existing =>
    dsimp only
    split_ifs
    · exact Function.update_self ..
    · exact isKept

omit [LinearOrder τ] in
theorem lastNamed_append (wanted : κ) (entries : List α) (entry : α) :
    lastNamed name wanted (entries ++ [entry]) =
      if name entry = wanted then some entry else lastNamed name wanted entries := by
  rw [lastNamed, List.reverse_append, List.reverse_singleton, List.singleton_append]
  split_ifs with same
  · exact List.find?_cons_of_pos (decide_eq_true same)
  · exact List.find?_cons_of_neg (by simpa using same)

omit [LinearOrder τ] in
theorem lastNamed_eq_getLast? (wanted : κ) (entries : List α) :
    lastNamed name wanted entries = (entries.filter fun entry => name entry = wanted).getLast? := by
  rw [lastNamed, ← List.head?_filter, List.filter_reverse, List.head?_reverse]

variable {entries : List α}

theorem mem_lastNamed {last : α} (found : lastNamed name wanted entries = some last) :
    last ∈ entries ∧ name last = wanted := by
  have isNamed := List.find?_some found
  exact ⟨List.mem_reverse.mp (List.mem_of_find?_eq_some found), of_decide_eq_true isNamed⟩

theorem lastNamed_eq_none (absent : lastNamed name wanted entries = none) :
    ∀ entry ∈ entries, name entry ≠ wanted := by
  intro entry member same
  have notFound := List.find?_eq_none.mp absent entry (List.mem_reverse.mpr member)
  exact notFound (decide_eq_true same)

/-- The last entry of a name is the newest one, if the entries come in the order of time. -/
theorem le_lastNamed {last : α} (sorted : entries.Pairwise fun left right => time left ≤ time right)
    (found : lastNamed name wanted entries = some last) :
    ∀ entry ∈ entries, name entry = wanted → time entry ≤ time last := by
  induction entries using List.reverseRecOn with
  | nil => cases found
  | append_singleton entries entry induction =>
    obtain ⟨earlier, _, before⟩ := List.pairwise_append.mp sorted
    rw [lastNamed_append] at found
    intro each member isNamed
    split_ifs at found with same
    · have isLast : entry = last := Option.some.inj found
      rw [← isLast]
      obtain old | new := List.mem_append.mp member
      · exact before each old entry (List.mem_singleton_self entry)
      · rw [List.mem_singleton.mp new]
    · obtain old | new := List.mem_append.mp member
      · exact induction earlier found each old isNamed
      · rw [List.mem_singleton.mp new] at isNamed
        exact absurd isNamed same

theorem newest_eq (sorted : entries.Pairwise fun left right => time left ≤ time right)
    (wanted : κ) :
    newest name time entries wanted = (lastNamed name wanted entries).bind fun last =>
      firstAt name time wanted (time last) entries := by
  induction entries using List.reverseRecOn with
  | nil => rfl
  | append_singleton entries entry induction =>
    obtain ⟨earlier, _, before⟩ := List.pairwise_append.mp sorted
    have soFar := induction earlier
    have isStep : newest name time (entries ++ [entry]) =
        keepNewer name time (newest name time entries) entry := by
      rw [newest, List.foldl_append]
      rfl
    rw [isStep, lastNamed_append]
    by_cases same : name entry = wanted
    · subst same
      rw [keepNewer_self, if_pos rfl, Option.bind_some, soFar, firstAt, List.find?_append]
      have isEntry : [entry].find? (fun each =>
          decide (name each = name entry ∧ time each = time entry)) = some entry :=
        List.find?_cons_of_pos (decide_eq_true ⟨rfl, rfl⟩)
      rw [isEntry]
      cases isLast : lastNamed name (name entry) entries with
      | none =>
        have noneBefore : entries.find? (fun each =>
            decide (name each = name entry ∧ time each = time entry)) = none := by
          apply List.find?_eq_none.mpr
          intro each member both
          exact lastNamed_eq_none isLast each member (of_decide_eq_true both).1
        rw [noneBefore]
        rfl
      | some last =>
        obtain ⟨isMember, isNamed⟩ := mem_lastNamed isLast
        have notLater := before last isMember entry (List.mem_singleton_self entry)
        have present : firstAt name time (name entry) (time last) entries ≠ none := by
          intro absent
          exact List.find?_eq_none.mp absent last isMember
            (decide_eq_true ⟨isNamed, rfl⟩)
        obtain ⟨first, isFirst⟩ := Option.ne_none_iff_exists'.mp present
        have firstTime : time first = time last := by
          have found := List.find?_some (p := fun each =>
            decide (name each = name entry ∧ time each = time last)) isFirst
          exact (of_decide_eq_true found).2
        rw [Option.bind_some, isFirst]
        dsimp only
        rw [firstTime]
        split_ifs with isNewer
        · have noneBefore : entries.find? (fun each =>
              decide (name each = name entry ∧ time each = time entry)) = none := by
            apply List.find?_eq_none.mpr
            intro each member both
            obtain ⟨eachNamed, eachTime⟩ := of_decide_eq_true both
            have least := le_lastNamed earlier isLast each member eachNamed
            rw [eachTime] at least
            exact not_lt.mpr least isNewer
          rw [noneBefore]
          rfl
        · have sameTime : time entry = time last := le_antisymm (not_lt.mp isNewer) notLater
          rw [firstAt, ← sameTime] at isFirst
          rw [isFirst]
          rfl
    · rw [keepNewer_of_ne same, if_neg same, soFar]
      cases isLast : lastNamed name wanted entries with
      | none => rfl
      | some last =>
        obtain ⟨isMember, isNamed⟩ := mem_lastNamed isLast
        rw [Option.bind_some, Option.bind_some, firstAt, firstAt, List.find?_append]
        have notEntry : [entry].find? (fun each =>
            decide (name each = wanted ∧ time each = time last)) = none :=
          List.find?_cons_of_neg fun both => same (of_decide_eq_true both).1
        rw [notEntry, Option.or_none]

/-- Both ways agree if and only if the last entry of the name is the first one of its time. -/
theorem newest_eq_lastNamed_iff (name : α → κ)
    (sorted : entries.Pairwise fun left right => time left ≤ time right) (wanted : κ) :
    newest name time entries wanted = lastNamed name wanted entries ↔
      ∀ last ∈ lastNamed name wanted entries,
        firstAt name time wanted (time last) entries = some last := by
  rw [newest_eq sorted]
  cases lastNamed name wanted entries with
  | none => exact iff_of_true rfl fun last absent => nomatch absent
  | some last =>
    rw [Option.bind_some]
    constructor
    · intro same other isLast
      cases isLast
      exact same
    · intro all
      exact all last rfl

end QAExchange.Foundation
