import Mathlib.Order.Lattice
import Mathlib.Data.List.Basic

/-! # Ranges of keys

Ranges from a least to a greatest key. Two ranges are apart if one of them ends before
the other begins. A range that spans others may reach over one that is apart from each
of them.
-/

namespace QAExchange.Foundation

variable {α : Type} [LinearOrder α]

@[ext]
structure KeyRange (α : Type) [LinearOrder α] where
  low : α
  high : α
  ordered : low ≤ high

namespace KeyRange

def Before (left right : KeyRange α) : Prop := left.high < right.low

def Apart (left right : KeyRange α) : Prop := left.Before right ∨ right.Before left

theorem Apart.symm {left : KeyRange α} (apart : left.Apart right) : right.Apart left :=
  apart.elim .inr .inl

theorem apart_comm {left : KeyRange α} : left.Apart right ↔ right.Apart left :=
  ⟨Apart.symm, Apart.symm⟩

theorem Before.trans {first : KeyRange α} (one : first.Before second) (two : second.Before third) :
    first.Before third :=
  one.trans_le (second.ordered.trans two.le)

theorem not_before_self (range : KeyRange α) : ¬ range.Before range :=
  not_lt.mpr range.ordered

theorem not_apart_self (range : KeyRange α) : ¬ range.Apart range := by
  rintro (before | before) <;> exact range.not_before_self before

/-- What is before a range is before everything that meets the range, unless it meets it
itself. -/
theorem before_of_meets {other : KeyRange α} (before : other.Before source)
    (meets : ¬ source.Apart near) (apart : near.Apart other) : other.Before near := by
  rcases apart with first | first
  · exact absurd (.inr (first.trans before)) meets
  · exact first

theorem behind_of_meets {source : KeyRange α} (behind : source.Before other)
    (meets : ¬ source.Apart near) (apart : near.Apart other) : near.Before other := by
  rcases apart with first | first
  · exact first
  · exact absurd (.inl (behind.trans first)) meets

structure Spans (range : KeyRange α) (values : List α) : Prop where
  low : range.low ∈ values
  high : range.high ∈ values
  within : ∀ value ∈ values, range.low ≤ value ∧ value ≤ range.high

theorem Spans.before_iff {range : KeyRange α} (spans : range.Spans values) (other : KeyRange α) :
    range.Before other ↔ ∀ value ∈ values, value < other.low := by
  constructor
  · intro before value member
    exact (spans.within value member).2.trans_lt before
  · intro all
    exact all _ spans.high

theorem Spans.behind_iff {range : KeyRange α} (spans : range.Spans values) (other : KeyRange α) :
    other.Before range ↔ ∀ value ∈ values, other.high < value := by
  constructor
  · intro behind value member
    exact behind.trans_le (spans.within value member).1
  · intro all
    exact all _ spans.low

/-- A range that spans the values of several ranges is apart from another one if and only
if all of them are on the same side of it. -/
theorem Spans.apart_iff {whole : KeyRange α} {values : List α} (spans : whole.Spans values)
    {parts : List ι} {range : ι → KeyRange α} {valuesOf : ι → List α}
    (partSpans : ∀ part ∈ parts, (range part).Spans (valuesOf part))
    (same : ∀ value, value ∈ values ↔ ∃ part ∈ parts, value ∈ valuesOf part) (other : KeyRange α) :
    whole.Apart other ↔ (∀ part ∈ parts, (range part).Before other) ∨
      ∀ part ∈ parts, other.Before (range part) := by
  have isBefore : whole.Before other ↔ ∀ part ∈ parts, (range part).Before other := by
    rw [spans.before_iff]
    constructor
    · intro all part member
      rw [(partSpans part member).before_iff]
      intro value inside
      exact all value ((same value).mpr ⟨part, member, inside⟩)
    · intro all value inside
      rcases (same value).mp inside with ⟨part, member, within⟩
      exact ((partSpans part member).before_iff other).mp (all part member) value within
  have isBehind : other.Before whole ↔ ∀ part ∈ parts, other.Before (range part) := by
    rw [spans.behind_iff]
    constructor
    · intro all part member
      rw [(partSpans part member).behind_iff]
      intro value inside
      exact all value ((same value).mpr ⟨part, member, inside⟩)
    · intro all value inside
      rcases (same value).mp inside with ⟨part, member, within⟩
      exact ((partSpans part member).behind_iff other).mp (all part member) value within
  rw [Apart, isBefore, isBehind]

/-- Sources are merged with what they meet. What is apart from all of these is apart from
the merged range if and only if it is not between two of the sources. -/
theorem Spans.apart_merged_iff {whole : KeyRange α} {values : List α} (spans : whole.Spans values)
    {sources nears : List ι} {range : ι → KeyRange α} {valuesOf : ι → List α}
    (partSpans : ∀ part ∈ sources ++ nears, (range part).Spans (valuesOf part))
    (same : ∀ value, value ∈ values ↔ ∃ part ∈ sources ++ nears, value ∈ valuesOf part)
    (meets : ∀ near ∈ nears, ∃ source ∈ sources, ¬ (range source).Apart (range near))
    {other : KeyRange α} (apart : ∀ part ∈ sources ++ nears, (range part).Apart other) :
    whole.Apart other ↔ ¬ ((∃ low ∈ sources, (range low).Before other) ∧
      ∃ high ∈ sources, other.Before (range high)) := by
  have sourceApart : ∀ source ∈ sources, (range source).Apart other := fun source member =>
    apart source (List.mem_append_left _ member)
  rw [spans.apart_iff partSpans same]
  constructor
  · rintro (behind | before) ⟨⟨low, isLow, first⟩, high, isHigh, second⟩
    · exact (range high).not_before_self
        ((behind high (List.mem_append_left _ isHigh)).trans second)
    · exact (range low).not_before_self
        (first.trans (before low (List.mem_append_left _ isLow)))
  · intro oneSide
    rcases not_and_or.mp oneSide with noneLow | noneHigh
    · right
      have before : ∀ source ∈ sources, other.Before (range source) := by
        intro source member
        apply (sourceApart source member).resolve_left
        intro first
        exact noneLow ⟨source, member, first⟩
      intro part member
      rcases List.mem_append.mp member with isSource | isNear
      · exact before part isSource
      · rcases meets part isNear with ⟨source, isSource, meet⟩
        exact before_of_meets (before source isSource) meet (apart part member)
    · left
      have behind : ∀ source ∈ sources, (range source).Before other := by
        intro source member
        apply (sourceApart source member).resolve_right
        intro second
        exact noneHigh ⟨source, member, second⟩
      intro part member
      rcases List.mem_append.mp member with isSource | isNear
      · exact behind part isSource
      · rcases meets part isNear with ⟨source, isSource, meet⟩
        exact behind_of_meets (behind source isSource) meet (apart part member)

end KeyRange

/-- The smaller one of a value and the least one before it. -/
def keepLeast (least : Option α) (value : α) : Option α :=
  if least.all fun least => value < least then some value else least

def keepGreatest (greatest : Option α) (value : α) : Option α :=
  if greatest.all fun greatest => greatest < value then some value else greatest

theorem foldl_keepLeast_some (values : List α) (first : α) :
    ∃ low, values.foldl keepLeast (some first) = some low ∧ low ∈ first :: values ∧
      ∀ value ∈ first :: values, low ≤ value := by
  induction values generalizing first with
  | nil => exact ⟨first, rfl, by simp, by simp⟩
  | cons value values induction =>
    rw [List.foldl_cons, keepLeast]
    simp only [Option.all_some, decide_eq_true_iff]
    split_ifs with smaller
    · rcases induction value with ⟨low, isLow, member, least⟩
      refine ⟨low, isLow, List.mem_cons_of_mem _ member, ?_⟩
      intro other inside
      rcases List.mem_cons.mp inside with rfl | inside
      · exact (least value (by simp)).trans smaller.le
      · exact least other inside
    · rcases induction first with ⟨low, isLow, member, least⟩
      refine ⟨low, isLow, ?_, ?_⟩
      · rcases List.mem_cons.mp member with rfl | member
        · simp
        · simp [member]
      · intro other inside
        rcases List.mem_cons.mp inside with rfl | inside
        · exact least _ (by simp)
        · rcases List.mem_cons.mp inside with rfl | inside
          · exact (least first (by simp)).trans (not_lt.mp smaller)
          · exact least other (List.mem_cons_of_mem _ inside)

theorem foldl_keepLeast {values : List α} (some : values ≠ []) :
    ∃ low, values.foldl keepLeast none = .some low ∧ low ∈ values ∧
      ∀ value ∈ values, low ≤ value := by
  cases values with
  | nil => exact absurd rfl some
  | cons first values => exact foldl_keepLeast_some values first

theorem foldl_keepGreatest {values : List α} (some : values ≠ []) :
    ∃ high, values.foldl keepGreatest none = .some high ∧ high ∈ values ∧
      ∀ value ∈ values, value ≤ high :=
  foldl_keepLeast (α := αᵒᵈ) some

end QAExchange.Foundation
