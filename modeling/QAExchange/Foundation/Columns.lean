import Mathlib.Data.List.Induction

/-! # Columns

A table that is kept by columns, each with a type of its own. Rows come in as cells that are
pushed to the ends of their columns one after the other. Where each row has one cell for every
column, the cells of a row stand at the same place in all of them.
-/

namespace QAExchange.Foundation

variable {Field : Type} [DecidableEq Field] {Denote : Field → Type}

structure Cell (Denote : Field → Type) where
  field : Field
  value : Option (Denote field)

def Cell.at (field : Field) (cell : Cell Denote) : Option (Option (Denote field)) :=
  if same : cell.field = field then some (same ▸ cell.value) else none

abbrev Columns (Denote : Field → Type) := (field : Field) → List (Option (Denote field))

namespace Columns

def empty : Columns Denote := fun _ => []

def push (columns : Columns Denote) (cell : Cell Denote) : Columns Denote :=
  Function.update columns cell.field (columns cell.field ++ [cell.value])

def pushRow (columns : Columns Denote) (row : List (Cell Denote)) : Columns Denote :=
  row.foldl push columns

def ofRows (rows : List (List (Cell Denote))) : Columns Denote := rows.foldl pushRow empty

theorem push_apply (columns : Columns Denote) (cell : Cell Denote) (field : Field) :
    columns.push cell field = columns field ++ (cell.at field).toList := by
  rw [push, Cell.at]
  split_ifs with same
  · cases same
    rw [Function.update_self]
    rfl
  · have other : field ≠ cell.field := fun equal => same equal.symm
    rw [Function.update_of_ne other]
    exact (List.append_nil _).symm

theorem pushRow_apply (row : List (Cell Denote)) (columns : Columns Denote) (field : Field) :
    columns.pushRow row field = columns field ++ row.filterMap (Cell.at field) := by
  induction row generalizing columns with
  | nil => exact (List.append_nil _).symm
  | cons cell row induction =>
    have first := push_apply columns cell field
    have later := induction (columns.push cell)
    rw [pushRow, List.foldl_cons]
    change (columns.push cell).pushRow row field = _
    rw [later, first, List.append_assoc]
    congr 1
    rw [List.filterMap_cons]
    cases cell.at field with
    | none => rfl
    | some value => rfl

end Columns

def IsRow (row : List (Cell Denote)) : Prop :=
  ∀ field, ∃ value, row.filterMap (Cell.at field) = [value]

def rowValue (field : Field) (row : List (Cell Denote)) : Option (Denote field) :=
  (row.filterMap (Cell.at field)).head?.join

namespace Columns

variable {rows : List (List (Cell Denote))} (areRows : ∀ row ∈ rows, IsRow row)

include areRows

theorem ofRows_apply (field : Field) : ofRows rows field = rows.map (rowValue field) := by
  induction rows using List.reverseRecOn with
  | nil => rfl
  | append_singleton rows row induction =>
    have before := induction fun other member => areRows other (List.mem_append_left _ member)
    obtain ⟨value, isValue⟩ :=
      areRows row (List.mem_append_right _ (List.mem_singleton_self row)) field
    have isRowValue : rowValue field row = value := by
      rw [rowValue, isValue, List.head?_cons, Option.join_some]
    rw [ofRows, List.foldl_append, List.foldl_cons, List.foldl_nil, pushRow_apply, isValue,
      List.map_append, List.map_singleton, isRowValue]
    congr 1

theorem length_ofRows (field : Field) : (ofRows rows field).length = rows.length := by
  rw [ofRows_apply areRows, List.length_map]

end Columns

end QAExchange.Foundation
