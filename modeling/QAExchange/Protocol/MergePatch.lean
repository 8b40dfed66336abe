import Mathlib.Data.String.Basic
import QAExchange.Foundation.KeyedRows

/-! # JSON merge patches

A patch that is an object is merged key by key, and any other takes the place of the
value.
-/

namespace QAExchange

open Foundation

/-- A JSON value. An object has its fields in the order of their keys, and a number is
given by a text that only equal numbers share. -/
inductive Value
  | null
  | bool (value : Bool)
  | number (text : String)
  | string (text : String)
  | array (items : List Value)
  | object (fields : List (String × Value))

namespace Value

def isObject : Value → Bool
  | .object _ => true
  | .null | .bool _ | .number _ | .string _ | .array _ => false

/-- The fields, where `merge_patch` takes what is no object for an empty one. -/
def asObject : Value → List (String × Value)
  | .object fields => fields
  | .null | .bool _ | .number _ | .string _ | .array _ => []

def emptyObject : Value := .object []

end Value

def getField (key : String) (fields : List (String × Value)) : Option Value :=
  (fields.find? fun field => field.1 = key).map Prod.snd

def removeField (key : String) (fields : List (String × Value)) : List (String × Value) :=
  fields.filter fun field => field.1 ≠ key

def insertField (key : String) (value : Value) (fields : List (String × Value)) :
    List (String × Value) :=
  KeyedRows.insertRow Prod.fst (key, value) fields

mutual

/-- One round of the loop. A nested object is merged into the value that the target has
under the key, or into an empty object. -/
def mergeField (key : String) (target : List (String × Value)) : Value → List (String × Value)
  | .null => removeField key target
  | .object inner =>
    let targetValue := (getField key target).getD .emptyObject
    insertField key (.object (mergeFields targetValue.asObject inner)) target
  | .bool value => insertField key (.bool value) target
  | .number text => insertField key (.number text) target
  | .string text => insertField key (.string text) target
  | .array items => insertField key (.array items) target
termination_by structural patch => patch

def mergeFields (target : List (String × Value)) :
    List (String × Value) → List (String × Value)
  | [] => target
  | (key, value) :: fields => mergeFields (mergeField key target value) fields
termination_by structural fields => fields

end

/-- `merge_patch(target, patch)` -/
def mergePatch (target : Value) : Value → Value
  | .object fields => .object (mergeFields target.asObject fields)
  | .null => .null
  | .bool value => .bool value
  | .number text => .number text
  | .string text => .string text
  | .array items => .array items

def applyPatches (snapshot : Value) (patches : List Value) : Value :=
  patches.foldl mergePatch snapshot

theorem applyPatches_append (snapshot : Value) (first second : List Value) :
    applyPatches snapshot (first ++ second) =
      applyPatches (applyPatches snapshot first) second :=
  List.foldl_append

end QAExchange
