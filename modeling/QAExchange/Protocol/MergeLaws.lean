import QAExchange.Protocol.MergePatch

/-! # Merging as RFC 7386 has it

The members of a merged object, key by key, and with them the `MergePatch` function of the
standard. A patch that is merged a second time changes nothing.
-/

namespace QAExchange

open Foundation

/-! ## Objects as maps -/

def SortedFields (fields : List (String × Value)) : Prop :=
  fields.Pairwise fun left right => left.1 < right.1

mutual

def Value.Ordered : Value → Prop
  | .object fields => SortedFields fields ∧ OrderedMembers fields
  | .array items => OrderedItems items
  | .null | .bool _ | .number _ | .string _ => True
termination_by structural value => value

def OrderedMembers : List (String × Value) → Prop
  | [] => True
  | (_, value) :: fields => value.Ordered ∧ OrderedMembers fields
termination_by structural fields => fields

def OrderedItems : List Value → Prop
  | [] => True
  | value :: items => value.Ordered ∧ OrderedItems items
termination_by structural items => items

end

/-- A value as the parser or the `json!` macro builds it. -/
abbrev JsonValue := { value : Value // value.Ordered }

def SortedFields.map {fields : List (String × Value)} (sorted : SortedFields fields) :
    KeyedRows (Prod.fst : String × Value → String) where
  rows := fields
  sorted := sorted

section

variable (sorted : SortedFields fields)
include sorted

theorem SortedFields.get_map (key : String) :
    getField key fields = (sorted.map.get key).map Prod.snd := rfl

theorem SortedFields.insert (key : String) (value : Value) :
    SortedFields (insertField key value fields) :=
  (sorted.map.insert (key, value)).sorted

theorem SortedFields.remove (key : String) : SortedFields (removeField key fields) :=
  (sorted.map.remove key).sorted

theorem SortedFields.getField_insertField (key : String) (value : Value) (wanted : String) :
    getField wanted (insertField key value fields) =
      if key = wanted then some value else getField wanted fields := by
  have get_insert := KeyedRows.get_insert (key, value) sorted.map wanted
  rw [(sorted.insert key value).get_map, sorted.get_map]
  change ((sorted.map.insert (key, value)).get wanted).map Prod.snd = _
  rw [get_insert]
  split_ifs <;> rfl

theorem SortedFields.getField_removeField (key wanted : String) :
    getField wanted (removeField key fields) =
      if wanted = key then none else getField wanted fields := by
  have get_remove := KeyedRows.get_remove key sorted.map wanted
  rw [(sorted.remove key).get_map, sorted.get_map]
  change ((sorted.map.remove key).get wanted).map Prod.snd = _
  rw [get_remove]
  split_ifs <;> rfl

theorem SortedFields.mem_of_getField :
    getField key fields = some value ↔ (key, value) ∈ fields := by
  rw [sorted.get_map, Option.map_eq_some_iff]
  constructor
  · intro found
    obtain ⟨⟨foundKey, _⟩, found, rfl⟩ := found
    obtain ⟨member, isKey⟩ := KeyedRows.get_eq_some.mp found
    dsimp only at isKey
    rw [← isKey]
    exact member
  · intro member
    exact ⟨(key, value), KeyedRows.get_eq_some.mpr ⟨member, rfl⟩, rfl⟩

end

theorem SortedFields.eq_of_getField (leftSorted : SortedFields left)
    (rightSorted : SortedFields right) (same : ∀ key, getField key left = getField key right) :
    left = right := by
  apply eq_of_sorted Prod.fst leftSorted rightSorted
  intro field
  have member : getField field.1 left = some field.2 ↔ field ∈ left :=
    leftSorted.mem_of_getField
  rw [same, rightSorted.mem_of_getField] at member
  exact member.symm

@[simp] theorem getField_nil (key : String) : getField key [] = none := rfl

theorem getField_cons (key head : String) (value : Value) (fields : List (String × Value)) :
    getField key ((head, value) :: fields) =
      if head = key then some value else getField key fields := by
  rw [getField, List.find?_cons]
  split_ifs with isHead
  · rw [decide_eq_true isHead]
    rfl
  · rw [decide_eq_false isHead]
    rfl

theorem SortedFields.tail {field : String × Value} (sorted : SortedFields (field :: fields)) :
    SortedFields fields :=
  (List.pairwise_cons.mp sorted).2

theorem SortedFields.getField_tail (sorted : SortedFields ((key, value) :: fields)) :
    getField key fields = none := by
  rw [getField, Option.map_eq_none_iff, List.find?_eq_none]
  intro field member
  have larger := (List.pairwise_cons.mp sorted).1 field member
  simpa using larger.ne'

theorem orderedMembers_iff : OrderedMembers fields ↔ ∀ field ∈ fields, field.2.Ordered := by
  induction fields with
  | nil => simp [OrderedMembers]
  | cons field fields induction =>
    rw [OrderedMembers, induction, List.forall_mem_cons]

theorem Value.Ordered.fields {value : Value} (ordered : value.Ordered) :
    SortedFields value.asObject := by
  cases value with
  | object fields => exact ordered.1
  | null | bool | number | string | array => exact List.Pairwise.nil

theorem Value.Ordered.member {value member : Value} {key : String} (ordered : value.Ordered)
    (found : getField key value.asObject = some member) : member.Ordered := by
  cases value with
  | object fields =>
    exact orderedMembers_iff.mp ordered.2 _ (ordered.1.mem_of_getField.mp found)
  | null | bool | number | string | array => cases found

theorem ordered_object (sorted : SortedFields fields)
    (members : ∀ key value, getField key fields = some value → value.Ordered) :
    (Value.object fields).Ordered := by
  apply And.intro sorted
  apply orderedMembers_iff.mpr
  intro field member
  exact members field.1 field.2 (sorted.mem_of_getField.mpr member)

theorem sizeOf_member {value : Value} (found : getField key value.asObject = some member) :
    sizeOf member < sizeOf value := by
  cases value with
  | object fields =>
    obtain ⟨field, isFirst, rfl⟩ := Option.map_eq_some_iff.mp found
    have inFields := List.sizeOf_lt_of_mem (List.mem_of_find?_eq_some isFirst)
    have inField : sizeOf field = 1 + sizeOf field.1 + sizeOf field.2 := rfl
    have inObject := Value.object.sizeOf_spec fields
    dsimp only [Value.asObject] at inFields
    omega
  | null | bool | number | string | array => cases found

/-! ## The members of a merged object -/

def mergedMember (target : Option Value) (patch : Value) : Option Value :=
  match patch with
  | .null => none
  | .bool _ | .number _ | .string _ | .array _ | .object _ =>
    some (mergePatch (target.getD .emptyObject) patch)

def mergedUnder (target : Option Value) : Option Value → Option Value
  | none => target
  | some patch => mergedMember target patch

theorem SortedFields.mergeField (sorted : SortedFields target) (key : String) (patch : Value) :
    SortedFields (mergeField key target patch) := by
  cases patch with
  | null => exact sorted.remove key
  | bool | number | string | array | object => exact sorted.insert key _

theorem SortedFields.getField_mergeField (sorted : SortedFields target) (key : String)
    (patch : Value) (wanted : String) :
    getField wanted (QAExchange.mergeField key target patch) =
      if key = wanted then mergedMember (getField wanted target) patch
      else getField wanted target := by
  cases patch with
  | null =>
    rw [QAExchange.mergeField, sorted.getField_removeField, if_congr eq_comm rfl rfl]
    rfl
  | bool | number | string | array | object =>
    rw [QAExchange.mergeField, sorted.getField_insertField]
    split_ifs with same
    · subst same
      rfl
    · rfl

theorem SortedFields.mergeFields (sorted : SortedFields target) :
    SortedFields (mergeFields target fields) := by
  induction fields generalizing target with
  | nil => exact sorted
  | cons field fields induction => exact induction (sorted.mergeField field.1 field.2)

theorem getField_mergeFields (sorted : SortedFields target) (distinct : SortedFields fields)
    (wanted : String) :
    getField wanted (mergeFields target fields) =
      mergedUnder (getField wanted target) (getField wanted fields) := by
  induction fields generalizing target with
  | nil => rfl
  | cons field fields induction =>
    obtain ⟨key, patch⟩ := field
    rw [mergeFields, induction (sorted.mergeField key patch) distinct.tail,
      sorted.getField_mergeField, getField_cons]
    split_ifs with same
    · rw [← same, distinct.getField_tail]
      rfl
    · rfl

theorem ordered_emptyObject : Value.emptyObject.Ordered :=
  ⟨.nil, trivial⟩

theorem ordered_getD {value : Value} (ordered : value.Ordered) :
    ((getField key value.asObject).getD .emptyObject).Ordered := by
  cases found : getField key value.asObject with
  | none => exact ordered_emptyObject
  | some member => exact ordered.member found

theorem Value.Ordered.mergePatch {target patch : Value} (ordered : target.Ordered)
    (patchOrdered : patch.Ordered) : (mergePatch target patch).Ordered := by
  cases isPatch : patch with
  | null | bool | number | string => trivial
  | array =>
    subst isPatch
    exact patchOrdered
  | object fields =>
    subst isPatch
    apply ordered_object ordered.fields.mergeFields
    intro key value found
    rw [getField_mergeFields ordered.fields patchOrdered.1] at found
    cases patched : getField key fields with
    | none =>
      rw [patched] at found
      exact ordered.member found
    | some inner =>
      have innerOrdered := patchOrdered.member patched
      have shorter : sizeOf inner < sizeOf (Value.object fields) := sizeOf_member patched
      have place : ((getField key target.asObject).getD .emptyObject).Ordered :=
        ordered_getD ordered
      rw [patched] at found
      cases isInner : inner with
      | null =>
        rw [isInner] at found
        cases found
      | bool | number | string | array | object =>
        have merged := place.mergePatch innerOrdered
        rw [isInner] at found merged
        cases found
        exact merged
termination_by sizeOf patch

/-! ## The standard -/

def Value.isNull : Value → Bool
  | .null => true
  | .bool _ | .number _ | .string _ | .array _ | .object _ => false

namespace Rfc7386

mutual

/-- `MergePatch(Target, Patch)`. The target under a name that the object has not got is
`none`, which is no object. -/
def mergePatch (target : Option Value) : Value → Value
  | .object pairs => .object (mergePairs (target.elim [] Value.asObject) pairs)
  | .null => .null
  | .bool value => .bool value
  | .number text => .number text
  | .string text => .string text
  | .array items => .array items
termination_by structural patch => patch

def mergePairs (target : List (String × Value)) :
    List (String × Value) → List (String × Value)
  | [] => target
  | (name, value) :: pairs =>
    if value.isNull then
      if (getField name target).isSome then mergePairs (removeField name target) pairs
      else mergePairs target pairs
    else mergePairs (insertField name (mergePatch (getField name target) value) target) pairs
termination_by structural pairs => pairs

end

end Rfc7386

theorem removeField_of_none (absent : getField name fields = none) :
    removeField name fields = fields := by
  rw [getField, Option.map_eq_none_iff, List.find?_eq_none] at absent
  apply List.filter_eq_self.mpr
  intro field member
  simpa using absent field member

theorem elim_asObject (target : Option Value) :
    target.elim [] Value.asObject = (target.getD .emptyObject).asObject := by
  cases target <;> rfl

mutual

theorem rfcMergePatch_eq (target : Option Value) (patch : Value) :
    Rfc7386.mergePatch target patch = mergePatch (target.getD .emptyObject) patch := by
  cases patch with
  | null | bool | number | string | array => rfl
  | object pairs =>
    rw [Rfc7386.mergePatch, mergePatch, elim_asObject, rfcMergePairs_eq]

theorem rfcMergePairs_eq (target pairs : List (String × Value)) :
    Rfc7386.mergePairs target pairs = mergeFields target pairs := by
  cases pairs with
  | nil => rfl
  | cons pair pairs =>
    obtain ⟨name, value⟩ := pair
    have inner := rfcMergePatch_eq (getField name target) value
    rw [Rfc7386.mergePairs, mergeFields, inner]
    cases value with
    | null =>
      simp only [Value.isNull, if_true]
      split_ifs with found
      · exact rfcMergePairs_eq _ pairs
      · rw [rfcMergePairs_eq, mergeField,
          removeField_of_none (Option.not_isSome_iff_eq_none.mp found)]
    | bool | number | string | array | object => exact rfcMergePairs_eq _ pairs

end

theorem mergePatch_again {target patch : Value} (ordered : target.Ordered)
    (patchOrdered : patch.Ordered) :
    mergePatch (mergePatch target patch) patch = mergePatch target patch := by
  cases isPatch : patch with
  | null | bool | number | string | array => rfl
  | object fields =>
    subst isPatch
    have merged := ordered.mergePatch patchOrdered
    have mergedFields : SortedFields (mergeFields target.asObject fields) := merged.1
    apply congrArg Value.object
    apply mergedFields.mergeFields.eq_of_getField mergedFields
    intro key
    rw [getField_mergeFields mergedFields patchOrdered.1,
      getField_mergeFields ordered.fields patchOrdered.1]
    cases patched : getField key fields with
    | none => rfl
    | some inner =>
      have innerOrdered := patchOrdered.member patched
      have shorter : sizeOf inner < sizeOf (Value.object fields) := sizeOf_member patched
      have place : ((getField key target.asObject).getD .emptyObject).Ordered :=
        ordered_getD ordered
      have again := mergePatch_again place innerOrdered
      cases isInner : inner with
      | null => rfl
      | bool | number | string | array => rfl
      | object =>
        rw [isInner] at again
        exact congrArg some again
termination_by sizeOf patch

theorem ordered_applyPatches {snapshot : Value} (ordered : snapshot.Ordered)
    (patches : List JsonValue) : (applyPatches snapshot (patches.map Subtype.val)).Ordered := by
  induction patches generalizing snapshot with
  | nil => exact ordered
  | cons patch patches induction => exact induction (ordered.mergePatch patch.2)

/-- A merge is the one of the standard, a list of patches is merged from left to right, and a
patch that comes a second time changes nothing. -/
theorem mergePatch_follows_rfc (target patch : JsonValue) (patches : List JsonValue) :
    mergePatch target.1 patch.1 = Rfc7386.mergePatch (some target.1) patch.1 ∧
      applyPatches target.1 (patches.map Subtype.val) =
        patches.foldl (fun value patch => Rfc7386.mergePatch (some value) patch.1) target.1 ∧
      mergePatch (mergePatch target.1 patch.1) patch.1 = mergePatch target.1 patch.1 ∧
      applyPatches target.1 (patches.map Subtype.val ++ [patch.1, patch.1]) =
        applyPatches target.1 (patches.map Subtype.val ++ [patch.1]) := by
  have follows : ∀ value : Value, ∀ patch : JsonValue,
      Rfc7386.mergePatch (some value) patch.1 = mergePatch value patch.1 := by
    intro value patch
    exact rfcMergePatch_eq (some value) patch.1
  have again : ∀ value : Value, value.Ordered →
      mergePatch (mergePatch value patch.1) patch.1 = mergePatch value patch.1 := by
    intro value ordered
    exact mergePatch_again ordered patch.2
  refine ⟨(follows target.1 patch).symm, ?_, again target.1 target.2, ?_⟩
  · simp only [follows]
    rw [applyPatches, List.foldl_map]
  · rw [applyPatches_append, applyPatches_append]
    exact again _ (ordered_applyPatches target.2 patches)

end QAExchange
