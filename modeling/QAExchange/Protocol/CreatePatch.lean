import QAExchange.Protocol.MergeLaws

/-! # The patch between two objects

`create_patch` compares two objects key by key. Its patch leads from the first to the
second, except that a null cannot be put into an object by a patch.
-/

namespace QAExchange

open Foundation Value

mutual

/-- `left == right` -/
def Value.same : Value → Value → Bool
  | .null, .null => true
  | .bool left, .bool right => left == right
  | .number left, .number right => left == right
  | .string left, .string right => left == right
  | .array left, .array right => sameItems left right
  | .object left, .object right => sameFields left right
  | _, _ => false
termination_by structural left => left

def sameItems : List Value → List Value → Bool
  | [], [] => true
  | left :: lefts, right :: rights => left.same right && sameItems lefts rights
  | _, _ => false
termination_by structural lefts => lefts

def sameFields : List (String × Value) → List (String × Value) → Bool
  | [], [] => true
  | (leftKey, left) :: lefts, (rightKey, right) :: rights =>
    leftKey == rightKey && left.same right && sameFields lefts rights
  | _, _ => false
termination_by structural lefts => lefts

end

mutual

theorem Value.same_iff (left right : Value) : left.same right = true ↔ left = right := by
  cases left with
  | null | bool | number | string => cases right <;> simp [same]
  | array lefts =>
    cases right with
    | array rights => rw [same, sameItems_iff, array.injEq]
    | null | bool | number | string | object => simp [same]
  | object lefts =>
    cases right with
    | object rights => rw [same, sameFields_iff, object.injEq]
    | null | bool | number | string | array => simp [same]

theorem sameItems_iff (lefts rights : List Value) :
    sameItems lefts rights = true ↔ lefts = rights := by
  cases lefts with
  | nil => cases rights <;> simp [sameItems]
  | cons left lefts =>
    cases rights with
    | nil => simp [sameItems]
    | cons right rights =>
      rw [sameItems, Bool.and_eq_true, left.same_iff, sameItems_iff, List.cons.injEq]

theorem sameFields_iff (lefts rights : List (String × Value)) :
    sameFields lefts rights = true ↔ lefts = rights := by
  cases lefts with
  | nil => cases rights <;> simp [sameFields]
  | cons field lefts =>
    obtain ⟨leftKey, left⟩ := field
    cases rights with
    | nil => simp [sameFields]
    | cons field rights =>
      obtain ⟨rightKey, right⟩ := field
      rw [sameFields, Bool.and_eq_true, Bool.and_eq_true, beq_iff_eq, left.same_iff,
        sameFields_iff, List.cons.injEq, Prod.mk.injEq]

end

instance : DecidableEq Value :=
  fun left right => decidable_of_iff _ (left.same_iff right)

/-! ## The patch from one object to another -/

def addFields (original : List (String × Value)) :
    List (String × Value) → List (String × Value) → List (String × Value)
  | [], patch => patch
  | (key, updatedValue) :: updated, patch =>
    if (getField key original).isSome then addFields original updated patch
    else addFields original updated (insertField key updatedValue patch)

mutual

/-- `create_patch(original, updated)` -/
def createPatch : Value → Value → Value
  | .object original, .object updated =>
    .object (addFields original updated (changeFields updated original []))
  | _, updated => updated
termination_by structural original => original

def changeFields (updated : List (String × Value)) :
    List (String × Value) → List (String × Value) → List (String × Value)
  | [], patch => patch
  | (key, originalValue) :: original, patch =>
    match getField key updated with
    | some updatedValue =>
      if originalValue = updatedValue then changeFields updated original patch
      else if originalValue.isObject && updatedValue.isObject then
        let nestedPatch := createPatch originalValue updatedValue
        if nestedPatch.asObject.isEmpty then changeFields updated original patch
        else changeFields updated original (insertField key nestedPatch patch)
      else changeFields updated original (insertField key updatedValue patch)
    | none => changeFields updated original (insertField key .null patch)
termination_by structural original => original

end

def memberPatch : Option Value → Option Value → Option Value
  | some original, some updated =>
    if original = updated then none
    else if original.isObject && updated.isObject then
      if (createPatch original updated).asObject.isEmpty then none
      else some (createPatch original updated)
    else some updated
  | some _, none => some .null
  | none, updated => updated

variable {updated original patch : List (String × Value)}

theorem SortedFields.changeFields (sorted : SortedFields patch) :
    SortedFields (changeFields updated original patch) := by
  induction original generalizing patch with
  | nil => exact sorted
  | cons field original induction =>
    obtain ⟨key, originalValue⟩ := field
    rw [QAExchange.changeFields]
    cases getField key updated with
    | none => exact induction (sorted.insert key _)
    | some updatedValue =>
      dsimp only
      split_ifs
      · exact induction sorted
      · exact induction sorted
      · exact induction (sorted.insert key _)
      · exact induction (sorted.insert key _)

theorem SortedFields.addFields (sorted : SortedFields patch) :
    SortedFields (addFields original updated patch) := by
  induction updated generalizing patch with
  | nil => exact sorted
  | cons field updated induction =>
    obtain ⟨key, updatedValue⟩ := field
    rw [QAExchange.addFields]
    split_ifs
    · exact induction sorted
    · exact induction (sorted.insert key _)

theorem getField_changeFields (sorted : SortedFields patch) (distinct : SortedFields original)
    (wanted : String) :
    getField wanted (changeFields updated original patch) =
      match getField wanted original with
      | some originalValue =>
        (memberPatch (some originalValue) (getField wanted updated)).or (getField wanted patch)
      | none => getField wanted patch := by
  induction original generalizing patch with
  | nil => rfl
  | cons field original induction =>
    obtain ⟨key, originalValue⟩ := field
    have kept := induction sorted distinct.tail
    have inserted := fun value => induction (sorted.insert key value) distinct.tail
    simp only [sorted.getField_insertField] at inserted
    rw [getField_cons, changeFields]
    by_cases same : key = wanted
    · subst same
      rw [if_pos rfl]
      simp only [distinct.getField_tail, if_true] at kept inserted ⊢
      cases getField key updated with
      | none => exact inserted .null
      | some updatedValue =>
        dsimp only [memberPatch]
        split_ifs
        · exact kept
        · exact kept
        · exact inserted _
        · exact inserted _
    · simp only [if_neg same] at inserted ⊢
      cases getField key updated with
      | none => exact inserted .null
      | some updatedValue =>
        dsimp only
        split_ifs
        · exact kept
        · exact kept
        · exact inserted _
        · exact inserted _

theorem getField_addFields (sorted : SortedFields patch) (distinct : SortedFields updated)
    (wanted : String) :
    getField wanted (addFields original updated patch) =
      if (getField wanted original).isSome then getField wanted patch
      else (getField wanted updated).or (getField wanted patch) := by
  induction updated generalizing patch with
  | nil => simp [addFields]
  | cons field updated induction =>
    obtain ⟨key, updatedValue⟩ := field
    have inserted := induction (sorted.insert key updatedValue) distinct.tail
    rw [sorted.getField_insertField] at inserted
    rw [getField_cons, addFields]
    by_cases same : key = wanted
    · subst same
      rw [if_pos rfl] at inserted ⊢
      rw [distinct.getField_tail] at inserted
      split_ifs with known
      · rw [induction sorted distinct.tail, if_pos known]
      · rw [inserted, if_neg known]
        rfl
    · rw [if_neg same] at inserted ⊢
      split_ifs with known wantedKnown wantedKnown
      · rw [induction sorted distinct.tail, if_pos wantedKnown]
      · rw [induction sorted distinct.tail, if_neg wantedKnown]
      · rw [inserted, if_pos wantedKnown]
      · rw [inserted, if_neg wantedKnown]

theorem sortedFields_createPatch (original updated : List (String × Value)) :
    SortedFields (createPatch (.object original) (.object updated)).asObject :=
  SortedFields.addFields (SortedFields.changeFields List.Pairwise.nil)

theorem getField_createPatch (sorted : SortedFields original) (updatedSorted : SortedFields updated)
    (wanted : String) :
    getField wanted (createPatch (.object original) (.object updated)).asObject =
      memberPatch (getField wanted original) (getField wanted updated) := by
  have changed := @getField_changeFields updated original [] List.Pairwise.nil sorted wanted
  have changedSorted : SortedFields (changeFields updated original []) :=
    SortedFields.changeFields List.Pairwise.nil
  have added : getField wanted (addFields original updated (changeFields updated original [])) = _ :=
    getField_addFields changedSorted updatedSorted wanted
  rw [createPatch, asObject, added, changed]
  cases known : getField wanted original with
  | none => simp [memberPatch]
  | some originalValue => simp

def Value.atPath : List String → Value → Option Value
  | [], value => some value
  | key :: path, value => (getField key value.asObject).bind (atPath path)

/-- Each null of the second value has a null at its place in the first one. -/
def KeepsNulls (original updated : Value) : Prop :=
  ∀ path, updated.atPath path = some .null → original.atPath path = some .null

/-- The same where the first value may be missing. -/
def KeepsNullsUnder (original : Option Value) (updated : Value) : Prop :=
  ∀ path, updated.atPath path = some .null → original.bind (atPath path) = some .null

theorem keepsNulls_iff {original updated : Value} (isObject : updated.isObject = true) :
    KeepsNulls original updated ↔ ∀ key member, getField key updated.asObject = some member →
      KeepsNullsUnder (getField key original.asObject) member := by
  constructor
  · intro keeps key member found path isNull
    apply keeps (key :: path)
    rw [atPath, found]
    exact isNull
  · intro members path isNull
    cases path with
    | nil =>
      cases isNull
      cases isObject
    | cons key path =>
      rw [atPath, Option.bind_eq_some_iff] at isNull
      obtain ⟨member, found, isNull⟩ := isNull
      exact members key member found path isNull

theorem keepsNullsUnder_some (original updated : Value) :
    KeepsNullsUnder (some original) updated ↔ KeepsNulls original updated :=
  Iff.rfl

theorem keepsNulls_of_plain {updated : Value} (plain : updated.isObject = false)
    (notNull : updated ≠ .null) (original : Option Value) : KeepsNullsUnder original updated := by
  intro path isNull
  cases path with
  | nil => exact absurd (Option.some_inj.mp isNull) notNull
  | cons key path =>
    cases updated with
    | object => cases plain
    | null | bool | number | string | array => cases isNull

theorem keepsNullsUnder_none_iff {original : Option Value} {updated : Value}
    (plain : (original.getD .emptyObject).asObject = []) (isObject : updated.isObject = true) :
    KeepsNullsUnder none updated ↔ KeepsNullsUnder original updated := by
  cases original with
  | none => rfl
  | some original =>
    have noMembers : original.asObject = [] := plain
    rw [keepsNullsUnder_some, keepsNulls_iff isObject, noMembers]
    constructor
    · intro noNull key member found path isNull
      apply noNull (key :: path)
      rw [atPath, found]
      exact isNull
    · intro members path isNull
      cases path with
      | nil =>
        cases isNull
        cases isObject
      | cons key path =>
        rw [atPath, Option.bind_eq_some_iff] at isNull
        obtain ⟨member, found, isNull⟩ := isNull
        exact members key member found path isNull

/-! ## The round trip -/

theorem mergedMember_eq_iff {target : Option Value} {patch : Value} (ordered : patch.Ordered)
    (plain : (target.getD .emptyObject).asObject = []) :
    mergedMember target patch = some patch ↔ KeepsNullsUnder none patch := by
  cases isPatch : patch with
  | null =>
    constructor
    · intro same
      cases same
    · intro keeps
      cases keeps [] rfl
  | bool | number | string | array =>
    apply iff_of_true rfl
    exact keepsNulls_of_plain rfl (by simp) none
  | object fields =>
    subst isPatch
    have isObject : (object fields).isObject = true := rfl
    have noMembers : ∀ key, getField key (target.getD .emptyObject).asObject = none := by
      intro key
      rw [plain]
      rfl
    have sorted : SortedFields (target.getD .emptyObject).asObject := by
      rw [plain]
      exact List.Pairwise.nil
    rw [@keepsNullsUnder_none_iff (some .emptyObject) (.object fields) rfl isObject,
      keepsNullsUnder_some, keepsNulls_iff isObject, mergedMember, Option.some_inj, mergePatch,
      object.injEq]
    constructor
    · intro same key member found
      have shorter : sizeOf member < sizeOf (object fields) := sizeOf_member found
      have merged := getField_mergeFields sorted ordered.1 key
      have found : getField key fields = some member := found
      rw [same, noMembers, found] at merged
      exact (@mergedMember_eq_iff none member (ordered.member found) rfl).mp merged.symm
    · intro members
      apply sorted.mergeFields.eq_of_getField ordered.1
      intro key
      rw [getField_mergeFields sorted ordered.1, noMembers]
      cases found : getField key fields with
      | none => rfl
      | some member =>
        have shorter : sizeOf member < sizeOf (object fields) := sizeOf_member found
        exact (@mergedMember_eq_iff none member (ordered.member found) rfl).mpr
          (members key member found)
termination_by sizeOf patch

/-- A key is left out of the patch exactly if the objects agree on it, provided that nested
patches are empty only between equal objects. -/
theorem memberPatch_eq_none_iff {original updated : Option Value}
    (nested : ∀ inner updatedInner, original = some (.object inner) →
      updated = some (.object updatedInner) →
        (createPatch (.object inner) (.object updatedInner) = .emptyObject →
          inner = updatedInner)) : memberPatch original updated = none ↔ original = updated := by
  cases original with
  | none => exact eq_comm
  | some original =>
    cases updated with
    | none => exact iff_of_false nofun nofun
    | some updated =>
      rw [memberPatch, Option.some_inj]
      split_ifs with same bothObjects noFields
      · exact iff_of_true rfl same
      · have noFields := List.isEmpty_iff.mp noFields
        cases original with
        | object inner =>
          cases updated with
          | object updatedInner =>
            have emptyPatch : createPatch (.object inner) (.object updatedInner) =
                .emptyObject := congrArg object noFields
            have equal := nested inner updatedInner rfl rfl emptyPatch
            exact absurd (congrArg object equal) same
          | null | bool | number | string | array => cases bothObjects
        | null | bool | number | string | array => cases bothObjects
      · exact iff_of_false nofun same
      · exact iff_of_false nofun same

theorem sizeOf_inner {inner : List (String × Value)}
    (found : getField key fields = some (.object inner)) : sizeOf inner < sizeOf fields := by
  have shorter : sizeOf (object inner) < sizeOf (object fields) :=
    sizeOf_member found
  rw [object.sizeOf_spec, object.sizeOf_spec] at shorter
  omega

theorem createPatch_eq_empty_iff {original updated : List (String × Value)}
    (ordered : (object original).Ordered) (updatedOrdered : (object updated).Ordered) :
    createPatch (.object original) (.object updated) = .emptyObject ↔ original = updated := by
  have members := getField_createPatch ordered.1 updatedOrdered.1
  constructor
  · intro isEmpty
    apply ordered.1.eq_of_getField updatedOrdered.1
    intro key
    have member := members key
    rw [isEmpty] at member
    apply (memberPatch_eq_none_iff ?_).mp member.symm
    intro inner updatedInner found updatedFound
    have shorter := sizeOf_inner found
    exact (createPatch_eq_empty_iff (ordered.member found)
      (updatedOrdered.member updatedFound)).mp
  · intro same
    apply congrArg object
    apply (sortedFields_createPatch original updated).eq_of_getField List.Pairwise.nil
    intro key
    rw [members, same]
    cases getField key updated with
    | none => rfl
    | some value => exact if_pos rfl
termination_by sizeOf original

/-- A key comes back exactly if its nulls were there before, provided that nested objects
do so. -/
theorem mergedUnder_memberPatch_iff {original : Option Value} {updated : Value}
    (ordered : ∀ value ∈ original, value.Ordered) (updatedOrdered : updated.Ordered)
    (nested : ∀ inner updatedInner, original = some (.object inner) →
      updated = .object updatedInner →
        (mergePatch (.object inner) (createPatch (.object inner) (.object updatedInner)) =
          .object updatedInner ↔ KeepsNulls (.object inner) (.object updatedInner))) :
    mergedUnder original (memberPatch original (some updated)) = some updated ↔
      KeepsNullsUnder original updated := by
  cases original with
  | none => exact mergedMember_eq_iff updatedOrdered rfl
  | some original =>
    rw [memberPatch]
    split_ifs with same bothObjects noFields
    · apply iff_of_true (congrArg some same)
      intro path isNull
      rw [same]
      exact isNull
    · cases original with
      | object inner =>
        cases updated with
        | object updatedInner =>
          have emptyPatch : createPatch (.object inner) (.object updatedInner) =
              .emptyObject := congrArg object (List.isEmpty_iff.mp noFields)
          have equal := (createPatch_eq_empty_iff (ordered _ rfl) updatedOrdered).mp
            emptyPatch
          exact absurd (congrArg object equal) same
        | null | bool | number | string | array => cases bothObjects
      | null | bool | number | string | array => cases bothObjects
    · cases original with
      | object inner =>
        cases updated with
        | object updatedInner =>
          have merged : mergedUnder (some (.object inner))
              (some (createPatch (.object inner) (.object updatedInner))) =
                some (mergePatch (.object inner)
                  (createPatch (.object inner) (.object updatedInner))) := rfl
          rw [merged, Option.some_inj]
          exact nested inner updatedInner rfl rfl
        | null | bool | number | string | array => cases bothObjects
      | null | bool | number | string | array => cases bothObjects
    · cases isUpdated : updated with
      | null =>
        apply iff_of_false nofun
        intro keeps
        have isNull : original = .null := Option.some_inj.mp (keeps [] rfl)
        exact same (isNull.trans isUpdated.symm)
      | bool | number | string | array =>
        exact iff_of_true rfl (keepsNulls_of_plain rfl (by simp) (some original))
      | object fields =>
        subst isUpdated
        have plain : original.asObject = [] := by
          cases original with
          | object => exact absurd rfl bothObjects
          | null | bool | number | string | array => rfl
        exact (@mergedMember_eq_iff (some original) _ updatedOrdered plain).trans
          (keepsNullsUnder_none_iff plain rfl)

/-- An object comes back from its patch exactly if its nulls were there before. -/
theorem mergePatch_createPatch_iff {original updated : List (String × Value)}
    (ordered : (object original).Ordered) (updatedOrdered : (object updated).Ordered) :
    mergePatch (.object original) (createPatch (.object original) (.object updated)) =
        .object updated ↔ KeepsNulls (.object original) (.object updated) := by
  have members : ∀ key, getField key
      (mergeFields original (createPatch (.object original) (.object updated)).asObject) =
        mergedUnder (getField key original)
          (memberPatch (getField key original) (getField key updated)) := by
    intro key
    rw [getField_mergeFields ordered.1 (sortedFields_createPatch original updated),
      getField_createPatch ordered.1 updatedOrdered.1]
  have comesBack : ∀ key member, getField key updated = some member →
      (mergedUnder (getField key original) (memberPatch (getField key original) (some member)) =
        some member ↔ KeepsNullsUnder (getField key original) member) := by
    intro key member found
    apply mergedUnder_memberPatch_iff
    · intro value isValue
      exact ordered.member isValue
    · exact updatedOrdered.member found
    · intro inner updatedInner isOriginal isUpdated
      have shorter := sizeOf_inner (isUpdated ▸ found)
      have innerOrdered := updatedOrdered.member found
      rw [isUpdated] at innerOrdered
      exact mergePatch_createPatch_iff (ordered.member isOriginal) innerOrdered
  rw [keepsNulls_iff rfl, createPatch, mergePatch, object.injEq]
  constructor
  · intro same key member found
    apply (comesBack key member found).mp
    have found : getField key updated = some member := found
    rw [← found, ← members key]
    exact congrArg (getField key) same
  · intro keeps
    apply ordered.1.mergeFields.eq_of_getField updatedOrdered.1
    intro key
    apply (members key).trans
    cases found : getField key updated with
    | some member => exact (comesBack key member found).mpr (keeps key member found)
    | none =>
      cases getField key original with
      | none => rfl
      | some value => rfl
termination_by sizeOf updated

/-- An object as the parser or the `json!` macro builds it. -/
abbrev JsonObject := { fields : List (String × Value) // (object fields).Ordered }

theorem createPatch_roundTrip_iff (original updated : JsonObject) :
    (mergePatch (.object original.1) (createPatch (.object original.1) (.object updated.1)) =
        .object updated.1 ↔ KeepsNulls (.object original.1) (.object updated.1)) ∧
      (createPatch (.object original.1) (.object updated.1) = .emptyObject ↔
        original = updated) := by
  apply And.intro (mergePatch_createPatch_iff original.2 updated.2)
  apply (createPatch_eq_empty_iff original.2 updated.2).trans
  exact Subtype.ext_iff.symm

/-- A null that is new in the object is lost, and one that was there stays. -/
example :
    mergePatch (.object []) (createPatch (.object []) (.object [("a", .null)])) = .object [] ∧
      mergePatch (.object [("a", .null), ("b", .bool true)])
        (createPatch (.object [("a", .null), ("b", .bool true)]) (.object [("a", .null)])) =
          .object [("a", .null)] := by
  decide

end QAExchange
