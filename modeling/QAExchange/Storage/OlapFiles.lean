import QAExchange.Storage.Conversion

/-! # Parquet files of a conversion

Files are written under a temporary name and renamed when they are whole. Every place in
`contents` belongs to the output for which it was created, so that tasks with different
outputs do not touch each other's files.
-/

namespace QAExchange.ConversionFiles

variable {Record : Type}

def Holds (files : ConversionFiles Record) (path : OlapPath)
    (rows : List (MemTableEntry Record)) : Prop :=
  ∃ place, files.parquet path = some place ∧ files.contents[place]? = some (.whole rows)

/-- `owners` says for which output a place was created, and `expected` what the Parquet file
of an output may hold. -/
structure Placed (owners : List OlapPath) (expected : OlapPath → List (MemTableEntry Record) → Prop)
    (files : ConversionFiles Record) : Prop where
  length : owners.length = files.contents.length
  temporary : ∀ path place, files.temporary path = some place →
    owners[place]? = some path ∧ files.parquet path ≠ some place
  parquet : ∀ path place, files.parquet path = some place →
    owners[place]? = some path ∧
      ∃ rows, expected path rows ∧ files.contents[place]? = some (.whole rows)

/-- Nothing changes for an output, except that its temporary file may be removed. -/
structure SameAt (owners : List OlapPath) (path : OlapPath)
    (files after : ConversionFiles Record) : Prop where
  parquet : after.parquet path = files.parquet path
  temporary : ∀ place, after.temporary path = some place → files.temporary path = some place
  contents : ∀ place : ℕ, owners[place]? = some path → after.contents[place]? = files.contents[place]?

/-- A place for the rows of an output, which is still empty. -/
structure Writable (owners : List OlapPath) (path : OlapPath) (place : ℕ)
    (files : ConversionFiles Record) : Prop where
  owner : owners[place]? = some path
  started : files.contents[place]? = some .started
  hidden : files.parquet path ≠ some place
  current : ∀ other, files.temporary path = some other → other = place

def Written (path : OlapPath) (rows : List (MemTableEntry Record))
    (files : ConversionFiles Record) : Prop :=
  ∀ place, files.temporary path = some place → files.contents[place]? = some (.whole rows)

section Frames

variable {owners longer : List OlapPath} {path : OlapPath} {place : ℕ}
  {files after : ConversionFiles Record} {expected : OlapPath → List (MemTableEntry Record) → Prop}

theorem SameAt.refl (owners : List OlapPath) (path : OlapPath) (files : ConversionFiles Record) :
    SameAt owners path files files :=
  ⟨rfl, fun _ found => found, fun _ _ => rfl⟩

theorem Holds.same (placed : Placed owners expected files) (same : SameAt owners path files after)
    (holds : Holds files path rows) : Holds after path rows := by
  rcases holds with ⟨place, isPlace, whole⟩
  refine ⟨place, same.parquet.trans isPlace, ?_⟩
  rw [same.contents place (placed.parquet path place isPlace).1]
  exact whole

theorem Writable.same (same : SameAt owners path files after) (isLonger : owners <+: longer)
    (writable : Writable owners path place files) : Writable longer path place after where
  owner := by
    rcases isLonger with ⟨more, rfl⟩
    have inside := (List.getElem?_eq_some_iff.mp writable.owner).1
    rw [List.getElem?_append_left inside]
    exact writable.owner
  started := (same.contents place writable.owner).trans writable.started
  hidden := by
    rw [same.parquet]
    exact writable.hidden
  current := fun other found => writable.current other (same.temporary other found)

theorem Written.same (placed : Placed owners expected files) (same : SameAt owners path files after)
    (written : Written path rows files) : Written path rows after := by
  intro place found
  have before := same.temporary place found
  rw [same.contents place (placed.temporary path place before).1]
  exact written place before

theorem Placed.mono {more : OlapPath → List (MemTableEntry Record) → Prop}
    (placed : Placed owners expected files)
    (weaker : ∀ path rows, expected path rows → more path rows) : Placed owners more files where
  length := placed.length
  temporary := placed.temporary
  parquet := by
    intro path place found
    rcases placed.parquet path place found with ⟨owner, rows, isExpected, whole⟩
    exact ⟨owner, rows, weaker path rows isExpected, whole⟩

end Frames

section Operations

variable {owners : List OlapPath} {files : ConversionFiles Record}
  {expected : OlapPath → List (MemTableEntry Record) → Prop}

theorem Placed.removeTemporary (placed : Placed owners expected files) (path : OlapPath) :
    Placed owners expected (files.removeTemporary path) ∧
      ∀ other, SameAt owners other files (files.removeTemporary path) := by
  have fewer : ∀ other place, (files.removeTemporary path).temporary other = some place →
      files.temporary other = some place := by
    intro other place found
    simp only [ConversionFiles.removeTemporary] at found
    split_ifs at found with same
    exact found
  refine ⟨⟨placed.length, ?_, placed.parquet⟩, fun other => ⟨rfl, fewer other, fun _ _ => rfl⟩⟩
  intro other place found
  exact placed.temporary other place (fewer other place found)

theorem Placed.create (placed : Placed owners expected files) (path : OlapPath) :
    ∃ longer, owners <+: longer ∧ Placed longer expected (files.create path).2 ∧
      Writable longer path (files.create path).1 (files.create path).2 ∧
      (∀ other, other ≠ path → SameAt owners other files (files.create path).2) ∧
      ∀ rows, Holds files path rows → Holds (files.create path).2 path rows := by
  rw [ConversionFiles.create]
  cases found : files.temporary path with
  | some place =>
    rcases placed.temporary path place found with ⟨owner, hidden⟩
    have inside := (List.getElem?_eq_some_iff.mp owner).1
    have apart : ∀ other place', files.parquet other = some place' → place' ≠ place := by
      intro other place' isPlace same
      subst same
      have owns := (placed.parquet other place' isPlace).1
      rw [owner] at owns
      cases owns
      exact hidden isPlace
    refine ⟨owners, List.prefix_refl _, ⟨?_, placed.temporary, ?_⟩, ⟨owner, ?_, hidden, ?_⟩, ?_, ?_⟩
    · rw [List.length_set]
      exact placed.length
    · intro other place' isPlace
      rcases placed.parquet other place' isPlace with ⟨owns, rows, isExpected, whole⟩
      refine ⟨owns, rows, isExpected, ?_⟩
      rw [List.getElem?_set_ne (apart other place' isPlace).symm]
      exact whole
    · rw [List.getElem?_set_self (placed.length ▸ inside)]
    · intro other isOther
      exact Option.some.inj (isOther.symm.trans found)
    · intro other different
      refine ⟨rfl, fun _ isPlace => isPlace, ?_⟩
      intro place' owns
      rw [List.getElem?_set_ne]
      intro same
      rw [← same, owner] at owns
      exact different (Option.some.inj owns).symm
    · rintro rows ⟨place', isPlace, whole⟩
      refine ⟨place', isPlace, ?_⟩
      rw [List.getElem?_set_ne (apart path place' isPlace).symm]
      exact whole
  | none =>
    have apart : ∀ other place', files.parquet other = some place' →
        place' < files.contents.length := by
      intro other place' isPlace
      have owns := (placed.parquet other place' isPlace).1
      rw [← placed.length]
      exact (List.getElem?_eq_some_iff.mp owns).1
    have kept : ∀ (place' : ℕ) other, owners[place']? = some other →
        (owners ++ [path])[place']? = some other := by
      intro place' other owns
      rw [List.getElem?_append_left (List.getElem?_eq_some_iff.mp owns).1]
      exact owns
    have isNew : (owners ++ [path])[files.contents.length]? = some path := by
      rw [← placed.length, List.getElem?_concat_length]
    refine ⟨owners ++ [path], List.prefix_append _ _, ⟨?_, ?_, ?_⟩, ⟨isNew, ?_, ?_, ?_⟩, ?_, ?_⟩
    · rw [List.length_append, List.length_append, placed.length]
      rfl
    · intro other place isPlace
      dsimp only at isPlace
      split_ifs at isPlace with same
      · cases isPlace
        rw [same]
        refine ⟨isNew, ?_⟩
        intro isParquet
        exact lt_irrefl _ (apart path _ isParquet)
      · rcases placed.temporary other place isPlace with ⟨owns, hidden⟩
        exact ⟨kept place other owns, hidden⟩
    · intro other place isPlace
      rcases placed.parquet other place isPlace with ⟨owns, rows, isExpected, whole⟩
      refine ⟨kept place other owns, rows, isExpected, ?_⟩
      rw [List.getElem?_append_left (apart other place isPlace)]
      exact whole
    · rw [List.getElem?_concat_length]
    · intro isParquet
      exact lt_irrefl _ (apart path _ isParquet)
    · intro other isOther
      dsimp only at isOther
      rw [if_pos rfl] at isOther
      exact (Option.some.inj isOther).symm
    · intro other different
      refine ⟨rfl, ?_, ?_⟩
      · intro place isPlace
        dsimp only at isPlace
        rwa [if_neg different] at isPlace
      · intro place owns
        have inside := (List.getElem?_eq_some_iff.mp owns).1
        rw [List.getElem?_append_left (placed.length ▸ inside)]
    · rintro rows ⟨place, isPlace, whole⟩
      refine ⟨place, isPlace, ?_⟩
      rw [List.getElem?_append_left (apart path place isPlace)]
      exact whole

theorem Placed.write [DecidableEq Record] (placed : Placed owners expected files)
    (writable : Writable owners path place files) (rows : List (MemTableEntry Record)) :
    Placed owners expected (files.write place rows) ∧ Written path rows (files.write place rows) ∧
      (∀ other, other ≠ path → SameAt owners other files (files.write place rows)) ∧
      ∀ old, Holds files path old → Holds (files.write place rows) path old := by
  have elsewhere : ∀ other : ℕ, other ≠ place →
      (files.write place rows).contents[other]? = files.contents[other]? := by
    intro other different
    simp [ConversionFiles.write, different.symm]
  have apart : ∀ other place', files.parquet other = some place' → place' ≠ place := by
    intro other place' isPlace same
    subst same
    have owns := (placed.parquet other place' isPlace).1
    rw [writable.owner] at owns
    cases owns
    exact writable.hidden isPlace
  refine ⟨⟨?_, placed.temporary, ?_⟩, ?_, ?_, ?_⟩
  · rw [ConversionFiles.write, List.length_modify]
    exact placed.length
  · intro other place' isPlace
    rcases placed.parquet other place' isPlace with ⟨owns, old, isExpected, whole⟩
    refine ⟨owns, old, isExpected, ?_⟩
    rw [elsewhere place' (apart other place' isPlace)]
    exact whole
  · intro other isOther
    rw [writable.current other isOther, ConversionFiles.write, List.getElem?_modify,
      writable.started]
    simp [OlapContents.write]
  · intro other different
    refine ⟨rfl, fun _ isPlace => isPlace, ?_⟩
    intro place' owns
    apply elsewhere
    intro same
    rw [same, writable.owner] at owns
    exact different (Option.some.inj owns).symm
  · rintro old ⟨place', isPlace, whole⟩
    refine ⟨place', isPlace, ?_⟩
    rw [elsewhere place' (apart path place' isPlace)]
    exact whole

theorem Placed.rename (placed : Placed owners expected files) (written : Written path rows files)
    (isExpected : expected path rows) (renamed : files.rename path = some after) :
    Placed owners expected after ∧ Holds after path rows ∧
      ∀ other, other ≠ path → SameAt owners other files after := by
  rw [ConversionFiles.rename] at renamed
  cases found : files.temporary path with
  | none =>
    rw [found] at renamed
    cases renamed
  | some place =>
    rw [found] at renamed
    cases renamed
    rcases placed.temporary path place found with ⟨owner, _⟩
    have whole := written place found
    refine ⟨⟨placed.length, ?_, ?_⟩, ⟨place, if_pos rfl, whole⟩, ?_⟩
    · intro other place' isPlace
      simp only [ConversionFiles.removeTemporary] at isPlace ⊢
      split_ifs at isPlace with same
      rw [if_neg same]
      exact placed.temporary other place' isPlace
    · intro other place' isPlace
      dsimp only at isPlace
      split_ifs at isPlace with same
      · cases isPlace
        rw [same]
        exact ⟨owner, rows, isExpected, whole⟩
      · exact placed.parquet other place' isPlace
    · intro other different
      refine ⟨if_neg different, ?_, fun _ _ => rfl⟩
      intro place' isPlace
      simp only [ConversionFiles.removeTemporary] at isPlace
      rwa [if_neg different] at isPlace

end Operations

end QAExchange.ConversionFiles
