import Mathlib.Analysis.SpecialFunctions.Log.Basic
import QAExchange.Foundation.ByteOrder
import QAExchange.Foundation.FieldNumerals

/-! # Bloom filters

A row of bits with as many hash functions as fit the expected number of items. The hash of
an item gives one position for each of them, by double hashing. Arithmetic on `f64` is that
of the reals, and a panic is `none`.
-/

namespace QAExchange

open Foundation

structure BloomFilter where
  bits : List (BitVec 64)
  k : ℕ
  m : ℕ
  n : ℕ

namespace BloomFilter

section Operations

variable {Item : Type} (hash : Item → BitVec 64)

/-- Without bits there is no position: `% self.m`. -/
def getBitIndex (hash : BitVec 64) (i : ℕ) (filter : BloomFilter) : Option ℕ :=
  let h1 := hash >>> 32
  let h2 := hash &&& 0xFFFFFFFF#64
  let combined := h1 + BitVec.ofNat 64 i * h2
  if filter.m = 0 then none else some (combined.toNat % filter.m)

def setBit (index : ℕ) (filter : BloomFilter) : BloomFilter :=
  { filter with bits := BitWords.setBit index filter.bits }

def getBit (index : ℕ) (filter : BloomFilter) : Bool :=
  BitWords.getBit index filter.bits

def setBits (hash : BitVec 64) : List ℕ → BloomFilter → Option BloomFilter
  | [], filter => some filter
  | i :: others, filter =>
    (getBitIndex hash i filter).bind fun index => setBits hash others (filter.setBit index)

def insert (item : Item) (filter : BloomFilter) : Option BloomFilter :=
  (setBits (hash item) (List.range filter.k) filter).map fun filled =>
    { filled with n := (filled.n + 1) % 2 ^ 64 }

def testBits (hash : BitVec 64) : List ℕ → BloomFilter → Option Bool
  | [], _ => some true
  | i :: others, filter =>
    (getBitIndex hash i filter).bind fun index =>
      if filter.getBit index then testBits hash others filter else some false

def contains (item : Item) (filter : BloomFilter) : Option Bool :=
  testBits (hash item) (List.range filter.k) filter

def insertAll : List Item → BloomFilter → Option BloomFilter
  | [], filter => some filter
  | item :: items, filter => (filter.insert hash item).bind (insertAll items)

end Operations

section Sizes

/-- Without items there are no bits. The cast to `u64` is bounded on both sides. -/
noncomputable def optimalM (n : ℕ) (p : ℝ) : ℕ :=
  let m := -(n : ℝ) * Real.log p / Real.log 2 ^ 2
  min ⌈m⌉₊ (2 ^ 64 - 1)

noncomputable def optimalK (n m : ℕ) : ℕ :=
  let k := (m : ℝ) / n * Real.log 2
  min (max ⌈k⌉₊ 1) (2 ^ 32 - 1)

def ofSize (k m : ℕ) : BloomFilter where
  bits := List.replicate ((m + 63) / 64) 0
  k := k
  m := m
  n := 0

noncomputable def new (expectedItems : ℕ) (falsePositiveRate : ℝ) : BloomFilter :=
  let m := optimalM expectedItems falsePositiveRate
  ofSize (optimalK expectedItems m) m

theorem optimalK_pos (n m : ℕ) : 0 < optimalK n m := by
  rw [optimalK]
  omega

theorem optimalM_zero (p : ℝ) : optimalM 0 p = 0 := by
  simp [optimalM]

theorem optimalM_pos {n : ℕ} {p : ℝ} (expects : n ≠ 0) (positive : 0 < p) (belowOne : p < 1) :
    0 < optimalM n p := by
  have items : (0 : ℝ) < n := Nat.cast_pos.mpr (Nat.pos_of_ne_zero expects)
  have negative : Real.log p < 0 := Real.log_neg positive belowOne
  have two : 0 < Real.log 2 := Real.log_pos (by norm_num)
  have size : 0 < -(n : ℝ) * Real.log p / Real.log 2 ^ 2 := by
    apply div_pos
    · exact mul_pos_of_neg_of_neg (neg_neg_of_pos items) negative
    · exact pow_pos two 2
  exact lt_min (Nat.ceil_pos.mpr size) (by decide)

end Sizes

/-! ## Bits that stay -/

structure Roomy (filter : BloomFilter) : Prop where
  positive : 0 < filter.m
  stored : filter.m ≤ 64 * filter.bits.length

theorem roomy_ofSize {k m : ℕ} (positive : 0 < m) : (ofSize k m).Roomy where
  positive := positive
  stored := by
    rw [ofSize, List.length_replicate]
    dsimp only
    omega

structure Grows (earlier later : BloomFilter) : Prop where
  k : later.k = earlier.k
  m : later.m = earlier.m
  length : later.bits.length = earlier.bits.length
  bits : ∀ index, earlier.getBit index = true → later.getBit index = true

theorem Grows.refl (filter : BloomFilter) : Grows filter filter :=
  ⟨rfl, rfl, rfl, fun _ isSet => isSet⟩

theorem Grows.trans (before : Grows first second) (after : Grows second third) :
    Grows first third where
  k := after.k.trans before.k
  m := after.m.trans before.m
  length := after.length.trans before.length
  bits index isSet := after.bits index (before.bits index isSet)

theorem Grows.roomy (grows : Grows earlier later) (roomy : earlier.Roomy) : later.Roomy where
  positive := grows.m ▸ roomy.positive
  stored := by
    rw [grows.m, grows.length]
    exact roomy.stored

theorem grows_setBit (index : ℕ) (filter : BloomFilter) : Grows filter (filter.setBit index) where
  k := rfl
  m := rfl
  length := BitWords.length_setBit index filter.bits
  bits _ isSet := BitWords.getBit_setBit_of_getBit isSet index

def bitIndex (hash : BitVec 64) (i m : ℕ) : ℕ :=
  (hash >>> 32 + BitVec.ofNat 64 i * (hash &&& 0xFFFFFFFF#64)).toNat % m

variable {filter : BloomFilter}

theorem getBitIndex_eq (hash : BitVec 64) (i : ℕ) (roomy : filter.Roomy) :
    getBitIndex hash i filter = some (bitIndex hash i filter.m) := by
  rw [getBitIndex, if_neg roomy.positive.ne']
  rfl

theorem getBitIndex_of_empty (hash : BitVec 64) (i : ℕ) (empty : filter.m = 0) :
    getBitIndex hash i filter = none := by
  rw [getBitIndex, if_pos empty]

theorem setBits_spec (hash : BitVec 64) (functions : List ℕ) (roomy : filter.Roomy) :
    ∃ filled, setBits hash functions filter = some filled ∧ Grows filter filled ∧
      ∀ i ∈ functions, filled.getBit (bitIndex hash i filter.m) = true := by
  induction functions generalizing filter with
  | nil => exact ⟨filter, rfl, Grows.refl filter, by simp⟩
  | cons i others induction =>
    have grows := grows_setBit (bitIndex hash i filter.m) filter
    obtain ⟨filled, isFilled, later, areSet⟩ := induction (grows.roomy roomy)
    rw [setBits, getBitIndex_eq hash i roomy, Option.bind_some]
    apply Exists.intro filled
    apply And.intro isFilled
    apply And.intro (grows.trans later)
    intro j member
    cases List.mem_cons.mp member with
    | inl same =>
      rw [same]
      apply later.bits
      apply BitWords.getBit_setBit_self
      exact (Nat.mod_lt _ roomy.positive).trans_le roomy.stored
    | inr among => exact areSet j among

theorem testBits_spec (hash : BitVec 64) (functions : List ℕ) (roomy : filter.Roomy) :
    testBits hash functions filter =
      some (functions.all fun i => filter.getBit (bitIndex hash i filter.m)) := by
  induction functions with
  | nil => rfl
  | cons i others induction =>
    rw [testBits, getBitIndex_eq hash i roomy, Option.bind_some, List.all_cons, induction]
    cases filter.getBit (bitIndex hash i filter.m) <;> rfl

section Items

variable {Item : Type} (hash : Item → BitVec 64)

variable {filter : BloomFilter}

theorem contains_eq (item : Item) (roomy : filter.Roomy) :
    filter.contains hash item =
      some ((List.range filter.k).all fun i => filter.getBit (bitIndex (hash item) i filter.m)) :=
  testBits_spec (hash item) (List.range filter.k) roomy

theorem insert_spec (item : Item) (roomy : filter.Roomy) :
    ∃ filled, filter.insert hash item = some filled ∧ Grows filter filled ∧
      filled.contains hash item = some true := by
  obtain ⟨filled, isFilled, grows, areSet⟩ :=
    setBits_spec (hash item) (List.range filter.k) roomy
  have later : Grows filter { filled with n := (filled.n + 1) % 2 ^ 64 } :=
    ⟨grows.k, grows.m, grows.length, grows.bits⟩
  rw [insert, isFilled]
  apply Exists.intro { filled with n := (filled.n + 1) % 2 ^ 64 }
  apply And.intro rfl
  apply And.intro later
  rw [contains_eq hash item (later.roomy roomy), later.k, later.m, Option.some_inj,
    List.all_eq_true]
  exact areSet

theorem Grows.contains (grows : Grows earlier later) (roomy : earlier.Roomy)
    (isIn : earlier.contains hash item = some true) : later.contains hash item = some true := by
  rw [contains_eq hash item roomy, Option.some_inj, List.all_eq_true] at isIn
  rw [contains_eq hash item (grows.roomy roomy), grows.k, grows.m, Option.some_inj,
    List.all_eq_true]
  intro i member
  exact grows.bits _ (isIn i member)

theorem insertAll_spec (items : List Item) (roomy : filter.Roomy) :
    ∃ filled, filter.insertAll hash items = some filled ∧ Grows filter filled ∧
      ∀ item ∈ items, filled.contains hash item = some true := by
  induction items generalizing filter with
  | nil => exact ⟨filter, rfl, Grows.refl filter, by simp⟩
  | cons item items induction =>
    obtain ⟨next, isNext, grows, isIn⟩ := insert_spec hash item roomy
    obtain ⟨filled, isFilled, later, areIn⟩ := induction (grows.roomy roomy)
    rw [insertAll, isNext, Option.bind_some]
    apply Exists.intro filled
    apply And.intro isFilled
    apply And.intro (grows.trans later)
    intro other member
    cases List.mem_cons.mp member with
    | inl same => exact later.contains hash (grows.roomy roomy) (same ▸ isIn)
    | inr among => exact areIn other among

theorem insert_of_empty (item : Item) (empty : filter.m = 0) (functions : 0 < filter.k) :
    filter.insert hash item = none := by
  rw [insert, ← Nat.succ_pred_eq_of_pos functions, List.range_succ_eq_map, setBits,
    getBitIndex_of_empty (hash item) 0 empty]
  rfl

/-- The positions are in the words, and what is inserted is contained. Without a panic there is
an answer for every item. -/
def SoundFor (filter : BloomFilter) : Prop :=
  ∀ items, ∃ filled, filter.insertAll hash items = some filled ∧
    (∀ item i, ∃ index, getBitIndex (hash item) i filled = some index ∧
      index / 64 < filled.bits.length) ∧
    (∀ item, ∃ answer, filled.contains hash item = some answer) ∧
    ∀ item ∈ items, filled.contains hash item = some true

theorem Roomy.soundFor (roomy : filter.Roomy) : filter.SoundFor hash := by
  intro items
  obtain ⟨filled, isFilled, grows, areIn⟩ := insertAll_spec hash items roomy
  have stays := grows.roomy roomy
  apply Exists.intro filled
  apply And.intro isFilled
  constructor
  · intro item i
    apply Exists.intro (bitIndex (hash item) i filled.m)
    apply And.intro (getBitIndex_eq (hash item) i stays)
    apply Nat.div_lt_of_lt_mul
    exact (Nat.mod_lt _ stays.positive).trans_le stays.stored
  · constructor
    · intro item
      exact ⟨_, contains_eq hash item stays⟩
    · exact areIn

theorem not_soundFor_of_empty (item : Item) (empty : filter.m = 0) (functions : 0 < filter.k) :
    ¬filter.SoundFor hash := by
  intro sound
  obtain ⟨filled, isFilled, -⟩ := sound [item]
  rw [insertAll, insert_of_empty hash item empty functions] at isFilled
  cases isFilled

end Items

theorem roomy_new {expectedItems : ℕ} {falsePositiveRate : ℝ} (expects : expectedItems ≠ 0)
    (positive : 0 < falsePositiveRate) (belowOne : falsePositiveRate < 1) :
    (new expectedItems falsePositiveRate).Roomy :=
  roomy_ofSize (optimalM_pos expects positive belowOne)

theorem new_zero_m (falsePositiveRate : ℝ) : (new 0 falsePositiveRate).m = 0 :=
  optimalM_zero falsePositiveRate

theorem new_k_pos (expectedItems : ℕ) (falsePositiveRate : ℝ) :
    0 < (new expectedItems falsePositiveRate).k :=
  optimalK_pos _ _

end BloomFilter

end QAExchange
