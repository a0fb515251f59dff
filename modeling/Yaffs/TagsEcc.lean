import Mathlib.Algebra.BigOperators.Fin
import Yaffs.ByteOrderExchange
import Yaffs.DataEcc

/-!
# Error correction for tags

The packed tags of a page have a code with the parities over the bytes in two words and those over
the columns in a byte of its own.  The code corrects one wrong bit and notices two, but it is not
looked at when the sequence number has all bits set, as on an erased page.
-/

namespace Yaffs

open Stored

/-! ## Wrong bits -/

/-- A bit of the packed tags or of the fields of their code. -/
inductive TagsBit
  | tags (byte : Fin 16) (bit : Fin 8)
  | col (bit : Fin 8)
  | line (bit : Fin 32)
  | prime (bit : Fin 32)
deriving DecidableEq

/-- The packed tags and their code with one more wrong bit. -/
def TagsBit.flip : TagsBit → List UInt8 × EccOther → List UInt8 × EccOther
  | tags byte bit, read => (flipBit read.1 byte bit, read.2)
  | col bit, read =>
    (read.1, { read.2 with colParity := read.2.colParity ^^^ BitVec.twoPow 8 bit })
  | line bit, read =>
    (read.1, { read.2 with lineParity := read.2.lineParity ^^^ BitVec.twoPow 32 bit })
  | prime bit, read =>
    (read.1, { read.2 with lineParityPrime := read.2.lineParityPrime ^^^ BitVec.twoPow 32 bit })

section Host

variable (bigEndian : Bool) (storedEndian : Nat)

/-- The bytes of packed tags with their code. -/
def writtenTags (ptt : PackedTags2TagsOnly) : List UInt8 × EccOther :=
  let data := PackedTags2TagsOnly.layout.store bigEndian ptt
  (data, eccCalcOther data)

/-- The tags found in bytes and a code that were read. -/
def readTags (read : List UInt8 × EccOther) : ExtTags :=
  unpackTags2 bigEndian storedEndian (read.1 ++ EccOther.layout.store bigEndian read.2) true

/-- The sequence number as the host uses it. -/
def packedSeqNumber (ptt : PackedTags2TagsOnly) : Nat :=
  (doEndianPackedTags2 (endianConfig bigEndian storedEndian) ptt).seqNumber.toNat

/-- The bytes look like those of an erased page. -/
def LooksErased (data : List UInt8) : Prop :=
  (PackedTags2TagsOnly.layout.load bigEndian data).seqNumber = 0xffffffff

instance (data : List UInt8) : Decidable (LooksErased bigEndian data) :=
  inferInstanceAs (Decidable (_ = _))

/-- A wrong bit is corrected, or does not matter for the tags. -/
def Corrected (ptt : PackedTags2TagsOnly) (read : List UInt8 × EccOther) : Prop :=
  let original := readTags bigEndian storedEndian (writtenTags bigEndian ptt)
  readTags bigEndian storedEndian read = { original with eccResult := .fixed } ∨
    read.1 = (writtenTags bigEndian ptt).1 ∧
      readTags bigEndian storedEndian read = { original with eccResult := .noError }

/-- The original tags are found, or an error is reported. -/
def Noticed (ptt : PackedTags2TagsOnly) (read : List UInt8 × EccOther) : Prop :=
  let original := readTags bigEndian storedEndian (writtenTags bigEndian ptt)
  let found := readTags bigEndian storedEndian read
  found = { original with eccResult := found.eccResult } ∨ found.eccResult = .unfixed

end Host

/-! ## The code as paired parities -/

section Pairs

open PairCode

/-- The bits of a position: the line and the column. -/
abbrev TagsPositionBit := Fin 32 ⊕ Fin 3

/-- The position of a bit of a byte. -/
def tagsPosition (byte bit : Nat) : TagsPositionBit → Bool
  | .inl k => byte.testBit k
  | .inr k => bit.testBit k

/-- The bits in which two codes differ. -/
def otherDelta (a b : EccOther) : EccOther :=
  ⟨a.colParity ^^^ b.colParity, a.lineParity ^^^ b.lineParity,
    a.lineParityPrime ^^^ b.lineParityPrime⟩

/-- The pairs of parities of a code.  The two highest bits for the columns are not used. -/
def otherSyndrome (delta : EccOther) : Syndrome TagsPositionBit (Fin 2) where
  line
    | .inl k => delta.lineParity.getLsbD k
    | .inr k => delta.colParity.getLsbD (2 * k + 1)
  prime
    | .inl k => delta.lineParityPrime.getLsbD k
    | .inr k => delta.colParity.getLsbD (2 * k)
  spare k := delta.colParity.getLsbD (k + 6)

theorem otherSyndrome_delta (a b : EccOther) :
    otherSyndrome (otherDelta a b) = (otherSyndrome a).add (otherSyndrome b) := by
  ext k
  · rcases k with k | k <;> simp [otherSyndrome, otherDelta, Syndrome.add]
  · rcases k with k | k <;> simp [otherSyndrome, otherDelta, Syndrome.add]
  · simp [otherSyndrome, otherDelta, Syndrome.add]

/-- The loop over the packed tags is the one over a block, with longer words. -/
theorem eccCalcOtherLoop_eq (data : List UInt8) (i : Nat) (ecc : EccOther) :
    eccCalcOtherLoop i data ecc =
      let sums := parityLoop i data ⟨ecc.colParity, ecc.lineParity, ecc.lineParityPrime⟩
      ⟨sums.colParity, sums.lineParity, sums.lineParityPrime⟩ := by
  induction data generalizing i ecc with
  | nil => rfl
  | cons byte data ih =>
    simp only [eccCalcOtherLoop, parityLoop]
    rw [ih]

/-- A wrong bit of the tags changes the code as its position says. -/
theorem eccCalcOther_flip {data : List UInt8} {byte : Nat} (inside : byte < data.length)
    (bit : Fin 8) :
    otherSyndrome (otherDelta (eccCalcOther data) (eccCalcOther (flipBit data byte bit))) =
      (Flip.data (tagsPosition byte bit)).syndrome := by
  simp only [eccCalcOther, eccCalcOtherLoop_eq]
  rw [parityLoop_flip inside, Nat.zero_add]
  generalize parityLoop 0 data (⟨0, 0, 0⟩ : Parities 32) = sums
  have toggle (a b : Bool) : (a ^^ (a ^^ b)) = b := by cases a <;> cases b <;> rfl
  have used : ∀ j < 6, (0x3f : BitVec 8).getLsbD j = true := by decide
  ext k
  · rcases k with k | k
    · simp only [otherSyndrome, otherDelta, Parities.add, bitParities, Flip.syndrome, tagsPosition,
        BitVec.getLsbD_xor, BitVec.getLsbD_ofNat, toggle, k.isLt, decide_true, Bool.true_and]
    · have column : (columnParityTable.getD (2 ^ bit.val) 0).getLsbD (2 + (2 * k.val + 1)) =
          bit.val.testBit k := by
        rw [Nat.add_comm]
        exact (columnParity_position bit k).1
      simp only [otherSyndrome, otherDelta, Parities.add, bitParities, Flip.syndrome, tagsPosition,
        BitVec.getLsbD_xor, BitVec.getLsbD_and, BitVec.getLsbD_ushiftRight, column,
        used (2 * k.val + 1) (by omega), Bool.and_true, toggle]
  · rcases k with k | k
    · simp only [otherSyndrome, otherDelta, Parities.add, bitParities, Flip.syndrome, tagsPosition,
        BitVec.getLsbD_xor, BitVec.getLsbD_not, BitVec.getLsbD_ofNat, toggle, k.isLt, decide_true,
        Bool.true_and]
    · have column : (columnParityTable.getD (2 ^ bit.val) 0).getLsbD (2 + 2 * k.val) =
          !bit.val.testBit k := by
        rw [Nat.add_comm]
        exact (columnParity_position bit k).2
      simp only [otherSyndrome, otherDelta, Parities.add, bitParities, Flip.syndrome, tagsPosition,
        BitVec.getLsbD_xor, BitVec.getLsbD_and, BitVec.getLsbD_ushiftRight, column,
        used (2 * k.val) (by omega), Bool.and_true, toggle]
  · have unused : (0x3f : BitVec 8).getLsbD (k.val + 6) = false := by
      revert k
      decide
    simp only [otherSyndrome, otherDelta, Flip.syndrome, BitVec.getLsbD_xor, BitVec.getLsbD_and,
      unused, Bool.and_false, Bool.xor_self]

/-- The place of a wrong bit in the code. -/
def TagsBit.toFlip : TagsBit → Flip TagsPositionBit (Fin 2)
  | tags byte bit => .data (tagsPosition byte bit)
  | col bit =>
    if used : bit.val < 6 then
      if bit.val % 2 = 1 then .line (.inr ⟨bit / 2, by omega⟩)
      else .prime (.inr ⟨bit / 2, by omega⟩)
    else .spare ⟨bit - 6, by omega⟩
  | line bit => .line (.inl bit)
  | prime bit => .prime (.inl bit)

/-- The differences between the code that was read and the one of the tags that were read. -/
def tagsSyndrome (read : List UInt8 × EccOther) : Syndrome TagsPositionBit (Fin 2) :=
  otherSyndrome (otherDelta read.2 (eccCalcOther read.1))

theorem tagsSyndrome_intact (data : List UInt8) :
    tagsSyndrome (data, eccCalcOther data) = Syndrome.none := by
  simp only [tagsSyndrome, otherDelta, BitVec.xor_self]
  ext k
  · rcases k with k | k <;> exact BitVec.getLsbD_zero
  · rcases k with k | k <;> exact BitVec.getLsbD_zero
  · exact BitVec.getLsbD_zero

/-- A wrong bit of the code changes one bit of the syndrome. -/
theorem codeBit_syndrome (ecc : EccOther) :
    (∀ bit : Fin 8, otherSyndrome (otherDelta ecc
      { ecc with colParity := ecc.colParity ^^^ BitVec.twoPow 8 bit }) =
        (TagsBit.col bit).toFlip.syndrome) ∧
    (∀ bit : Fin 32, otherSyndrome (otherDelta ecc
      { ecc with lineParity := ecc.lineParity ^^^ BitVec.twoPow 32 bit }) =
        (TagsBit.line bit).toFlip.syndrome) ∧
    ∀ bit : Fin 32, otherSyndrome (otherDelta ecc
      { ecc with lineParityPrime := ecc.lineParityPrime ^^^ BitVec.twoPow 32 bit }) =
        (TagsBit.prime bit).toFlip.syndrome := by
  have cancel {w : Nat} (x y : BitVec w) : x ^^^ (x ^^^ y) = y := by
    rw [← BitVec.xor_assoc, BitVec.xor_self, BitVec.zero_xor]
  have single (bit k : Fin 32) :
      (BitVec.twoPow 32 bit).getLsbD k = decide ((.inl k : TagsPositionBit) = .inl bit) := by
    rw [BitVec.getLsbD_twoPow]
    simp [Fin.ext_iff, eq_comm]
  refine ⟨?_, ?_, ?_⟩ <;> intro bit <;> simp only [otherDelta, BitVec.xor_self, cancel]
  · ext k <;> revert bit k <;> decide +kernel
  · ext k
    · rcases k with k | k
      · exact single bit k
      · exact BitVec.getLsbD_zero
    · rcases k with k | k <;> exact BitVec.getLsbD_zero
    · exact BitVec.getLsbD_zero
  · ext k
    · rcases k with k | k <;> exact BitVec.getLsbD_zero
    · rcases k with k | k
      · exact single bit k
      · exact BitVec.getLsbD_zero
    · exact BitVec.getLsbD_zero

/-- Each wrong bit adds its syndrome. -/
theorem tagsSyndrome_flip {read : List UInt8 × EccOther} (length_eq : read.1.length = 16)
    (f : TagsBit) :
    tagsSyndrome (f.flip read) = (tagsSyndrome read).add f.toFlip.syndrome := by
  have cancel (a b c : Bool) : (a ^^ c) = ((a ^^ b) ^^ (b ^^ c)) := by
    cases a <;> cases b <;> cases c <;> rfl
  have exchange (a b c : Bool) : (a ^^ b) = ((c ^^ b) ^^ (c ^^ a)) := by
    cases a <;> cases b <;> cases c <;> rfl
  obtain ⟨col, line, prime⟩ := codeBit_syndrome read.2
  cases f with
  | tags byte bit =>
    have inside : byte.val < read.1.length := byte.isLt.trans_eq length_eq.symm
    simp only [tagsSyndrome, TagsBit.flip, TagsBit.toFlip]
    rw [← eccCalcOther_flip inside, otherSyndrome_delta, otherSyndrome_delta, otherSyndrome_delta]
    simp only [Syndrome.add, ← cancel]
  | col bit =>
    rw [← col bit]
    simp only [tagsSyndrome, TagsBit.flip, otherSyndrome_delta, Syndrome.add, ← exchange]
  | line bit =>
    rw [← line bit]
    simp only [tagsSyndrome, TagsBit.flip, otherSyndrome_delta, Syndrome.add, ← exchange]
  | prime bit =>
    rw [← prime bit]
    simp only [tagsSyndrome, TagsBit.flip, otherSyndrome_delta, Syndrome.add, ← exchange]

/-! ## Corrections -/

/-- The line of a position. -/
def tagsLine (position : TagsPositionBit → Bool) : Nat :=
  Nat.ofBits fun k : Fin 32 => position (.inl k)

/-- The column of a position, as the correction puts it together. -/
def tagsColumn (position : TagsPositionBit → Bool) : Nat :=
  (if position (.inr 2) then 4 else 0) + (if position (.inr 1) then 2 else 0) +
    if position (.inr 0) then 1 else 0

theorem tagsLine_position (byte : Fin 16) (bit : Fin 8) :
    tagsLine (tagsPosition byte bit) = byte := by
  have bits : tagsLine (tagsPosition byte bit) = byte.val % 2 ^ 32 := Nat.ofBits_testBit byte.val 32
  rw [bits, Nat.mod_eq_of_lt (by omega)]

theorem tagsColumn_position (byte : Fin 16) (bit : Fin 8) :
    tagsColumn (tagsPosition byte bit) = bit := by
  have at_column : ∀ bit : Fin 8, tagsColumn (tagsPosition 0 bit) = bit := by decide
  exact at_column bit

/-- The number of bits set is the sum of the bits. -/
theorem hweight_eq_sum {width : Nat} (x : BitVec width) :
    hweight x = ∑ k : Fin width, (x.getLsbD k).toNat := by
  have count (n : Nat) : (List.range n).countP (fun i => x.getLsbD i) =
      ∑ i ∈ Finset.range n, (x.getLsbD i).toNat := by
    induction n with
    | zero => rfl
    | succ n ih =>
      rw [List.range_succ, List.countP_append, ih, Finset.sum_range_succ]
      cases set : x.getLsbD n <;> simp [set]
  rw [hweight, count, Finset.sum_range]

theorem clean_other_iff (delta : EccOther) :
    delta.colParity.setWidth 32 ||| delta.lineParity ||| delta.lineParityPrime = 0 ↔
      (∀ k, (otherSyndrome delta).line k = false) ∧ (∀ k, (otherSyndrome delta).prime k = false) ∧
        ∀ k, (otherSyndrome delta).spare k = false := by
  have column_zero : ∀ d : BitVec 8, d.setWidth 32 = 0 ↔
      (∀ k : Fin 3, d.getLsbD (2 * k + 1) = false) ∧ (∀ k : Fin 3, d.getLsbD (2 * k) = false) ∧
        ∀ k : Fin 2, d.getLsbD (k + 6) = false := by
    decide +kernel
  have line_zero (x : BitVec 32) : x = 0 ↔ ∀ k : Fin 32, x.getLsbD k = false := by
    constructor
    · rintro rfl k
      exact BitVec.getLsbD_zero
    · intro none
      ext i i_lt
      rw [BitVec.getElem_eq_testBit_toNat]
      exact (none ⟨i, i_lt⟩).trans BitVec.getLsbD_zero.symm
  have or_zero (x y : BitVec 32) : x ||| y = 0 ↔ x = 0 ∧ y = 0 := BitVec.or_eq_zero_iff
  rw [or_zero, or_zero, column_zero, line_zero, line_zero]
  simp only [otherSyndrome, Sum.forall]
  constructor
  · rintro ⟨⟨⟨column, column_prime, spare⟩, line⟩, prime⟩
    exact ⟨⟨line, column⟩, ⟨prime, column_prime⟩, spare⟩
  · rintro ⟨⟨line, column⟩, ⟨prime, column_prime⟩, spare⟩
    exact ⟨⟨⟨column, column_prime, spare⟩, line⟩, prime⟩

theorem pairs_other_iff (delta : EccOther) :
    (delta.lineParity = ~~~delta.lineParityPrime ∧
        (delta.colParity ^^^ (delta.colParity >>> 1)) &&& 0x15 = 0x15) ↔
      ∀ k, (otherSyndrome delta).line k = !(otherSyndrome delta).prime k := by
  have column_pairs : ∀ d : BitVec 8, (d ^^^ (d >>> 1)) &&& 0x15 = 0x15 ↔
      ∀ k : Fin 3, d.getLsbD (2 * k + 1) = !d.getLsbD (2 * k) := by decide +kernel
  have line_pairs (x y : BitVec 32) : x = ~~~y ↔ ∀ k : Fin 32, x.getLsbD k = !y.getLsbD k := by
    constructor
    · rintro rfl k
      rw [BitVec.getLsbD_not, decide_eq_true k.isLt, Bool.true_and]
    · intro unequal
      ext i i_lt
      rw [BitVec.getElem_not]
      exact unequal ⟨i, i_lt⟩
  rw [column_pairs, line_pairs]
  simp only [otherSyndrome, Sum.forall]

theorem hweight_other_eq (delta : EccOther) :
    hweight delta.lineParity + hweight delta.lineParityPrime + hweight delta.colParity =
      (otherSyndrome delta).weight := by
  have column_weight : ∀ d : BitVec 8, hweight d =
      ∑ k : Fin 3, (d.getLsbD (2 * k + 1)).toNat + ∑ k : Fin 3, (d.getLsbD (2 * k)).toNat +
        ∑ k : Fin 2, (d.getLsbD (k + 6)).toNat := by
    decide +kernel
  rw [column_weight, hweight_eq_sum, hweight_eq_sum]
  simp only [otherSyndrome, Syndrome.weight, Fintype.sum_sum_type]
  omega

theorem tagsLine_syndrome (delta : EccOther) :
    tagsLine (otherSyndrome delta).line = delta.lineParity.toNat := by
  have bits : tagsLine (otherSyndrome delta).line = delta.lineParity.toNat % 2 ^ 32 :=
    Nat.ofBits_testBit delta.lineParity.toNat 32
  rw [bits, Nat.mod_eq_of_lt delta.lineParity.isLt]

theorem tagsColumn_syndrome (delta : EccOther) :
    (if delta.colParity &&& 0x20 ≠ 0 then 4 else 0) +
      (if delta.colParity &&& 0x08 ≠ 0 then 2 else 0) +
        (if delta.colParity &&& 0x02 ≠ 0 then 1 else 0) =
      tagsColumn (otherSyndrome delta).line := by
  have masked : ∀ d : BitVec 8,
      (if d &&& 0x20 ≠ 0 then 4 else 0) + (if d &&& 0x08 ≠ 0 then 2 else 0) +
        (if d &&& 0x02 ≠ 0 then 1 else 0) =
      (if d.getLsbD 5 then 4 else 0) + (if d.getLsbD 3 then 2 else 0) +
        (if d.getLsbD 1 then 1 else 0) := by decide +kernel
  exact masked delta.colParity

/-- The outcome of a correction, by the verdict on its syndrome. -/
def tagsOutcome (data : List UInt8) : Verdict TagsPositionBit → EccResult × List UInt8
  | .clean => (.noError, data)
  | .data position =>
    if data.length ≤ tagsLine position then (.unfixed, data)
    else (.fixed, flipBit data (tagsLine position) (tagsColumn position))
  | .code => (.fixed, data)
  | .lost => (.unfixed, data)

theorem eccCorrectOther_eq (data : List UInt8) (readEcc testEcc : EccOther) :
    eccCorrectOther data readEcc testEcc =
      tagsOutcome data (otherSyndrome (otherDelta readEcc testEcc)).verdict := by
  have unfolded : eccCorrectOther data readEcc testEcc =
      let delta := otherDelta readEcc testEcc
      if delta.colParity.setWidth 32 ||| delta.lineParity ||| delta.lineParityPrime = 0 then
        (.noError, data)
      else if delta.lineParity = ~~~delta.lineParityPrime ∧
          (delta.colParity ^^^ (delta.colParity >>> 1)) &&& 0x15 = 0x15 then
        if data.length ≤ tagsLine (otherSyndrome delta).line then (.unfixed, data)
        else
          (.fixed, flipBit data (tagsLine (otherSyndrome delta).line)
            (tagsColumn (otherSyndrome delta).line))
      else if hweight delta.lineParity + hweight delta.lineParityPrime +
          hweight delta.colParity = 1 then (.fixed, data)
      else (.unfixed, data) := by
    dsimp only
    rw [tagsLine_syndrome, ← tagsColumn_syndrome]
    rfl
  rw [unfolded]
  generalize otherDelta readEcc testEcc = delta
  dsimp only
  rw [Syndrome.verdict]
  by_cases clean :
    delta.colParity.setWidth 32 ||| delta.lineParity ||| delta.lineParityPrime = 0
  · rw [if_pos clean, if_pos ((clean_other_iff delta).mp clean)]
    rfl
  rw [if_neg clean, if_neg (mt (clean_other_iff delta).mpr clean)]
  by_cases pairs : ∀ k, (otherSyndrome delta).line k = !(otherSyndrome delta).prime k
  · rw [if_pos ((pairs_other_iff delta).mpr pairs), if_pos pairs]
    rfl
  rw [if_neg (mt (pairs_other_iff delta).mp pairs), if_neg pairs, hweight_other_eq]
  by_cases single : (otherSyndrome delta).weight = 1
  · rw [if_pos single, if_pos single]
    rfl
  · rw [if_neg single, if_neg single]
    rfl

/-! ## Which bits were wrong -/

theorem TagsBit.toFlip_ne_data {f : TagsBit} (code : ∀ byte bit, f ≠ .tags byte bit)
    (found : TagsPositionBit → Bool) : f.toFlip ≠ .data found := by
  cases f with
  | tags byte bit => exact absurd rfl (code byte bit)
  | col bit =>
    simp only [toFlip]
    split_ifs <;> nofun
  | line bit => nofun
  | prime bit => nofun

theorem TagsBit.flip_of_code {f : TagsBit} (code : ∀ byte bit, f ≠ .tags byte bit)
    (read : List UInt8 × EccOther) : (f.flip read).1 = read.1 := by
  cases f with
  | tags byte bit => exact absurd rfl (code byte bit)
  | col bit => rfl
  | line bit => rfl
  | prime bit => rfl

theorem TagsBit.flip_length (f : TagsBit) (read : List UInt8 × EccOther) :
    (f.flip read).1.length = read.1.length := by
  cases f with
  | tags byte bit => exact flipBit_length _ _ _
  | _ => rfl

/-- The field of a wrong bit and its place in the field. -/
def tagsIndex : Flip TagsPositionBit (Fin 2) → Nat × Nat × Nat
  | .data position => (0, tagsLine position, tagsColumn position)
  | .line (.inl k) => (1, k, 0)
  | .prime (.inl k) => (2, k, 0)
  | .line (.inr k) => (3, 2 * k + 1, 0)
  | .prime (.inr k) => (3, 2 * k, 0)
  | .spare k => (3, k + 6, 0)

theorem tagsIndex_toFlip (f : TagsBit) :
    tagsIndex f.toFlip =
      match f with
      | .tags byte bit => (0, byte.val, bit.val)
      | .line bit => (1, bit.val, 0)
      | .prime bit => (2, bit.val, 0)
      | .col bit => (3, bit.val, 0) := by
  cases f with
  | tags byte bit => simp only [TagsBit.toFlip, tagsIndex, tagsLine_position, tagsColumn_position]
  | col bit =>
    revert bit
    decide
  | line bit => rfl
  | prime bit => rfl

theorem TagsBit.toFlip_injective : Function.Injective TagsBit.toFlip := by
  intro f g same
  have index_eq := congrArg tagsIndex same
  rw [tagsIndex_toFlip, tagsIndex_toFlip] at index_eq
  have field := congrArg Prod.fst index_eq
  have first := congrArg (·.2.1) index_eq
  have second := congrArg (·.2.2) index_eq
  cases f with
  | tags byte bit =>
    cases g with
    | tags byte' bit' => rw [Fin.ext first, Fin.ext second]
    | _ => exact absurd field (by dsimp only; decide)
  | col bit =>
    cases g with
    | col bit' => rw [Fin.ext first]
    | _ => exact absurd field (by dsimp only; decide)
  | line bit =>
    cases g with
    | line bit' => rw [Fin.ext first]
    | _ => exact absurd field (by dsimp only; decide)
  | prime bit =>
    cases g with
    | prime bit' => rw [Fin.ext first]
    | _ => exact absurd field (by dsimp only; decide)

end Pairs

/-! ## When the code protects the tags -/

section Protection

variable {bigEndian : Bool} {storedEndian : Nat} {ptt : PackedTags2TagsOnly}

/-- Tags that look erased read as unused, others as the correction leaves them. -/
theorem readTags_eq (read : List UInt8 × EccOther) (length_eq : read.1.length = 16) :
    readTags bigEndian storedEndian read =
      let corrected : EccResult × List UInt8 :=
        if LooksErased bigEndian read.1 then (.noError, read.1)
        else tagsOutcome read.1 (tagsSyndrome read).verdict
      { unpackTags2TagsOnly (endianConfig bigEndian storedEndian)
          (PackedTags2TagsOnly.layout.load bigEndian corrected.2) with
        eccResult := corrected.1 } := by
  have size_eq : read.1.length = PackedTags2TagsOnly.layout.size := length_eq
  have load := EccOther.layout.load_store bigEndian read.2 []
  rw [List.append_nil] at load
  simp only [readTags, unpackTags2]
  rw [List.take_left' size_eq, List.drop_left' size_eq, load, eccCorrectOther_eq]
  by_cases erased : LooksErased bigEndian read.1
  · rw [if_pos erased, if_neg fun both => both.1 erased]
  · rw [if_neg erased, if_pos ⟨erased, trivial⟩]
    rfl

/-- Tags that look erased are read as those of an unused page, and no error is reported. -/
theorem readTags_erased {read : List UInt8 × EccOther} (length_eq : read.1.length = 16)
    (erased : LooksErased bigEndian read.1) :
    readTags bigEndian storedEndian read = { eccResult := .noError } := by
  rw [readTags_eq read length_eq]
  dsimp only
  rw [if_pos erased, unpackTags2TagsOnly]
  split
  case isTrue _ => rfl
  case isFalse used => exact absurd erased used

theorem writtenTags_length : (writtenTags bigEndian ptt).1.length = 16 :=
  PackedTags2TagsOnly.layout.length_store bigEndian ptt

theorem load_writtenTags :
    PackedTags2TagsOnly.layout.load bigEndian (writtenTags bigEndian ptt).1 = ptt := by
  have load := PackedTags2TagsOnly.layout.load_store bigEndian ptt []
  rwa [List.append_nil] at load

/-- The sequence number of tags that are written. -/
def ValidSeqNumber (bigEndian : Bool) (storedEndian : Nat) (ptt : PackedTags2TagsOnly) : Prop :=
  lowestSequenceNumber ≤ packedSeqNumber bigEndian storedEndian ptt ∧
    packedSeqNumber bigEndian storedEndian ptt < highestSequenceNumber

theorem ValidSeqNumber.ne_ones (valid : ValidSeqNumber bigEndian storedEndian ptt) :
    ptt.seqNumber ≠ 0xffffffff := by
  intro ones
  have above := valid.2
  rw [packedSeqNumber, doEndianPackedTags2] at above
  split at above
  case isTrue _ =>
    dsimp only at above
    rw [ones, swapU32_ones] at above
    exact absurd above (by decide)
  case isFalse _ =>
    rw [ones] at above
    exact absurd above (by decide)

section Written

variable (valid : ValidSeqNumber bigEndian storedEndian ptt)
include valid

theorem not_looksErased_written : ¬LooksErased bigEndian (writtenTags bigEndian ptt).1 := by
  rw [LooksErased, load_writtenTags]
  exact valid.ne_ones

/-- Without wrong bits the tags are read as they were packed. -/
theorem readTags_written :
    readTags bigEndian storedEndian (writtenTags bigEndian ptt) =
      { unpackTags2TagsOnly (endianConfig bigEndian storedEndian) ptt with
        eccResult := .noError } := by
  have clean : tagsSyndrome (writtenTags bigEndian ptt) = PairCode.Syndrome.none :=
    tagsSyndrome_intact _
  rw [readTags_eq _ writtenTags_length]
  dsimp only
  rw [if_neg (not_looksErased_written valid), clean, PairCode.verdict_none]
  simp only [tagsOutcome, load_writtenTags]

/-- A correction that restores the bytes restores the tags. -/
theorem readTags_restored {read : List UInt8 × EccOther} (length_eq : read.1.length = 16)
    (kept : ¬LooksErased bigEndian read.1) {result : EccResult}
    (restored : tagsOutcome read.1 (tagsSyndrome read).verdict =
      (result, (writtenTags bigEndian ptt).1)) :
    readTags bigEndian storedEndian read =
      { readTags bigEndian storedEndian (writtenTags bigEndian ptt) with eccResult := result } := by
  rw [readTags_written valid, readTags_eq read length_eq]
  dsimp only
  rw [if_neg kept, restored, load_writtenTags]

end Written

/-- The correction of a bit of the tags undoes its flip. -/
theorem tagsOutcome_data {data : List UInt8} (length_eq : data.length = 16) (byte : Fin 16)
    (bit : Fin 8) :
    tagsOutcome (flipBit data byte bit) (.data (tagsPosition byte bit)) = (.fixed, data) := by
  rw [tagsOutcome, tagsLine_position, tagsColumn_position, flipBit_length, if_neg (by omega),
    flipBit_flipBit]

theorem tagsSyndrome_written_flip (f : TagsBit) :
    tagsSyndrome (f.flip (writtenTags bigEndian ptt)) = f.toFlip.syndrome := by
  have intact : tagsSyndrome (writtenTags bigEndian ptt) = PairCode.Syndrome.none :=
    tagsSyndrome_intact _
  rw [tagsSyndrome_flip writtenTags_length, intact]
  simp [PairCode.Syndrome.none, PairCode.Syndrome.add]

theorem TagsBit.code_of_spare {f : TagsBit} {k : Fin 2} (spare : f.toFlip = .spare k) :
    ∀ byte bit, f ≠ .tags byte bit := by
  rintro byte bit rfl
  exact absurd spare nofun

theorem TagsBit.of_toFlip_data {f : TagsBit} {found : TagsPositionBit → Bool}
    (is_data : f.toFlip = .data found) :
    ∃ byte bit, f = .tags byte bit ∧ found = tagsPosition byte bit := by
  by_cases is_tags : ∃ byte bit, f = .tags byte bit
  · obtain ⟨byte, bit, rfl⟩ := is_tags
    exact ⟨byte, bit, rfl, (PairCode.Flip.data.inj is_data).symm⟩
  · exact absurd is_data (TagsBit.toFlip_ne_data (fun byte bit eq => is_tags ⟨byte, bit, eq⟩) found)

theorem noticed_of_restored (valid : ValidSeqNumber bigEndian storedEndian ptt)
    {read : List UInt8 × EccOther} (length_eq : read.1.length = 16)
    (kept : ¬LooksErased bigEndian read.1) {result : EccResult}
    (restored : tagsOutcome read.1 (tagsSyndrome read).verdict =
      (result, (writtenTags bigEndian ptt).1)) : Noticed bigEndian storedEndian ptt read := by
  have found := readTags_restored valid length_eq kept restored
  refine .inl ?_
  rw [found]

section Flips

variable (valid : ValidSeqNumber bigEndian storedEndian ptt)
include valid

/-- One wrong bit. -/
theorem corrected_flip (f : TagsBit)
    (kept : ¬LooksErased bigEndian (f.flip (writtenTags bigEndian ptt)).1) :
    Corrected bigEndian storedEndian ptt (f.flip (writtenTags bigEndian ptt)) := by
  have length_eq := (f.flip_length (writtenTags bigEndian ptt)).trans writtenTags_length
  refine .inl (readTags_restored valid length_eq kept ?_)
  rw [tagsSyndrome_written_flip]
  by_cases is_tags : ∃ byte bit, f = .tags byte bit
  · obtain ⟨byte, bit, rfl⟩ := is_tags
    rw [TagsBit.toFlip, PairCode.verdict_data]
    exact tagsOutcome_data writtenTags_length byte bit
  · have code : ∀ byte bit, f ≠ .tags byte bit := fun byte bit eq => is_tags ⟨byte, bit, eq⟩
    rw [PairCode.verdict_check (by decide) (TagsBit.toFlip_ne_data code), tagsOutcome,
      TagsBit.flip_of_code code]

/-- Two wrong bits. -/
theorem noticed_flips {f g : TagsBit} (apart : f ≠ g)
    (kept : ¬LooksErased bigEndian (g.flip (f.flip (writtenTags bigEndian ptt))).1) :
    Noticed bigEndian storedEndian ptt (g.flip (f.flip (writtenTags bigEndian ptt))) := by
  have first_length := (f.flip_length (writtenTags bigEndian ptt)).trans writtenTags_length
  have length_eq := (g.flip_length (f.flip (writtenTags bigEndian ptt))).trans first_length
  have syndrome_eq := tagsSyndrome_flip first_length g
  rw [tagsSyndrome_written_flip] at syndrome_eq
  rcases PairCode.verdict_two (by decide) (by decide) (TagsBit.toFlip_injective.ne apart) with
    lost | ⟨found, k, verdict_eq, ⟨f_data, g_spare⟩ | ⟨f_spare, g_data⟩⟩
  · right
    rw [readTags_eq _ length_eq]
    dsimp only
    rw [if_neg kept, syndrome_eq, lost]
    rfl
  · obtain ⟨byte, bit, rfl, rfl⟩ := TagsBit.of_toFlip_data f_data
    have restored :
        tagsOutcome (g.flip ((TagsBit.tags byte bit).flip (writtenTags bigEndian ptt))).1
          (tagsSyndrome
            (g.flip ((TagsBit.tags byte bit).flip (writtenTags bigEndian ptt)))).verdict =
          (.fixed, (writtenTags bigEndian ptt).1) := by
      rw [syndrome_eq, verdict_eq, TagsBit.flip_of_code (TagsBit.code_of_spare g_spare)]
      exact tagsOutcome_data writtenTags_length byte bit
    exact noticed_of_restored valid length_eq kept restored
  · obtain ⟨byte, bit, rfl, rfl⟩ := TagsBit.of_toFlip_data g_data
    have restored :
        tagsOutcome ((TagsBit.tags byte bit).flip (f.flip (writtenTags bigEndian ptt))).1
          (tagsSyndrome
            ((TagsBit.tags byte bit).flip (f.flip (writtenTags bigEndian ptt)))).verdict =
          (.fixed, (writtenTags bigEndian ptt).1) := by
      rw [syndrome_eq, verdict_eq, TagsBit.flip,
        TagsBit.flip_of_code (TagsBit.code_of_spare f_spare)]
      exact tagsOutcome_data writtenTags_length byte bit
    exact noticed_of_restored valid length_eq kept restored

end Flips

/-- For all tags with a valid sequence number one wrong bit is corrected and two are noticed.  Only
wrong bits that set all of the sequence number make the page look unused. -/
theorem tags_protected (valid : ValidSeqNumber bigEndian storedEndian ptt) :
    (∀ f : TagsBit,
      let read := f.flip (writtenTags bigEndian ptt)
      if LooksErased bigEndian read.1 then
        readTags bigEndian storedEndian read = { eccResult := .noError }
      else Corrected bigEndian storedEndian ptt read) ∧
    ∀ f g : TagsBit, f ≠ g →
      let read := g.flip (f.flip (writtenTags bigEndian ptt))
      if LooksErased bigEndian read.1 then
        readTags bigEndian storedEndian read = { eccResult := .noError }
      else Noticed bigEndian storedEndian ptt read := by
  constructor
  · intro f
    have length_eq := (f.flip_length (writtenTags bigEndian ptt)).trans writtenTags_length
    dsimp only
    split
    case isTrue erased => exact readTags_erased length_eq erased
    case isFalse kept => exact corrected_flip valid f kept
  · intro f g apart
    have first_length := (f.flip_length (writtenTags bigEndian ptt)).trans writtenTags_length
    have length_eq := (g.flip_length (f.flip (writtenTags bigEndian ptt))).trans first_length
    dsimp only
    split
    case isTrue erased => exact readTags_erased length_eq erased
    case isFalse kept => exact noticed_flips valid apart kept

/-- Packed tags of a header, on a host with the least significant byte first. -/
theorem tags_protected_header :
    let written := writtenTags false ⟨0x1000, 0x10000101, 0x80000001, 0⟩
    (∀ f : TagsBit,
      let read := f.flip written
      if LooksErased false read.1 then readTags false 1 read = { eccResult := .noError }
      else Corrected false 1 ⟨0x1000, 0x10000101, 0x80000001, 0⟩ read) ∧
    ∀ f g : TagsBit, f ≠ g →
      let read := g.flip (f.flip written)
      if LooksErased false read.1 then readTags false 1 read = { eccResult := .noError }
      else Noticed false 1 ⟨0x1000, 0x10000101, 0x80000001, 0⟩ read :=
  tags_protected (by unfold ValidSeqNumber; decide +kernel)

/-- A wrong bit in a sequence number with one zero makes the page look erased. -/
theorem not_corrected_last_zero :
    ValidSeqNumber false 1 ⟨0xdfffffff, 0x101, 1, 2048⟩ ∧
      ¬Corrected false 1 ⟨0xdfffffff, 0x101, 1, 2048⟩
        ((TagsBit.tags 3 5).flip (writtenTags false ⟨0xdfffffff, 0x101, 1, 2048⟩)) := by
  refine ⟨by unfold ValidSeqNumber; decide +kernel, ?_⟩
  unfold Corrected
  decide +kernel

end Protection

end Yaffs
