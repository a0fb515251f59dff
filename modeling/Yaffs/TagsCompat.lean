import Yaffs.ByteOrderExchange

/-!
# Error correction for the tags of yaffs1

The tags of a page fill eight bytes, and one field of them is a code for all of them.  While the
code is computed the field is zero.  The code is the sum of the numbers of the bits that are set, so
that a wrong bit of another field changes it by the number of the bit.  A wrong bit of the code
itself changes it by a power of two, which is the number of another bit as well.
-/

namespace Yaffs.Compat

open Stored

/-! ## Tags in memory -/

/-- The tags of a page. -/
@[ext]
structure Tags where
  chunkId : BitVec 20
  serialNumber : BitVec 2
  nBytesLsb : BitVec 10
  objId : BitVec 18
  ecc : BitVec 12
  nBytesMsb : BitVec 2
deriving DecidableEq

/-- The bytes of a word in memory, the first one in the lowest bits. -/
def hostBytes (bigEndian : Bool) (word : U32) : U32 := if bigEndian then swapU32 word else word

/-- The eight bytes of tags.  A host with the most significant byte first also has the first field
in the highest bits. -/
def Tags.asBytes (bigEndian : Bool) (tags : Tags) : BitVec 64 :=
  let low : U32 :=
    if bigEndian then tags.chunkId ++ tags.serialNumber ++ tags.nBytesLsb
    else tags.nBytesLsb ++ tags.serialNumber ++ tags.chunkId
  let high : U32 :=
    if bigEndian then tags.objId ++ tags.ecc ++ tags.nBytesMsb
    else tags.nBytesMsb ++ tags.ecc ++ tags.objId
  hostBytes bigEndian high ++ hostBytes bigEndian low

/-- The tags in eight bytes. -/
def asTags (bigEndian : Bool) (bytes : BitVec 64) : Tags :=
  let low := hostBytes bigEndian (bytes.extractLsb' 0 32)
  let high := hostBytes bigEndian (bytes.extractLsb' 32 32)
  if bigEndian then
    { chunkId := low.extractLsb' 12 20
      serialNumber := low.extractLsb' 10 2
      nBytesLsb := low.extractLsb' 0 10
      objId := high.extractLsb' 14 18
      ecc := high.extractLsb' 2 12
      nBytesMsb := high.extractLsb' 0 2 }
  else
    { chunkId := low.extractLsb' 0 20
      serialNumber := low.extractLsb' 20 2
      nBytesLsb := low.extractLsb' 22 10
      objId := high.extractLsb' 0 18
      ecc := high.extractLsb' 18 12
      nBytesMsb := high.extractLsb' 30 2 }

/-! ## The code -/

/-- The loop over the bits: the sum of the numbers of those that are set, counted from one. -/
def bitSum (bytes : BitVec 64) : Nat → U32
  | 0 => 0
  | bit + 1 =>
    if bytes.getLsbD bit then bitSum bytes bit ^^^ BitVec.ofNat 32 (bit + 1) else bitSum bytes bit

/-- Compute the code of tags. -/
def calcTagsEcc (bigEndian : Bool) (tags : Tags) : Tags :=
  let tags := { tags with ecc := 0 }
  { tags with ecc := (bitSum (tags.asBytes bigEndian) 64).setWidth 12 }

/-- Correct tags whose code has been read. -/
def checkTagsEcc (bigEndian : Bool) (tags : Tags) : Int × Tags :=
  let ecc := tags.ecc.setWidth 32
  let tags := calcTagsEcc bigEndian tags
  let ecc : U32 := ecc ^^^ tags.ecc.setWidth 32
  if ecc ≠ 0 ∧ ecc.toNat ≤ 64 then
    let ecc := ecc.toNat - 1
    (1, calcTagsEcc bigEndian
      (asTags bigEndian (tags.asBytes bigEndian ^^^ BitVec.twoPow 64 ecc)))
  else if ecc ≠ 0 then (-1, tags)
  else (0, tags)

/-- Reverse the bytes of both words if they are stored in the other order. -/
def swapWords (swapEndian : Bool) (bytes : BitVec 64) : BitVec 64 :=
  doEndianU32 swapEndian (bytes.extractLsb' 32 32) ++ doEndianU32 swapEndian
    (bytes.extractLsb' 0 32)

/-- The bytes stored for tags. -/
def loadTagsToSpare (bigEndian : Bool) (storedEndian : Nat) (tags : Tags) : BitVec 64 :=
  swapWords (endianConfig bigEndian storedEndian) ((calcTagsEcc bigEndian tags).asBytes bigEndian)

/-- The tags found in stored bytes. -/
def getTagsFromSpare (bigEndian : Bool) (storedEndian : Nat) (spare : BitVec 64) : Tags :=
  (checkTagsEcc bigEndian
    (asTags bigEndian (swapWords (endianConfig bigEndian storedEndian) spare))).2

/-- All fields but the code are the same. -/
structure SameFields (tags found : Tags) : Prop where
  chunkId : found.chunkId = tags.chunkId
  serialNumber : found.serialNumber = tags.serialNumber
  nBytesLsb : found.nBytesLsb = tags.nBytesLsb
  objId : found.objId = tags.objId
  nBytesMsb : found.nBytesMsb = tags.nBytesMsb

/-! ## Bits in memory -/

section Memory

variable (bigEndian : Bool)

/-- Two words with the same bits exclusive or have them after the bytes have been reversed. -/
theorem swapU32_xor (a b : U32) : swapU32 (a ^^^ b) = swapU32 a ^^^ swapU32 b := by
  simp only [swapU32, BitVec.ushiftRight_xor_distrib, BitVec.shiftLeft_xor_distrib]
  apply BitVec.eq_of_getLsbD_eq
  intro i i_lt
  simp only [BitVec.getLsbD_or, BitVec.getLsbD_and, BitVec.getLsbD_xor]
  interval_cases i <;> simp

theorem hostBytes_hostBytes (word : U32) :
    hostBytes bigEndian (hostBytes bigEndian word) = word := by
  cases bigEndian
  · rfl
  · exact swapU32_swapU32 word

theorem hostBytes_xor (a b : U32) :
    hostBytes bigEndian (a ^^^ b) = hostBytes bigEndian a ^^^ hostBytes bigEndian b := by
  cases bigEndian
  · rfl
  · exact swapU32_xor a b

/-- Three fields of a word. -/
theorem extract_fields {m n k : Nat} (a : BitVec m) (b : BitVec n) (c : BitVec k) :
    (a ++ b ++ c).extractLsb' 0 k = c ∧ (a ++ b ++ c).extractLsb' k n = b ∧
      (a ++ b ++ c).extractLsb' (k + n) m = a := by
  refine ⟨BitVec.extractLsb'_append_eq_right, ?_, ?_⟩
  · rw [BitVec.extractLsb'_append_eq_of_le (Nat.le_refl k), Nat.sub_self,
      BitVec.extractLsb'_append_eq_right]
  · rw [BitVec.extractLsb'_append_eq_of_le (Nat.le_add_right k n), Nat.add_sub_cancel_left,
      BitVec.extractLsb'_append_eq_left]

theorem append_fields {m n k : Nat} (word : BitVec (m + n + k)) :
    word.extractLsb' (k + n) m ++ word.extractLsb' k n ++ word.extractLsb' 0 k = word := by
  rw [BitVec.extractLsb'_append_extractLsb'_eq_extractLsb' rfl,
    BitVec.extractLsb'_append_extractLsb'_eq_extractLsb' (Nat.zero_add k).symm]
  exact BitVec.extractLsb'_eq_self

theorem asTags_asBytes (tags : Tags) : asTags bigEndian (tags.asBytes bigEndian) = tags := by
  simp only [asTags, Tags.asBytes]
  rw [BitVec.extractLsb'_append_eq_right, BitVec.extractLsb'_append_eq_left, hostBytes_hostBytes,
    hostBytes_hostBytes]
  cases bigEndian
  · have low := extract_fields tags.nBytesLsb tags.serialNumber tags.chunkId
    have high := extract_fields tags.nBytesMsb tags.ecc tags.objId
    ext1
    · exact low.1
    · exact low.2.1
    · exact low.2.2
    · exact high.1
    · exact high.2.1
    · exact high.2.2
  · have low := extract_fields tags.chunkId tags.serialNumber tags.nBytesLsb
    have high := extract_fields tags.objId tags.ecc tags.nBytesMsb
    ext1
    · exact low.2.2
    · exact low.2.1
    · exact low.1
    · exact high.2.2
    · exact high.2.1
    · exact high.1

theorem asBytes_asTags (bytes : BitVec 64) : (asTags bigEndian bytes).asBytes
    bigEndian = bytes := by
  have halves : bytes.extractLsb' 32 32 ++ bytes.extractLsb' 0 32 = bytes := by
    rw [BitVec.extractLsb'_append_extractLsb'_eq_extractLsb' (Nat.zero_add 32).symm]
    exact BitVec.extractLsb'_eq_self
  refine Eq.trans ?_ halves
  generalize high_eq : bytes.extractLsb' 32 32 = high
  generalize low_eq : bytes.extractLsb' 0 32 = low
  simp only [asTags, Tags.asBytes, high_eq, low_eq]
  cases bigEndian
  · have low_word := append_fields (m := 10) (n := 2) (k := 20) low
    have high_word := append_fields (m := 2) (n := 12) (k := 18) high
    exact congrArg₂ (· ++ ·) high_word low_word
  · have low_word := append_fields (m := 20) (n := 2) (k := 10) (hostBytes true low)
    have high_word := append_fields (m := 18) (n := 12) (k := 2) (hostBytes true high)
    have low_bytes := (congrArg (hostBytes true) low_word).trans (hostBytes_hostBytes true low)
    have high_bytes := (congrArg (hostBytes true) high_word).trans (hostBytes_hostBytes true high)
    exact congrArg₂ (· ++ ·) high_bytes low_bytes

/-- Tags that differ in some bits. -/
def Tags.change (tags bits : Tags) : Tags where
  chunkId := tags.chunkId ^^^ bits.chunkId
  serialNumber := tags.serialNumber ^^^ bits.serialNumber
  nBytesLsb := tags.nBytesLsb ^^^ bits.nBytesLsb
  objId := tags.objId ^^^ bits.objId
  ecc := tags.ecc ^^^ bits.ecc
  nBytesMsb := tags.nBytesMsb ^^^ bits.nBytesMsb

theorem asTags_xor (a b : BitVec 64) :
    asTags bigEndian (a ^^^ b) = (asTags bigEndian a).change (asTags bigEndian b) := by
  cases bigEndian <;>
    simp only [asTags, Tags.change, BitVec.extractLsb'_xor, hostBytes_xor, Bool.false_eq_true,
      if_false, if_true]

theorem asBytes_change (tags bits : Tags) :
    (tags.change bits).asBytes bigEndian =
      tags.asBytes bigEndian ^^^ bits.asBytes bigEndian := by
  have linear := asTags_xor bigEndian (tags.asBytes bigEndian) (bits.asBytes bigEndian)
  rw [asTags_asBytes, asTags_asBytes] at linear
  rw [← linear, asBytes_asTags]

theorem swapWords_swapWords (swapEndian : Bool) (bytes : BitVec 64) :
    swapWords swapEndian (swapWords swapEndian bytes) = bytes := by
  have halves : bytes.extractLsb' 32 32 ++ bytes.extractLsb' 0 32 = bytes := by
    rw [BitVec.extractLsb'_append_extractLsb'_eq_extractLsb' (Nat.zero_add 32).symm]
    exact BitVec.extractLsb'_eq_self
  simp only [swapWords]
  rw [BitVec.extractLsb'_append_eq_right, BitVec.extractLsb'_append_eq_left]
  cases swapEndian
  · exact halves
  · simp only [doEndianU32, if_true, swapU32_swapU32]
    exact halves

theorem swapWords_xor (swapEndian : Bool) (a b : BitVec 64) :
    swapWords swapEndian (a ^^^ b) = swapWords swapEndian a ^^^ swapWords swapEndian b := by
  have linear : ∀ x y : U32,
      doEndianU32 swapEndian (x ^^^ y) = doEndianU32 swapEndian x ^^^ doEndianU32 swapEndian y := by
    intro x y
    cases swapEndian
    · rfl
    · exact swapU32_xor x y
  simp only [swapWords, BitVec.extractLsb'_xor, linear]
  exact BitVec.xor_append.symm

/-- Where a bit goes when the bytes of both words are reversed. -/
def swappedBit (swapEndian : Bool) (p : Nat) : Nat :=
  if swapEndian then 32 * (p / 32) + 8 * (3 - p % 32 / 8) + p % 8 else p

theorem swapWords_twoPow (swapEndian : Bool) (p : Fin 64) :
    swapWords swapEndian (BitVec.twoPow 64 p) =
      BitVec.twoPow 64 (swappedBit swapEndian p) := by
  revert swapEndian p
  decide +kernel

end Memory

/-! ## The sum of the bit numbers -/

theorem bitSum_xor (a b : BitVec 64) (count : Nat) :
    bitSum (a ^^^ b) count = bitSum a count ^^^ bitSum b count := by
  induction count with
  | zero => exact (BitVec.xor_self).symm
  | succ bit ih =>
    simp only [bitSum, BitVec.getLsbD_xor, ih]
    cases a.getLsbD bit <;> cases b.getLsbD bit
    · rfl
    · exact BitVec.xor_assoc _ _ _
    · simp only [Bool.xor_false, if_true, Bool.false_eq_true, if_false]
      ac_rfl
    · simp only [Bool.xor_self, if_true, Bool.false_eq_true, if_false]
      rw [BitVec.xor_assoc, BitVec.xor_comm (bitSum b bit), ← BitVec.xor_assoc (BitVec.ofNat 32 _),
        BitVec.xor_self, BitVec.zero_xor]

section Correction

variable (bigEndian : Bool)

theorem calcTagsEcc_calcTagsEcc (tags : Tags) :
    calcTagsEcc bigEndian (calcTagsEcc bigEndian tags) = calcTagsEcc bigEndian tags := rfl

/-- The code of tags that differ in some bits. -/
theorem calcTagsEcc_change (tags bits : Tags) :
    calcTagsEcc bigEndian (tags.change bits) =
      (calcTagsEcc bigEndian tags).change (calcTagsEcc bigEndian bits) := by
  have cleared : { tags.change bits with ecc := 0 } =
      ({ tags with ecc := 0 } : Tags).change { bits with ecc := 0 } := by
    simp only [Tags.change]
    exact congrArg (Tags.mk _ _ _ _ · _) (BitVec.xor_self).symm
  simp only [calcTagsEcc]
  rw [cleared, asBytes_change, bitSum_xor, BitVec.setWidth_xor]
  rfl

theorem change_assoc (a b c : Tags) : (a.change b).change c = a.change (b.change c) := by
  simp only [Tags.change, BitVec.xor_assoc]

/-- Whether and how tags are corrected depends only on the bits that are wrong. -/
theorem checkTagsEcc_change {stored : Tags} (coded : calcTagsEcc bigEndian stored = stored)
    (bits : Tags) :
    checkTagsEcc bigEndian (stored.change bits) =
      ((checkTagsEcc bigEndian bits).1, stored.change (checkTagsEcc bigEndian bits).2) := by
  have computed : calcTagsEcc bigEndian (stored.change bits) =
      stored.change (calcTagsEcc bigEndian bits) := by
    rw [calcTagsEcc_change, coded]
  have flipped : ∀ position : BitVec 64,
      calcTagsEcc bigEndian (asTags bigEndian
        ((stored.change (calcTagsEcc bigEndian bits)).asBytes bigEndian ^^^ position)) =
      stored.change (calcTagsEcc bigEndian (asTags bigEndian
        ((calcTagsEcc bigEndian bits).asBytes bigEndian ^^^ position))) := by
    intro position
    rw [asTags_xor, asTags_xor, asTags_asBytes, asTags_asBytes, change_assoc, calcTagsEcc_change,
      coded]
  -- the syndrome does not see the bits that are right
  have syndrome : (stored.change bits).ecc.setWidth 32 ^^^
      (stored.change (calcTagsEcc bigEndian bits)).ecc.setWidth 32 =
      bits.ecc.setWidth 32 ^^^ (calcTagsEcc bigEndian bits).ecc.setWidth 32 := by
    simp only [Tags.change, ← BitVec.setWidth_xor]
    congr 1
    rw [BitVec.xor_assoc, ← BitVec.xor_assoc bits.ecc, BitVec.xor_comm bits.ecc,
      BitVec.xor_assoc stored.ecc, ← BitVec.xor_assoc stored.ecc, BitVec.xor_self,
      BitVec.zero_xor]
  unfold checkTagsEcc
  dsimp only
  rw [computed, syndrome]
  split
  · rw [flipped]
  · split <;> rfl

/-- Where a bit of the code lies in memory. -/
def eccBit (k : Nat) : Nat := swappedBit bigEndian (if bigEndian then 34 + k else 50 + k)

/-- The bits of the code that are taken for a bit of another field when they are wrong.  The seventh
one is the number of the last bit, which belongs to the code itself where the most significant byte
comes first. -/
def mistakenBits : Nat := if bigEndian then 6 else 7

/-- A single wrong bit is put right unless it is one of the lowest bits of the code. -/
theorem checkTagsEcc_twoPow (p : Fin 64) :
    { (checkTagsEcc bigEndian (asTags bigEndian (BitVec.twoPow 64 p))).2 with ecc := 0 } =
        (⟨0, 0, 0, 0, 0, 0⟩ : Tags) ↔
      ∀ k < mistakenBits bigEndian, p.val ≠ eccBit bigEndian k := by
  revert p bigEndian
  decide +kernel

end Correction

/-! ## Tags in the spare area -/

/-- Tags whose other fields differ in no bit. -/
theorem sameFields_change (tags bits : Tags) :
    SameFields tags ((calcTagsEcc bigEndian tags).change bits) ↔
      { bits with ecc := 0 } = (⟨0, 0, 0, 0, 0, 0⟩ : Tags) := by
  have unchanged : ∀ {n : Nat} {field change : BitVec n}, field ^^^ change =
    field ↔ change = 0 := by
    intro n field change
    have cleared : field ^^^ 0 = field := BitVec.xor_zero
    refine ⟨fun same => ?_, fun same => same ▸ cleared⟩
    exact (BitVec.xor_right_inj field).1 (same.trans cleared.symm)
  constructor
  · intro same
    ext1
    · exact unchanged.1 same.chunkId
    · exact unchanged.1 same.serialNumber
    · exact unchanged.1 same.nBytesLsb
    · exact unchanged.1 same.objId
    · rfl
    · exact unchanged.1 same.nBytesMsb
  · intro clear
    obtain ⟨chunkId, serialNumber, nBytesLsb, objId, ecc, nBytesMsb⟩ := bits
    obtain ⟨chunk_eq, serial_eq, lsb_eq, obj_eq, -, msb_eq⟩ := Tags.mk.inj clear
    exact ⟨unchanged.2 chunk_eq, unchanged.2 serial_eq, unchanged.2 lsb_eq, unchanged.2 obj_eq,
      unchanged.2 msb_eq⟩

/-- What is read back when some of the stored bits are wrong. -/
theorem getTagsFromSpare_xor (bigEndian : Bool) (storedEndian : Nat) (tags : Tags)
    (flips : BitVec 64) :
    getTagsFromSpare bigEndian storedEndian
      (loadTagsToSpare bigEndian storedEndian tags ^^^ flips) =
      (calcTagsEcc bigEndian tags).change
        (checkTagsEcc bigEndian
          (asTags bigEndian (swapWords (endianConfig bigEndian storedEndian) flips))).2 := by
  unfold getTagsFromSpare loadTagsToSpare
  rw [swapWords_xor, swapWords_swapWords, asTags_xor, asTags_asBytes,
    checkTagsEcc_change bigEndian (calcTagsEcc_calcTagsEcc bigEndian tags)]

theorem swappedBit_lt (swapEndian : Bool) {p : Nat} (p_lt : p < 64) :
    swappedBit swapEndian p < 64 := by
  cases swapEndian
  · exact p_lt
  · simp only [swappedBit, if_true]
    omega

theorem swappedBit_swappedBit (swapEndian : Bool) (p : Nat) :
    swappedBit swapEndian (swappedBit swapEndian p) = p := by
  cases swapEndian
  · rfl
  · simp only [swappedBit, if_true]
    omega

/-- Where a bit of the code lies in the spare area. -/
def storedEccBit (bigEndian : Bool) (storedEndian k : Nat) : Nat :=
  swappedBit (endianConfig bigEndian storedEndian) (eccBit bigEndian k)

/-- One wrong bit in the spare area leaves the fields of the tags as they were stored just when it
is none of the lowest bits of the code. -/
theorem one_flip_iff (bigEndian : Bool) (storedEndian : Nat) (tags : Tags) (p : Nat)
    (p_lt : p < 64) :
    SameFields tags (getTagsFromSpare bigEndian storedEndian
        (loadTagsToSpare bigEndian storedEndian tags ^^^ BitVec.twoPow 64 p)) ↔
      ∀ k < mistakenBits bigEndian, p ≠ storedEccBit bigEndian storedEndian k := by
  let swapEndian := endianConfig bigEndian storedEndian
  have elsewhere : ∀ k, swappedBit swapEndian p ≠ eccBit bigEndian k ↔
      p ≠ storedEccBit bigEndian storedEndian k := by
    intro k
    refine not_congr ⟨?_, ?_⟩
    · intro same
      exact (swappedBit_swappedBit swapEndian p).symm.trans (congrArg (swappedBit swapEndian) same)
    · intro same
      exact (congrArg (swappedBit swapEndian) same).trans (swappedBit_swappedBit swapEndian _)
  rw [getTagsFromSpare_xor, sameFields_change, swapWords_twoPow swapEndian ⟨p, p_lt⟩,
    checkTagsEcc_twoPow bigEndian ⟨swappedBit swapEndian p, swappedBit_lt swapEndian p_lt⟩]
  exact forall₂_congr fun k _ => elsewhere k

/-- The lowest bit of an object's number is wrong. -/
theorem one_flip_object : SameFields ⟨7, 1, 0, 257, 0, 2⟩ (getTagsFromSpare false 2
    (loadTagsToSpare false 2 ⟨7, 1, 0, 257, 0, 2⟩ ^^^ BitVec.twoPow 64 56)) :=
  (one_flip_iff false 2 ⟨7, 1, 0, 257, 0, 2⟩ 56 (by decide)).2 (by decide)

/-- The lowest bit of the code is wrong, and another page of the file is found. -/
theorem not_same_lowest : ¬ SameFields ⟨7, 1, 0, 257, 0, 2⟩ (getTagsFromSpare false 1
    (loadTagsToSpare false 1 ⟨7, 1, 0, 257, 0, 2⟩ ^^^ BitVec.twoPow 64 50)) := by
  intro same
  exact absurd same.chunkId (by decide +kernel)

end Yaffs.Compat
