import Yaffs.ByteOrder
import Yaffs.Library.PairCode
import Mathlib.Tactic.FinCases

/-!
# Error correction for data

A block of 256 bytes has a code of three bytes.  Two of them hold the parities over the lines, a
line being a byte of the block, and the third those over the columns.  The two parities of a pair
are neighbours.
-/

namespace Yaffs

open Stored (columnParityTable hweight Chars)

/-- The three bytes of the code of a block. -/
@[ext]
structure Ecc where
  ecc0 : BitVec 8
  ecc1 : BitVec 8
  ecc2 : BitVec 8
deriving DecidableEq

/-- The parities over some bytes: of the columns, of the lines, and of the lines by complement. -/
@[ext]
structure Parities (width : Nat) where
  colParity : BitVec 8
  lineParity : BitVec width
  lineParityPrime : BitVec width

/-- The loop over the bytes of a block. -/
def parityLoop {width : Nat} : Nat → List UInt8 → Parities width → Parities width
  | _, [], sums => sums
  | i, byte :: data, sums =>
    let b := columnParityTable.getD byte.toNat 0
    let odd := b &&& 0x01 ≠ 0
    parityLoop (i + 1) data
      { colParity := sums.colParity ^^^ b
        lineParity :=
          if odd then sums.lineParity ^^^ BitVec.ofNat width i else sums.lineParity
        lineParityPrime :=
          if odd then sums.lineParityPrime ^^^ ~~~BitVec.ofNat width i
          else sums.lineParityPrime }

/-- A bit to set when another one is set. -/
def bitIf (parity mask value : BitVec 8) : BitVec 8 := if parity &&& mask ≠ 0 then value else 0

/-- Four parities over lines, each beside the one by complement. -/
def interleave (line prime mask3 mask2 mask1 mask0 : BitVec 8) : BitVec 8 :=
  bitIf line mask3 0x80 ||| bitIf prime mask3 0x40 |||
  bitIf line mask2 0x20 ||| bitIf prime mask2 0x10 |||
  bitIf line mask1 0x08 ||| bitIf prime mask1 0x04 |||
  bitIf line mask0 0x02 ||| bitIf prime mask0 0x01

/-- Compute the code of a block. -/
def eccCalc (data : List UInt8) : Ecc :=
  let sums := parityLoop 0 data (⟨0, 0, 0⟩ : Parities 8)
  { ecc2 := ~~~sums.colParity ||| 0x03
    ecc1 := ~~~interleave sums.lineParity sums.lineParityPrime 0x80 0x40 0x20 0x10
    ecc0 := ~~~interleave sums.lineParity sums.lineParityPrime 0x08 0x04 0x02 0x01 }

/-- Correct a block whose code has been read, with the code computed for it.  A single wrong bit is
put right in the data or in the code. -/
def eccCorrect (data : List UInt8) (readEcc testEcc : Ecc) : Int × List UInt8 × Ecc :=
  let d0 := readEcc.ecc0 ^^^ testEcc.ecc0
  let d1 := readEcc.ecc1 ^^^ testEcc.ecc1
  let d2 := readEcc.ecc2 ^^^ testEcc.ecc2
  if d0 ||| d1 ||| d2 = 0 then (0, data, readEcc)
  else if (d0 ^^^ (d0 >>> 1)) &&& 0x55 = 0x55 ∧ (d1 ^^^ (d1 >>> 1)) &&& 0x55 = 0x55 ∧
      (d2 ^^^ (d2 >>> 1)) &&& 0x54 = 0x54 then
    let byte := bitIf d1 0x80 0x80 ||| bitIf d1 0x20 0x40 ||| bitIf d1 0x08 0x20 |||
      bitIf d1 0x02 0x10 ||| bitIf d0 0x80 0x08 ||| bitIf d0 0x20 0x04 ||| bitIf d0 0x08 0x02 |||
      bitIf d0 0x02 0x01
    let bit := bitIf d2 0x80 0x04 ||| bitIf d2 0x20 0x02 ||| bitIf d2 0x08 0x01
    (1, data.modify byte.toNat (· ^^^ UInt8.ofNat (2 ^ bit.toNat)), readEcc)
  else if hweight d0 + hweight d1 + hweight d2 = 1 then (1, data, testEcc)
  else (-1, data, readEcc)

/-! ## Wrong bits -/

/-- A bit of a block or of its code. -/
inductive BlockBit
  | data (byte : Fin 256) (bit : Fin 8)
  | ecc (byte : Fin 3) (bit : Fin 8)
deriving DecidableEq

/-- Flip a bit of some bytes. -/
def flipBit (data : List UInt8) (byte bit : Nat) : List UInt8 :=
  data.modify byte (· ^^^ UInt8.ofNat (2 ^ bit))

/-- Flip a bit of a code. -/
def Ecc.flip (ecc : Ecc) (byte : Fin 3) (bit : Nat) : Ecc :=
  match byte with
  | 0 => { ecc with ecc0 := ecc.ecc0 ^^^ BitVec.twoPow 8 bit }
  | 1 => { ecc with ecc1 := ecc.ecc1 ^^^ BitVec.twoPow 8 bit }
  | 2 => { ecc with ecc2 := ecc.ecc2 ^^^ BitVec.twoPow 8 bit }

/-- A block and its code with one more wrong bit. -/
def BlockBit.flip : BlockBit → List UInt8 × Ecc → List UInt8 × Ecc
  | data byte bit, read => (flipBit read.1 byte bit, read.2)
  | ecc byte bit, read => (read.1, read.2.flip byte bit)

/-- The outcome for a block and a code that were read. -/
def correctRead (read : List UInt8 × Ecc) : Int × List UInt8 :=
  let corrected := eccCorrect read.1 read.2 (eccCalc read.1)
  (corrected.1, corrected.2.1)

/-- One wrong bit is corrected, two are noticed. -/
structure CorrectsOneDetectsTwo (data : List UInt8) : Prop where
  intact : correctRead (data, eccCalc data) = (0, data)
  one : ∀ p : BlockBit, correctRead (p.flip (data, eccCalc data)) = (1, data)
  two : ∀ p q : BlockBit, p ≠ q →
    let read := q.flip (p.flip (data, eccCalc data))
    correctRead read = (-1, read.1) ∨ correctRead read = (1, data)

/-! ## Parities of a flipped bit -/

/-- Parities change by the sum of what changes them. -/
def Parities.add {width : Nat} (sums change : Parities width) : Parities width where
  colParity := sums.colParity ^^^ change.colParity
  lineParity := sums.lineParity ^^^ change.lineParity
  lineParityPrime := sums.lineParityPrime ^^^ change.lineParityPrime

/-- What a bit of a byte changes. -/
def bitParities (width byte bit : Nat) : Parities width where
  colParity := columnParityTable.getD (2 ^ bit) 0
  lineParity := BitVec.ofNat width byte
  lineParityPrime := ~~~BitVec.ofNat width byte

theorem Parities.add_right_comm {width : Nat} (sums change more : Parities width) :
    (sums.add change).add more = (sums.add more).add change := by
  simp only [add, Parities.mk.injEq]
  refine ⟨?_, ?_, ?_⟩ <;> ac_rfl

theorem Parities.add_assoc {width : Nat} (sums change more : Parities width) :
    sums.add (change.add more) = (sums.add change).add more := by
  simp only [add, BitVec.xor_assoc]

/-- The table is linear. -/
theorem columnParity_flip (byte : UInt8) (bit : Fin 8) :
    columnParityTable.getD (byte ^^^ UInt8.ofNat (2 ^ bit.val)).toNat 0 =
      columnParityTable.getD byte.toNat 0 ^^^ columnParityTable.getD (2 ^ bit.val) 0 := by
  have all : ∀ n < 256, ∀ bit : Fin 8,
      columnParityTable.getD (UInt8.ofNat n ^^^ UInt8.ofNat (2 ^ bit.val)).toNat 0 =
        columnParityTable.getD n 0 ^^^ columnParityTable.getD (2 ^ bit.val) 0 := by
    decide +kernel
  have at_byte := all byte.toNat byte.toNat_lt bit
  rwa [UInt8.ofNat_toNat] at at_byte

/-- A single bit is odd. -/
theorem columnParity_odd (bit : Fin 8) :
    columnParityTable.getD (2 ^ bit.val) 0 &&& 0x01 = 1 := by
  revert bit
  decide

section Loop

variable {width : Nat}

/-- A byte's contribution to the parities. -/
def byteParities (width byte : Nat) (b : BitVec 8) : Parities width where
  colParity := b
  lineParity := if b &&& 0x01 ≠ 0 then BitVec.ofNat width byte else BitVec.ofNat width 0
  lineParityPrime := if b &&& 0x01 ≠ 0 then ~~~BitVec.ofNat width byte else BitVec.ofNat width 0

theorem parityLoop_cons (i : Nat) (byte : UInt8) (data : List UInt8) (sums : Parities width) :
    parityLoop i (byte :: data) sums =
      parityLoop (i + 1) data
        (sums.add (byteParities width i (columnParityTable.getD byte.toNat 0))) := by
  simp only [parityLoop, Parities.add, byteParities]
  split_ifs
  · rfl
  · simp only [BitVec.xor_zero]

theorem parityLoop_add (data : List UInt8) (i : Nat) (sums change : Parities width) :
    parityLoop i data (sums.add change) = (parityLoop i data sums).add change := by
  induction data generalizing i sums with
  | nil => rfl
  | cons byte data ih => rw [parityLoop_cons, parityLoop_cons, Parities.add_right_comm, ih]

/-- One more odd byte turns the contribution of a line round. -/
theorem byteParities_flip (i : Nat) (b change : BitVec 8) (odd : change &&& 0x01 = 1) :
    byteParities width i (b ^^^ change) =
      (byteParities width i b).add
        ⟨change, BitVec.ofNat width i, ~~~BitVec.ofNat width i⟩ := by
  have low : b &&& 0x01 = 0 ∨ b &&& 0x01 = 1 := by
    revert b
    decide
  have flipped : (b ^^^ change) &&& 0x01 = (b &&& 0x01) ^^^ (change &&& 0x01) := by
    ext k
    simp only [BitVec.getElem_and, BitVec.getElem_xor]
    exact Bool.and_xor_distrib_right _ _ _
  simp only [byteParities, Parities.add]
  rw [flipped, odd]
  rcases low with is_even | is_odd
  · rw [is_even, if_pos (by decide), if_pos (by decide), if_neg (by decide), if_neg (by decide),
      BitVec.zero_xor, BitVec.zero_xor]
  · rw [is_odd, if_neg (by decide), if_neg (by decide), if_pos (by decide), if_pos (by decide),
      BitVec.xor_self, BitVec.xor_self]

/-- Flipping a bit of a byte. -/
theorem parityLoop_flip {data : List UInt8} {i byte : Nat} (inside : byte < data.length)
    (bit : Fin 8) (sums : Parities width) :
    parityLoop i (flipBit data byte bit) sums =
      (parityLoop i data sums).add (bitParities width (i + byte) bit) := by
  induction data generalizing i byte sums with
  | nil => exact absurd inside (Nat.not_lt_zero byte)
  | cons first data ih =>
    cases byte with
    | zero =>
      simp only [flipBit, List.modify_zero_cons]
      rw [parityLoop_cons, parityLoop_cons, columnParity_flip,
        byteParities_flip _ _ _ (columnParity_odd bit), ← parityLoop_add]
      exact congrArg (parityLoop (i + 1) data) (Parities.add_assoc _ _ _)
    | succ byte =>
      have shorter : byte < data.length := Nat.lt_of_succ_lt_succ inside
      have rest (sums : Parities width) :
          parityLoop (i + 1) (flipBit data byte bit) sums = _ := ih shorter sums
      simp only [flipBit, List.modify_succ_cons] at rest ⊢
      rw [parityLoop_cons, parityLoop_cons, rest, Nat.add_right_comm, Nat.add_assoc]

end Loop

/-! ## The code as paired parities -/

section Pairs

open PairCode

/-- A column has three bits. -/
instance neZeroThree : NeZero 3 := ⟨by decide⟩

/-- The bits of a position: the low and the high half of the line, and the column. -/
abbrev PositionBit := Fin 4 ⊕ Fin 4 ⊕ Fin 3

/-- The position of a bit of a byte. -/
def position (byte bit : Nat) : PositionBit → Bool
  | .inl k => byte.testBit k
  | .inr (.inl k) => byte.testBit (k + 4)
  | .inr (.inr k) => bit.testBit k

/-- The bits in which two codes differ. -/
def Ecc.delta (a b : Ecc) : Ecc :=
  ⟨a.ecc0 ^^^ b.ecc0, a.ecc1 ^^^ b.ecc1, a.ecc2 ^^^ b.ecc2⟩

/-- The pairs of parities in the bytes of a code. -/
def Ecc.syndrome (delta : Ecc) : Syndrome PositionBit (Fin 2) where
  line
    | .inl k => delta.ecc0.getLsbD (2 * k + 1)
    | .inr (.inl k) => delta.ecc1.getLsbD (2 * k + 1)
    | .inr (.inr k) => delta.ecc2.getLsbD (2 * k + 3)
  prime
    | .inl k => delta.ecc0.getLsbD (2 * k)
    | .inr (.inl k) => delta.ecc1.getLsbD (2 * k)
    | .inr (.inr k) => delta.ecc2.getLsbD (2 * k + 2)
  spare k := delta.ecc2.getLsbD k

theorem Ecc.syndrome_delta (a b : Ecc) : (a.delta b).syndrome = a.syndrome.add b.syndrome := by
  ext k
  · rcases k with k | k | k <;> simp [syndrome, delta, Syndrome.add]
  · rcases k with k | k | k <;> simp [syndrome, delta, Syndrome.add]
  · simp [syndrome, delta, Syndrome.add]

theorem bitIf_eq (x value : BitVec 8) {k : Nat} (k_lt : k < 8) :
    bitIf x (BitVec.twoPow 8 k) value = if x.getLsbD k then value else 0 := by
  have masked : ∀ (x : BitVec 8) (k : Fin 8),
      x &&& BitVec.twoPow 8 k ≠ 0 ↔ x.getLsbD k = true := by decide +kernel
  exact if_congr (masked x ⟨k, k_lt⟩) rfl rfl

theorem bitIf_getLsbD (x value : BitVec 8) {k : Nat} (k_lt : k < 8) (j : Nat) :
    (bitIf x (BitVec.twoPow 8 k) value).getLsbD j = (x.getLsbD k && value.getLsbD j) := by
  rw [bitIf_eq x value k_lt]
  cases x.getLsbD k
  · exact BitVec.getLsbD_zero
  · rfl

/-- Four neighbouring parities take turns with the ones by complement. -/
theorem interleave_getLsbD (line prime : BitVec 8) {low : Nat} (low_le : low ≤ 4) (k : Fin 4) :
    (interleave line prime (BitVec.twoPow 8 (low + 3)) (BitVec.twoPow 8 (low + 2))
        (BitVec.twoPow 8 (low + 1)) (BitVec.twoPow 8 low)).getLsbD (2 * k + 1) =
      line.getLsbD (k + low) ∧
    (interleave line prime (BitVec.twoPow 8 (low + 3)) (BitVec.twoPow 8 (low + 2))
        (BitVec.twoPow 8 (low + 1)) (BitVec.twoPow 8 low)).getLsbD (2 * k) =
      prime.getLsbD (k + low) := by
  have bit3 (x value j) := bitIf_getLsbD x value (k := low + 3) (by omega) j
  have bit2 (x value j) := bitIf_getLsbD x value (k := low + 2) (by omega) j
  have bit1 (x value j) := bitIf_getLsbD x value (k := low + 1) (by omega) j
  have bit0 (x value j) := bitIf_getLsbD x value (k := low) (by omega) j
  simp only [interleave, BitVec.getLsbD_or, bit3, bit2, bit1, bit0]
  fin_cases k <;> simp [Nat.add_comm]

theorem interleave_low (line prime : BitVec 8) (k : Fin 4) :
    (interleave line prime 0x08 0x04 0x02 0x01).getLsbD (2 * k + 1) = line.getLsbD k ∧
      (interleave line prime 0x08 0x04 0x02 0x01).getLsbD (2 * k) = prime.getLsbD k :=
  interleave_getLsbD line prime (Nat.zero_le 4) k

theorem interleave_high (line prime : BitVec 8) (k : Fin 4) :
    (interleave line prime 0x80 0x40 0x20 0x10).getLsbD (2 * k + 1) = line.getLsbD (k + 4) ∧
      (interleave line prime 0x80 0x40 0x20 0x10).getLsbD (2 * k) = prime.getLsbD (k + 4) :=
  interleave_getLsbD line prime (Nat.le_refl 4) k

/-- The column parities of a single bit. -/
theorem columnParity_position (bit : Fin 8) (k : Fin 3) :
    (columnParityTable.getD (2 ^ bit.val) 0).getLsbD (2 * k + 3) = bit.val.testBit k ∧
      (columnParityTable.getD (2 ^ bit.val) 0).getLsbD (2 * k + 2) = !bit.val.testBit k := by
  revert bit k
  decide

/-- A wrong data bit changes the code as its position says. -/
theorem eccCalc_flip {data : List UInt8} {byte : Nat} (inside : byte < data.length) (bit : Fin 8) :
    ((eccCalc data).delta (eccCalc (flipBit data byte bit))).syndrome =
      (Flip.data (position byte bit)).syndrome := by
  rw [eccCalc, eccCalc, parityLoop_flip inside, Nat.zero_add]
  generalize parityLoop 0 data (⟨0, 0, 0⟩ : Parities 8) = sums
  have toggle (a b : Bool) : ((!a) ^^ !(a ^^ b)) = b := by cases a <;> cases b <;> rfl
  ext k
  · rcases k with k | k | k
    · have at_k (line prime) := (interleave_low line prime k).1
      have inside : 2 * k.val + 1 < 8 := by omega
      have small : k.val < 8 := by omega
      simp only [Ecc.syndrome, Ecc.delta, Parities.add, bitParities, Flip.syndrome, position,
        BitVec.getLsbD_xor, BitVec.getLsbD_not, BitVec.getLsbD_ofNat, at_k, inside, small,
        decide_true, Bool.true_and, toggle]
    · have at_k (line prime) := (interleave_high line prime k).1
      have inside : 2 * k.val + 1 < 8 := by omega
      have small : k.val + 4 < 8 := by omega
      simp only [Ecc.syndrome, Ecc.delta, Parities.add, bitParities, Flip.syndrome, position,
        BitVec.getLsbD_xor, BitVec.getLsbD_not, BitVec.getLsbD_ofNat, at_k, inside, small,
        decide_true, Bool.true_and, toggle]
    · have inside : 2 * k.val + 3 < 8 := by omega
      have unused : (0x03 : BitVec 8).getLsbD (2 * k.val + 3) = false := by
        revert k
        decide
      simp only [Ecc.syndrome, Ecc.delta, Parities.add, bitParities, Flip.syndrome, position,
        BitVec.getLsbD_xor, BitVec.getLsbD_not, BitVec.getLsbD_or, inside,
        unused, decide_true, Bool.true_and, Bool.or_false, toggle,
        (columnParity_position bit k).1]
  · rcases k with k | k | k
    · have at_k (line prime) := (interleave_low line prime k).2
      have inside : 2 * k.val < 8 := by omega
      have small : k.val < 8 := by omega
      simp only [Ecc.syndrome, Ecc.delta, Parities.add, bitParities, Flip.syndrome, position,
        BitVec.getLsbD_xor, BitVec.getLsbD_not, BitVec.getLsbD_ofNat, at_k, inside, small,
        decide_true, Bool.true_and, toggle]
    · have at_k (line prime) := (interleave_high line prime k).2
      have inside : 2 * k.val < 8 := by omega
      have small : k.val + 4 < 8 := by omega
      simp only [Ecc.syndrome, Ecc.delta, Parities.add, bitParities, Flip.syndrome, position,
        BitVec.getLsbD_xor, BitVec.getLsbD_not, BitVec.getLsbD_ofNat, at_k, inside, small,
        decide_true, Bool.true_and, toggle]
    · have inside : 2 * k.val + 2 < 8 := by omega
      have unused : (0x03 : BitVec 8).getLsbD (2 * k.val + 2) = false := by
        revert k
        decide
      simp only [Ecc.syndrome, Ecc.delta, Parities.add, bitParities, Flip.syndrome, position,
        BitVec.getLsbD_xor, BitVec.getLsbD_not, BitVec.getLsbD_or, inside,
        unused, decide_true, Bool.true_and, Bool.or_false, toggle,
        (columnParity_position bit k).2]
  · have used : (0x03 : BitVec 8).getLsbD k = true := by
      revert k
      decide
    simp only [Ecc.syndrome, Ecc.delta, Flip.syndrome, BitVec.getLsbD_xor, BitVec.getLsbD_or, used,
      Bool.or_true, Bool.xor_self]

/-- The pair that a bit of a code belongs to. -/
def codeFlip (byte : Fin 3) (bit : Fin 8) : Flip PositionBit (Fin 2) :=
  let half (k : PositionBit) : Flip PositionBit (Fin 2) :=
    if bit.val % 2 = 1 then .line k else .prime k
  match byte with
  | 0 => half (.inl ⟨bit / 2, by omega⟩)
  | 1 => half (.inr (.inl ⟨bit / 2, by omega⟩))
  | 2 =>
    if unused : bit.val < 2 then .spare ⟨bit, unused⟩
    else half (.inr (.inr ⟨bit / 2 - 1, by omega⟩))

/-- A wrong bit of a code changes one bit of the syndrome. -/
theorem eccFlip_syndrome (ecc : Ecc) (byte : Fin 3) (bit : Fin 8) :
    (ecc.delta (ecc.flip byte bit)).syndrome = (codeFlip byte bit).syndrome := by
  have single : ecc.delta (ecc.flip byte bit) = Ecc.flip ⟨0, 0, 0⟩ byte bit := by
    fin_cases byte <;>
      simp [Ecc.delta, Ecc.flip, ← BitVec.xor_assoc]
  have all : ∀ (byte : Fin 3) (bit : Fin 8),
      (Ecc.flip ⟨0, 0, 0⟩ byte bit).syndrome = (codeFlip byte bit).syndrome := by
    intro byte bit
    ext k <;> revert byte bit k <;> decide +kernel
  rw [single, all]

/-- The place of a wrong bit in the code. -/
def BlockBit.toFlip : BlockBit → Flip PositionBit (Fin 2)
  | data byte bit => .data (position byte bit)
  | ecc byte bit => codeFlip byte bit

/-! ## Blocks that were read -/

theorem flipBit_length (data : List UInt8) (byte bit : Nat) :
    (flipBit data byte bit).length = data.length := List.length_modify _ _ _

/-- Flipping a bit twice changes nothing. -/
theorem flipBit_flipBit (data : List UInt8) (byte bit : Nat) :
    flipBit (flipBit data byte bit) byte bit = data := by
  have twice : ((· ^^^ UInt8.ofNat (2 ^ bit)) ∘ (· ^^^ UInt8.ofNat (2 ^ bit)) : UInt8 → UInt8) =
      id := by
    funext x
    simp [UInt8.xor_assoc]
  rw [flipBit, flipBit, List.modify_modify_eq, twice, List.modify_id]

/-- The differences between the code that was read and the one of the data that was read. -/
def readSyndrome (read : List UInt8 × Ecc) : Syndrome PositionBit (Fin 2) :=
  (read.2.delta (eccCalc read.1)).syndrome

theorem readSyndrome_intact (data : List UInt8) :
    readSyndrome (data, eccCalc data) = Syndrome.none := by
  simp only [readSyndrome, Ecc.delta, BitVec.xor_self]
  ext k <;> revert k <;> decide

/-- Each wrong bit adds its syndrome. -/
theorem readSyndrome_flip {read : List UInt8 × Ecc} (length_eq : read.1.length = 256)
    (p : BlockBit) :
    readSyndrome (p.flip read) = (readSyndrome read).add p.toFlip.syndrome := by
  have cancel (a b c : Bool) : (a ^^ c) = ((a ^^ b) ^^ (b ^^ c)) := by
    cases a <;> cases b <;> cases c <;> rfl
  have exchange (a b c : Bool) : (a ^^ b) = ((c ^^ b) ^^ (c ^^ a)) := by
    cases a <;> cases b <;> cases c <;> rfl
  cases p with
  | data byte bit =>
    have inside : byte.val < read.1.length := byte.isLt.trans_eq length_eq.symm
    simp only [readSyndrome, BlockBit.flip, BlockBit.toFlip]
    rw [← eccCalc_flip inside, Ecc.syndrome_delta, Ecc.syndrome_delta, Ecc.syndrome_delta]
    simp only [Syndrome.add, ← cancel]
  | ecc byte bit =>
    simp only [readSyndrome, BlockBit.flip, BlockBit.toFlip]
    rw [← eccFlip_syndrome read.2, Ecc.syndrome_delta, Ecc.syndrome_delta, Ecc.syndrome_delta]
    simp only [Syndrome.add, ← exchange]

/-! ## Corrections -/

/-- The line of a position, as the correction puts it together. -/
def lineOf (position : PositionBit → Bool) : BitVec 8 :=
  (if position (.inr (.inl 3)) then 0x80 else 0) |||
  (if position (.inr (.inl 2)) then 0x40 else 0) |||
  (if position (.inr (.inl 1)) then 0x20 else 0) |||
  (if position (.inr (.inl 0)) then 0x10 else 0) |||
  (if position (.inl 3) then 0x08 else 0) ||| (if position (.inl 2) then 0x04 else 0) |||
  (if position (.inl 1) then 0x02 else 0) ||| (if position (.inl 0) then 0x01 else 0)

/-- The column of a position. -/
def columnOf (position : PositionBit → Bool) : BitVec 8 :=
  (if position (.inr (.inr 2)) then 0x04 else 0) |||
  (if position (.inr (.inr 1)) then 0x02 else 0) |||
  (if position (.inr (.inr 0)) then 0x01 else 0)

theorem lineOf_position (byte : Fin 256) (bit : Fin 8) :
    (lineOf (position byte bit)).toNat = byte := by
  have at_line : ∀ byte : Fin 256, (lineOf (position byte 0)).toNat = byte := by decide +kernel
  exact at_line byte

theorem columnOf_position (byte : Fin 256) (bit : Fin 8) :
    (columnOf (position byte bit)).toNat = bit := by
  have at_column : ∀ bit : Fin 8, (columnOf (position 0 bit)).toNat = bit := by decide
  exact at_column bit

theorem clean_iff (delta : Ecc) :
    delta.ecc0 ||| delta.ecc1 ||| delta.ecc2 = 0 ↔
      (∀ k, delta.syndrome.line k = false) ∧ (∀ k, delta.syndrome.prime k = false) ∧
        ∀ k, delta.syndrome.spare k = false := by
  have byte_zero : ∀ d : BitVec 8, d = 0 ↔
      (∀ k : Fin 4, d.getLsbD (2 * k + 1) = false) ∧ ∀ k : Fin 4, d.getLsbD (2 * k) = false := by
    decide +kernel
  have columns_zero : ∀ d : BitVec 8, d = 0 ↔
      (∀ k : Fin 3, d.getLsbD (2 * k + 3) = false) ∧
        (∀ k : Fin 3, d.getLsbD (2 * k + 2) = false) ∧ ∀ k : Fin 2, d.getLsbD k = false := by
    decide +kernel
  have or_zero (x y : BitVec 8) : x ||| y = 0 ↔ x = 0 ∧ y = 0 := BitVec.or_eq_zero_iff
  rw [or_zero, or_zero, byte_zero, byte_zero, columns_zero]
  simp only [Ecc.syndrome, Sum.forall]
  constructor
  · rintro ⟨⟨⟨line0, prime0⟩, line1, prime1⟩, line2, prime2, spare⟩
    exact ⟨⟨line0, line1, line2⟩, ⟨prime0, prime1, prime2⟩, spare⟩
  · rintro ⟨⟨line0, line1, line2⟩, ⟨prime0, prime1, prime2⟩, spare⟩
    exact ⟨⟨⟨line0, prime0⟩, line1, prime1⟩, line2, prime2, spare⟩

theorem pairs_iff (delta : Ecc) :
    ((delta.ecc0 ^^^ (delta.ecc0 >>> 1)) &&& 0x55 = 0x55 ∧
      (delta.ecc1 ^^^ (delta.ecc1 >>> 1)) &&& 0x55 = 0x55 ∧
        (delta.ecc2 ^^^ (delta.ecc2 >>> 1)) &&& 0x54 = 0x54) ↔
      ∀ k, delta.syndrome.line k = !delta.syndrome.prime k := by
  have byte_pairs : ∀ d : BitVec 8, (d ^^^ (d >>> 1)) &&& 0x55 = 0x55 ↔
      ∀ k : Fin 4, d.getLsbD (2 * k + 1) = !d.getLsbD (2 * k) := by decide +kernel
  have column_pairs : ∀ d : BitVec 8, (d ^^^ (d >>> 1)) &&& 0x54 = 0x54 ↔
      ∀ k : Fin 3, d.getLsbD (2 * k + 3) = !d.getLsbD (2 * k + 2) := by decide +kernel
  rw [byte_pairs, byte_pairs, column_pairs]
  simp only [Ecc.syndrome, Sum.forall]

theorem hweight_eq (delta : Ecc) :
    hweight delta.ecc0 + hweight delta.ecc1 + hweight delta.ecc2 = delta.syndrome.weight := by
  have byte_weight : ∀ d : BitVec 8, hweight d =
      ∑ k : Fin 4, (d.getLsbD (2 * k + 1)).toNat + ∑ k : Fin 4, (d.getLsbD (2 * k)).toNat := by
    decide +kernel
  have column_weight : ∀ d : BitVec 8, hweight d =
      ∑ k : Fin 3, (d.getLsbD (2 * k + 3)).toNat + ∑ k : Fin 3, (d.getLsbD (2 * k + 2)).toNat +
        ∑ k : Fin 2, (d.getLsbD k).toNat := by
    decide +kernel
  rw [byte_weight, byte_weight, column_weight]
  simp only [Ecc.syndrome, Syndrome.weight, Fintype.sum_sum_type]
  omega

/-- The bytes of a code that change with the line and the column of a wrong bit. -/
theorem lineOf_syndrome (delta : Ecc) :
    bitIf delta.ecc1 0x80 0x80 ||| bitIf delta.ecc1 0x20 0x40 ||| bitIf delta.ecc1 0x08 0x20 |||
      bitIf delta.ecc1 0x02 0x10 ||| bitIf delta.ecc0 0x80 0x08 ||| bitIf delta.ecc0 0x20 0x04 |||
      bitIf delta.ecc0 0x08 0x02 ||| bitIf delta.ecc0 0x02 0x01 = lineOf delta.syndrome.line ∧
    bitIf delta.ecc2 0x80 0x04 ||| bitIf delta.ecc2 0x20 0x02 ||| bitIf delta.ecc2 0x08 0x01 =
      columnOf delta.syndrome.line := by
  have bit7 (x value) : bitIf x 0x80 value = _ := bitIf_eq x value (k := 7) (by decide)
  have bit5 (x value) : bitIf x 0x20 value = _ := bitIf_eq x value (k := 5) (by decide)
  have bit3 (x value) : bitIf x 0x08 value = _ := bitIf_eq x value (k := 3) (by decide)
  have bit1 (x value) : bitIf x 0x02 value = _ := bitIf_eq x value (k := 1) (by decide)
  simp only [bit7, bit5, bit3, bit1]
  exact ⟨rfl, rfl⟩

/-- The outcome of a correction, by the verdict on its syndrome. -/
def outcomeOf (data : List UInt8) : Verdict PositionBit → Int × List UInt8
  | .clean => (0, data)
  | .data position => (1, flipBit data (lineOf position).toNat (columnOf position).toNat)
  | .code => (1, data)
  | .lost => (-1, data)

theorem correctRead_eq (read : List UInt8 × Ecc) :
    correctRead read = outcomeOf read.1 (readSyndrome read).verdict := by
  have unfolded : correctRead read =
      let delta := read.2.delta (eccCalc read.1)
      let corrected :=
        if delta.ecc0 ||| delta.ecc1 ||| delta.ecc2 = 0 then (0, read.1, read.2)
        else if (delta.ecc0 ^^^ (delta.ecc0 >>> 1)) &&& 0x55 = 0x55 ∧
            (delta.ecc1 ^^^ (delta.ecc1 >>> 1)) &&& 0x55 = 0x55 ∧
              (delta.ecc2 ^^^ (delta.ecc2 >>> 1)) &&& 0x54 = 0x54 then
          (1, flipBit read.1 (lineOf delta.syndrome.line).toNat
            (columnOf delta.syndrome.line).toNat, read.2)
        else if hweight delta.ecc0 + hweight delta.ecc1 + hweight delta.ecc2 = 1 then
          (1, read.1, eccCalc read.1)
        else ((-1 : Int), read.1, read.2)
      (corrected.1, corrected.2.1) := by
    obtain ⟨line_eq, column_eq⟩ := lineOf_syndrome (read.2.delta (eccCalc read.1))
    dsimp only
    rw [← line_eq, ← column_eq]
    rfl
  rw [unfolded, readSyndrome]
  generalize read.2.delta (eccCalc read.1) = delta
  dsimp only
  rw [Syndrome.verdict]
  by_cases clean : delta.ecc0 ||| delta.ecc1 ||| delta.ecc2 = 0
  · rw [if_pos clean, if_pos ((clean_iff delta).mp clean)]
    rfl
  rw [if_neg clean, if_neg (mt (clean_iff delta).mpr clean)]
  by_cases pairs : ∀ k, delta.syndrome.line k = !delta.syndrome.prime k
  · rw [if_pos ((pairs_iff delta).mpr pairs), if_pos pairs]
    rfl
  rw [if_neg (mt (pairs_iff delta).mp pairs), if_neg pairs, hweight_eq]
  by_cases single : delta.syndrome.weight = 1
  · rw [if_pos single, if_pos single]
    rfl
  · rw [if_neg single, if_neg single]
    rfl

/-! ## What the code protects from -/

theorem position_injective {byte byte' : Fin 256} {bit bit' : Fin 8}
    (same : position byte bit = position byte' bit') : byte = byte' ∧ bit = bit' := by
  constructor
  · rw [Fin.ext_iff, ← lineOf_position byte bit, same, lineOf_position]
  · rw [Fin.ext_iff, ← columnOf_position byte bit, same, columnOf_position]

/-- Where the code keeps a parity. -/
def codeIndex : Flip PositionBit (Fin 2) → Nat
  | .data _ => 0
  | .line (.inl k) => 2 * k + 1
  | .prime (.inl k) => 2 * k
  | .line (.inr (.inl k)) => 8 + 2 * k + 1
  | .prime (.inr (.inl k)) => 8 + 2 * k
  | .line (.inr (.inr k)) => 16 + 2 * k + 3
  | .prime (.inr (.inr k)) => 16 + 2 * k + 2
  | .spare k => 16 + k

theorem codeIndex_codeFlip (byte : Fin 3) (bit : Fin 8) :
    codeIndex (codeFlip byte bit) = 8 * byte + bit := by
  revert byte bit
  decide

theorem codeFlip_ne_data (byte : Fin 3) (bit : Fin 8) (found : PositionBit → Bool) :
    codeFlip byte bit ≠ .data found := by
  fin_cases byte <;> simp only [codeFlip] <;> split_ifs <;> nofun

theorem BlockBit.toFlip_injective : Function.Injective BlockBit.toFlip := by
  intro p q same
  cases p with
  | data byte bit =>
    cases q with
    | data byte' bit' =>
      obtain ⟨rfl, rfl⟩ := position_injective (Flip.data.inj same)
      rfl
    | ecc byte' bit' => exact absurd same.symm (codeFlip_ne_data _ _ _)
  | ecc byte bit =>
    cases q with
    | data byte' bit' => exact absurd same (codeFlip_ne_data _ _ _)
    | ecc byte' bit' =>
      have index_eq := congrArg codeIndex same
      simp only [toFlip, codeIndex_codeFlip] at index_eq
      obtain ⟨rfl, rfl⟩ : byte = byte' ∧ bit = bit' := by omega
      rfl

theorem BlockBit.flip_length (p : BlockBit) (read : List UInt8 × Ecc) :
    (p.flip read).1.length = read.1.length := by
  cases p with
  | data byte bit => exact flipBit_length _ _ _
  | ecc byte bit => rfl

/-- The correction of a data bit undoes its flip. -/
theorem outcomeOf_data (data : List UInt8) (byte : Fin 256) (bit : Fin 8) :
    outcomeOf (flipBit data byte bit) (.data (position byte bit)) = (1, data) := by
  rw [outcomeOf, lineOf_position, columnOf_position, flipBit_flipBit]

theorem BlockBit.flip_of_spare {p : BlockBit} {k : Fin 2} (spare : p.toFlip = .spare k)
    (read : List UInt8 × Ecc) : (p.flip read).1 = read.1 := by
  cases p with
  | data byte bit => exact absurd spare nofun
  | ecc byte bit => rfl

theorem BlockBit.of_toFlip_data {p : BlockBit} {found : PositionBit → Bool}
    (is_data : p.toFlip = .data found) :
    ∃ byte bit, p = .data byte bit ∧ found = position byte bit := by
  cases p with
  | data byte bit => exact ⟨byte, bit, rfl, (Flip.data.inj is_data).symm⟩
  | ecc byte bit => exact absurd is_data (codeFlip_ne_data byte bit found)

end Pairs

/-- The code of a block of 256 bytes corrects one wrong bit in the block or the code and notices
two. -/
theorem corrects_one_detects_two (block : Chars 256) : CorrectsOneDetectsTwo block.1 := by
  obtain ⟨data, length_eq⟩ := block
  have none_add (s : PairCode.Syndrome PositionBit (Fin 2)) : PairCode.Syndrome.none.add s = s := by
    simp [PairCode.Syndrome.none, PairCode.Syndrome.add]
  have one_syndrome (p : BlockBit) :
      readSyndrome (p.flip (data, eccCalc data)) = p.toFlip.syndrome := by
    rw [readSyndrome_flip length_eq, readSyndrome_intact, none_add]
  constructor
  case intact =>
    rw [correctRead_eq, readSyndrome_intact, PairCode.verdict_none]
    rfl
  case one =>
    intro p
    rw [correctRead_eq, one_syndrome]
    cases p with
    | data byte bit =>
      rw [BlockBit.toFlip, PairCode.verdict_data]
      exact outcomeOf_data data byte bit
    | ecc byte bit =>
      rw [BlockBit.toFlip, PairCode.verdict_check (by decide) (codeFlip_ne_data byte bit)]
      rfl
  case two =>
    intro p q apart
    dsimp only
    have first_length := (p.flip_length (data, eccCalc data)).trans length_eq
    rw [correctRead_eq, readSyndrome_flip first_length, one_syndrome]
    rcases PairCode.verdict_two (by decide) (by decide) (BlockBit.toFlip_injective.ne apart) with
      lost | ⟨found, k, verdict_eq, ⟨p_data, q_spare⟩ | ⟨p_spare, q_data⟩⟩
    · rw [lost]
      exact .inl rfl
    · obtain ⟨byte, bit, rfl, rfl⟩ := BlockBit.of_toFlip_data p_data
      rw [verdict_eq, BlockBit.flip_of_spare q_spare]
      exact .inr (outcomeOf_data data byte bit)
    · obtain ⟨byte, bit, rfl, rfl⟩ := BlockBit.of_toFlip_data q_data
      rw [verdict_eq, BlockBit.flip, BlockBit.flip_of_spare p_spare]
      exact .inr (outcomeOf_data data byte bit)

end Yaffs
