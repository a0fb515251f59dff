import Mathlib.Data.Nat.Bitwise
import Mathlib.Tactic.Common

/-!
# Bits of packed words

A list of 32-bit words is read as one row of bits.  A field of the row may lie across two words.
-/

namespace WordBits

/-- Bit `n` of a row of words, zero beyond its end. -/
def bit (words : List Nat) (n : Nat) : Bool := (words.getD (n / 32) 0).testBit (n % 32)

theorem bit_set {words : List Nat} {q : Nat} (inside : q < words.length) (word n : Nat) :
    bit (words.set q word) n = if n / 32 = q then word.testBit (n % 32) else bit words n := by
  simp only [bit, List.getD_eq_getElem?_getD, List.getElem?_set]
  split
  case isTrue same =>
    rw [if_pos same.symm, Option.getD_some]
  case isFalse other =>
    have other' : n / 32 ≠ q := fun eq => other eq.symm
    simp [other']

/-- A row of zeros has no bits. -/
theorem bit_replicate (count n : Nat) : bit (List.replicate count 0) n = false := by
  simp only [bit, List.getD_eq_getElem?_getD, List.getElem?_replicate]
  split <;> exact Nat.zero_testBit _

theorem testBit_low {word i : Nat} (small : word < 2 ^ 32) (high : 32 ≤ i) :
    word.testBit i = false :=
  Nat.testBit_lt_two_pow (small.trans_le (Nat.pow_le_pow_right (by omega) high))

/-- Replacing the bits of a mask. -/
theorem testBit_merge (word mask value : Nat) {i : Nat} (low : i < 32) :
    ((word &&& (0xffffffff ^^^ mask)) ||| (mask &&& value)).testBit i =
      if mask.testBit i then value.testBit i else word.testBit i := by
  have ones : Nat.testBit 0xffffffff i = true := by
    rw [show (0xffffffff : Nat) = 2 ^ 32 - 1 from rfl, Nat.testBit_two_pow_sub_one]
    exact decide_eq_true low
  simp only [Nat.testBit_or, Nat.testBit_and, Nat.testBit_xor, ones, Bool.true_xor]
  cases mask.testBit i <;> simp

/-- Storing the low bits of a value in a word, from a position upwards. -/
theorem testBit_storeLow (word value width low : Nat) {i : Nat} (inside : i < 32) :
    ((word &&& (0xffffffff ^^^ ((2 ^ width - 1) <<< low % 2 ^ 32))) |||
        (((2 ^ width - 1) <<< low % 2 ^ 32) &&& (value <<< low % 2 ^ 32))).testBit i =
      if low ≤ i ∧ i - low < width then value.testBit (i - low) else word.testBit i := by
  rw [testBit_merge _ _ _ inside, Nat.testBit_mod_two_pow, Nat.testBit_mod_two_pow,
    Nat.testBit_shiftLeft, Nat.testBit_shiftLeft, Nat.testBit_two_pow_sub_one]
  simp only [inside, decide_true, Bool.true_and, Bool.and_eq_true, decide_eq_true_eq]
  split
  case isTrue field => simp [field.1]
  case isFalse => rfl

/-- Storing the remaining bits of a value at the start of a word. -/
theorem testBit_storeHigh (word value width shift : Nat) {i : Nat} (inside : i < 32) :
    ((word &&& (0xffffffff ^^^ ((2 ^ width - 1) >>> shift))) |||
        (((2 ^ width - 1) >>> shift) &&& (value >>> shift))).testBit i =
      if shift + i < width then value.testBit (shift + i) else word.testBit i := by
  rw [testBit_merge _ _ _ inside, Nat.testBit_shiftRight, Nat.testBit_shiftRight,
    Nat.testBit_two_pow_sub_one]
  simp only [decide_eq_true_eq]

/-- What is stored in a word fits into it. -/
theorem merge_lt {word mask value : Nat} (small : mask < 2 ^ 32) :
    (word &&& (0xffffffff ^^^ mask)) ||| (mask &&& value) < 2 ^ 32 := by
  have ones : 0xffffffff ^^^ mask < 2 ^ 32 := Nat.xor_lt_two_pow (by decide) small
  have kept : word &&& (0xffffffff ^^^ mask) < 2 ^ 32 := Nat.and_le_right.trans_lt ones
  have added : mask &&& value < 2 ^ 32 := Nat.and_le_left.trans_lt small
  exact Nat.or_lt_two_pow kept added

end WordBits
