import Mathlib.Tactic.Ring

/-!
# Words in memory

A word is stored as a fixed number of bytes, least significant byte first, or last in the swapped
order.  Reading a stored word returns its value.
-/

namespace Words

/-- The low `size` bytes of a value, least significant byte first. -/
def lowBytes : Nat → Nat → List UInt8
  | 0, _ => []
  | size + 1, value => UInt8.ofNat value :: lowBytes size (value / 256)

/-- Value of bytes stored least significant byte first. -/
def lowValue : List UInt8 → Nat
  | [] => 0
  | byte :: bytes => byte.toNat + 256 * lowValue bytes

/-- The bytes of a word in native or swapped order. -/
def bytes (swap : Bool) (size value : Nat) : List UInt8 :=
  if swap then (lowBytes size value).reverse else lowBytes size value

/-- Value of stored bytes in native or swapped order. -/
def value (swap : Bool) (stored : List UInt8) : Nat :=
  lowValue (if swap then stored.reverse else stored)

@[simp]
theorem length_lowBytes (size value : Nat) : (lowBytes size value).length = size := by
  induction size generalizing value with
  | zero => rfl
  | succ size ih => simp [lowBytes, ih]

@[simp]
theorem length_bytes (swap : Bool) (size value : Nat) : (bytes swap size value).length = size := by
  cases swap <;> simp [bytes]

theorem lowValue_lowBytes (size value : Nat) :
    lowValue (lowBytes size value) = value % 256 ^ size := by
  induction size generalizing value with
  | zero => simp [lowBytes, lowValue, Nat.mod_one]
  | succ size ih =>
    have head : (UInt8.ofNat value).toNat = value % 256 := by simp
    rw [lowBytes, lowValue, ih, head, Nat.pow_succ, Nat.mul_comm (256 ^ size) 256, Nat.mod_mul]

@[simp]
theorem value_bytes (swap : Bool) (size word : Nat) :
    value swap (bytes swap size word) = word % 256 ^ size := by
  cases swap <;> simp [value, bytes, lowValue_lowBytes]

theorem lowValue_lt (stored : List UInt8) : lowValue stored < 256 ^ stored.length := by
  induction stored with
  | nil => simp [lowValue]
  | cons byte stored ih =>
    have byte_lt : byte.toNat < 256 := byte.toNat_lt
    simp only [lowValue, List.length_cons, Nat.pow_succ]
    omega

end Words
