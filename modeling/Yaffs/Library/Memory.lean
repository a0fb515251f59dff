import Mathlib.Data.List.Basic
import Mathlib.Tactic.Common

/-!
# Bytes in memory

A memory gives a byte for every address.  Strings of bytes lie at an address, are stored, moved and
compared there.  A character string ends with a zero byte.
-/

namespace Memory

/-- The bytes lie at an address. -/
def Holds (mem : Nat → UInt8) : Nat → List UInt8 → Prop
  | _, [] => True
  | pos, byte :: bytes => mem pos = byte ∧ Holds mem (pos + 1) bytes

/-- Store bytes at an address. -/
def put (mem : Nat → UInt8) (pos : Nat) (bytes : List UInt8) : Nat → UInt8 := fun i =>
  if pos ≤ i ∧ i < pos + bytes.length then bytes.getD (i - pos) 0 else mem i

/-- Move bytes down by a distance, the lowest one first. -/
def moveDown (mem : Nat → UInt8) (pos distance count : Nat) : Nat → UInt8 := fun i =>
  if pos ≤ i ∧ i < pos + count then mem (i + distance) else mem i

/-- The bytes at an address. -/
def load (mem : Nat → UInt8) (pos : Nat) : Nat → List UInt8
  | 0 => []
  | count + 1 => mem pos :: load mem (pos + 1) count

/-- Length of the character string at an address, at most a limit. -/
def strnlen (mem : Nat → UInt8) (pos : Nat) : Nat → Nat
  | 0 => 0
  | limit + 1 => if mem pos = 0 then 0 else strnlen mem (pos + 1) limit + 1

/-- Is the character string at an address equal to a given one, as far as a limit? -/
def strncmp (mem : Nat → UInt8) (pos : Nat) (string : List UInt8) : Nat → Bool
  | 0 => true
  | limit + 1 =>
    match string with
    | [] => decide (mem pos = 0)
    | char :: string =>
      decide (mem pos = char) && (decide (char = 0) || strncmp mem (pos + 1) string limit)

/-- Number of bytes in memory that such a comparison looks at. -/
def strncmpReads (mem : Nat → UInt8) (pos : Nat) (string : List UInt8) : Nat → Nat
  | 0 => 0
  | limit + 1 =>
    match string with
    | [] => 1
    | char :: string =>
      if mem pos = char ∧ char ≠ 0 then strncmpReads mem (pos + 1) string limit + 1 else 1

/-- The bytes that `strncpy` stores: the string, cut off or filled up with zeros. -/
def strncpy (string : List UInt8) (count : Nat) : List UInt8 :=
  string.take count ++ List.replicate (count - string.length) 0

variable {mem other : Nat → UInt8} {pos : Nat} {bytes more : List UInt8}

/-! ## Bytes at an address -/

@[simp]
theorem holds_nil (mem : Nat → UInt8) (pos : Nat) : Holds mem pos [] := trivial

@[simp]
theorem holds_cons (byte : UInt8) :
    Holds mem pos (byte :: bytes) ↔ mem pos = byte ∧ Holds mem (pos + 1) bytes := Iff.rfl

theorem holds_append :
    Holds mem pos (bytes ++ more) ↔ Holds mem pos bytes ∧ Holds mem (pos + bytes.length) more := by
  induction bytes generalizing pos with
  | nil => simp
  | cons byte bytes ih =>
    have next : pos + 1 + bytes.length = pos + (byte :: bytes).length := by
      rw [List.length_cons]
      omega
    rw [List.cons_append, holds_cons, holds_cons, ih, next, and_assoc]

theorem holds_iff :
    Holds mem pos bytes ↔ ∀ i < bytes.length, mem (pos + i) = bytes.getD i 0 := by
  induction bytes generalizing pos with
  | nil => simp
  | cons byte bytes ih =>
    rw [holds_cons, ih]
    constructor
    · rintro ⟨head, tail⟩ i i_lt
      cases i with
      | zero => simpa using head
      | succ i =>
        have next := tail i (by simpa using i_lt)
        rw [show pos + (i + 1) = pos + 1 + i by omega, next]
        simp
    · intro all
      refine ⟨by simpa using all 0 (by simp), fun i i_lt => ?_⟩
      have next := all (i + 1) (by simpa using i_lt)
      rw [show pos + 1 + i = pos + (i + 1) by omega, next]
      simp

/-- Memories that agree from an address on as far as the bytes reach. -/
theorem Holds.of_agree (distance : Nat) (holds : Holds mem (pos + distance) bytes)
    (agree : ∀ i, pos ≤ i → i < pos + bytes.length → other i = mem (i + distance)) :
    Holds other pos bytes := by
  rw [holds_iff] at holds ⊢
  intro i i_lt
  rw [agree (pos + i) (by omega) (by omega), ← holds i i_lt]
  congr 1
  omega

theorem Holds.load (holds : Holds mem pos bytes) : load mem pos bytes.length = bytes := by
  induction bytes generalizing pos with
  | nil => rfl
  | cons byte bytes ih => rw [List.length_cons, Memory.load, holds.1, ih holds.2]

@[simp]
theorem length_load (mem : Nat → UInt8) (pos count : Nat) :
    (load mem pos count).length = count := by
  induction count generalizing pos with
  | zero => rfl
  | succ count ih => rw [load, List.length_cons, ih]

theorem holds_replicate {count : Nat} {byte : UInt8} :
    Holds mem pos (List.replicate count byte) ↔ ∀ i < count, mem (pos + i) = byte := by
  rw [holds_iff, List.length_replicate]
  refine forall₂_congr fun i i_lt => ?_
  rw [List.getD_eq_getElem?_getD, List.getElem?_replicate, if_pos i_lt]
  rfl

/-! ## Storing and moving -/

theorem put_of_lt {i : Nat} (below : i < pos) : put mem pos bytes i = mem i :=
  if_neg fun inside => by omega

theorem put_of_ge {i : Nat} (above : pos + bytes.length ≤ i) : put mem pos bytes i = mem i :=
  if_neg fun inside => by omega

theorem holds_put (mem : Nat → UInt8) (pos : Nat) (bytes : List UInt8) :
    Holds (put mem pos bytes) pos bytes := by
  rw [holds_iff]
  intro i i_lt
  rw [put, if_pos (by omega), Nat.add_sub_cancel_left]

/-- Bytes that lie elsewhere stay. -/
theorem Holds.put_of_disjoint {at' : Nat} (holds : Holds mem pos bytes)
    (disjoint : pos + bytes.length ≤ at' ∨ at' + more.length ≤ pos) :
    Holds (put mem at' more) pos bytes := by
  refine Holds.of_agree 0 holds fun i lower upper => ?_
  rcases disjoint with before | after
  · exact put_of_lt (by omega)
  · exact put_of_ge (by omega)

theorem moveDown_of_lt {i distance count : Nat} (below : i < pos) :
    moveDown mem pos distance count i = mem i :=
  if_neg fun inside => by omega

theorem moveDown_of_ge {i distance count : Nat} (above : pos + count ≤ i) :
    moveDown mem pos distance count i = mem i :=
  if_neg fun inside => by omega

theorem moveDown_of_mem {i distance count : Nat} (lower : pos ≤ i) (upper : i < pos + count) :
    moveDown mem pos distance count i = mem (i + distance) :=
  if_pos ⟨lower, upper⟩

/-! ## Character strings -/

@[simp]
theorem length_strncpy (string : List UInt8) (count : Nat) :
    (strncpy string count).length = count := by
  simp only [strncpy, List.length_append, List.length_take, List.length_replicate]
  omega

theorem strncpy_of_le {string : List UInt8} {count : Nat} (le : string.length ≤ count) :
    strncpy string count = string ++ List.replicate (count - string.length) 0 := by
  rw [strncpy, List.take_of_length_le le]

/-- The length of a string that ends within the limit. -/
theorem strnlen_of_holds {string : List UInt8} {limit : Nat} (holds : Holds mem pos (string ++ [0]))
    (no_zero : 0 ∉ string) (short : string.length < limit) :
    strnlen mem pos limit = string.length := by
  induction string generalizing pos limit with
  | nil =>
    obtain ⟨limit, rfl⟩ := Nat.exists_eq_add_of_lt short
    have zero : mem pos = 0 := holds.1
    simp [strnlen, zero]
  | cons char string ih =>
    obtain ⟨head, tail⟩ := holds
    have nonzero : char ≠ 0 := fun zero => no_zero (zero ▸ List.mem_cons_self)
    cases limit with
    | zero => exact absurd short (Nat.not_lt_zero _)
    | succ limit =>
      rw [strnlen, if_neg (head ▸ nonzero),
        ih tail (fun zero => no_zero (List.mem_cons_of_mem _ zero)) (by simpa using short),
        List.length_cons]

/-- A string in memory is compared with another one. -/
theorem strncmp_of_holds {stored string : List UInt8} {limit : Nat}
    (holds : Holds mem pos (stored ++ [0])) (stored_no_zero : 0 ∉ stored) (no_zero : 0 ∉ string)
    (short : stored.length < limit) :
    strncmp mem pos string limit = decide (stored = string) := by
  induction stored generalizing pos limit string with
  | nil =>
    have zero : mem pos = 0 := holds.1
    cases limit with
    | zero => exact absurd short (Nat.not_lt_zero _)
    | succ limit =>
      cases string with
      | nil => simp [strncmp, zero]
      | cons char string =>
        have nonzero : char ≠ 0 := fun zero => no_zero (zero ▸ List.mem_cons_self)
        simp [strncmp, zero, nonzero.symm]
  | cons char stored ih =>
    obtain ⟨head, tail⟩ := holds
    have nonzero : char ≠ 0 := fun zero => stored_no_zero (zero ▸ List.mem_cons_self)
    cases limit with
    | zero => exact absurd short (Nat.not_lt_zero _)
    | succ limit =>
      cases string with
      | nil => simp [strncmp, head, nonzero]
      | cons first string =>
        by_cases same : char = first
        · subst same
          have rest : strncmp mem (pos + 1) string limit = decide (stored = string) :=
            ih tail (fun zero => stored_no_zero (List.mem_cons_of_mem _ zero))
              (fun zero => no_zero (List.mem_cons_of_mem _ zero)) (by simpa using short)
          simp [strncmp, head, nonzero, rest]
        · simp [strncmp, head, same]

theorem strnlen_le (mem : Nat → UInt8) (pos limit : Nat) : strnlen mem pos limit ≤ limit := by
  induction limit generalizing pos with
  | zero => exact Nat.le_refl 0
  | succ limit ih =>
    rw [strnlen]
    split
    · exact Nat.zero_le _
    · exact Nat.succ_le_succ (ih (pos + 1))

/-- A comparison stays below a bound when it may go on to its limit there, or when the strings
differ or end before the bound. -/
theorem strncmpReads_le_iff (string : List UInt8) (limit bound : Nat) :
    pos + strncmpReads mem pos string limit ≤ bound ↔
      pos + limit ≤ bound ∨
        ∃ j, pos + j < bound ∧ (mem (pos + j) ≠ string.getD j 0 ∨ string.getD j 0 = 0) := by
  induction limit generalizing pos string with
  | zero =>
    refine ⟨.inl, ?_⟩
    rintro (le | ⟨j, lt, -⟩)
    · exact le
    · exact Nat.le_of_lt (Nat.lt_of_le_of_lt (Nat.le_add_right pos j) lt)
  | succ limit ih =>
    have stops : (mem pos ≠ string.getD 0 0 ∨ string.getD 0 0 = 0) →
        (pos + 1 ≤ bound ↔ pos + (limit + 1) ≤ bound ∨
          ∃ j, pos + j < bound ∧ (mem (pos + j) ≠ string.getD j 0 ∨ string.getD j 0 = 0)) := by
      intro here
      refine ⟨fun lt => .inr ⟨0, lt, here⟩, ?_⟩
      rintro (le | ⟨j, lt, -⟩)
      · omega
      · omega
    cases string with
    | nil => exact stops (.inr rfl)
    | cons char string =>
      rw [strncmpReads]
      split
      case isFalse differs =>
        refine stops ?_
        by_cases same : mem pos = char
        · exact .inr (by_contra fun nonzero => differs ⟨same, nonzero⟩)
        · exact .inl same
      case isTrue same =>
        have rest := @ih (pos + 1) string
        rw [Nat.add_assoc pos 1] at rest
        rw [Nat.add_comm _ 1, Nat.add_comm limit 1, rest]
        refine or_congr (by rw [Nat.add_assoc]) ⟨?_, ?_⟩
        · rintro ⟨j, lt, ends⟩
          rw [Nat.add_assoc pos 1, Nat.add_comm 1 j] at lt ends
          exact ⟨j + 1, lt, ends⟩
        · rintro ⟨j, lt, ends⟩
          cases j with
          | zero => exact absurd ends (not_or.2 ⟨not_not.2 same.1, same.2⟩)
          | succ j =>
            rw [Nat.add_comm j 1, ← Nat.add_assoc] at lt ends
            rw [Nat.add_comm 1 j] at ends
            exact ⟨j, lt, ends⟩

end Memory
