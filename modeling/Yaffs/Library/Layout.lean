import Yaffs.Library.Words
import Mathlib.Logic.Equiv.Basic
import Mathlib.Tactic.Ring

/-!
# Records in memory

A record lies in memory field after field.  Its words are stored least significant byte first on
some hosts, and last on others.  A record that one host has stored is another record to a host of
the other kind, with the bytes of each word in reverse; a conversion that a host applies before it
stores a record, or after it has loaded one, is to make up for that.
-/

namespace Words

theorem lowBytes_lowValue (stored : List UInt8) :
    lowBytes stored.length (lowValue stored) = stored := by
  induction stored with
  | nil => rfl
  | cons byte stored ih =>
    have head : UInt8.ofNat (byte.toNat + 256 * lowValue stored) = byte := by
      apply UInt8.toNat_inj.mp
      have lt := byte.toNat_lt
      simp only [UInt8.toNat_ofNat']
      omega
    have tail : (byte.toNat + 256 * lowValue stored) / 256 = lowValue stored := by
      have lt := byte.toNat_lt
      omega
    rw [lowValue, List.length_cons, lowBytes, head, tail, ih]

theorem lowBytes_add (first second value : Nat) :
    lowBytes (first + second) value =
      lowBytes first value ++ lowBytes second (value / 256 ^ first) := by
  induction first generalizing value with
  | zero => simp [lowBytes]
  | succ first ih =>
    rw [Nat.succ_add, lowBytes, lowBytes, ih, Nat.div_div_eq_div_mul, Nat.pow_succ, Nat.mul_comm,
      List.cons_append]

theorem lowBytes_mod (size value : Nat) :
    lowBytes size (value % 256 ^ size) = lowBytes size value := by
  have same := lowBytes_lowValue (lowBytes size value)
  rwa [length_lowBytes, lowValue_lowBytes] at same

theorem lowValue_append (first second : List UInt8) :
    lowValue (first ++ second) = lowValue first + 256 ^ first.length * lowValue second := by
  induction first with
  | nil => simp [lowValue]
  | cons byte first ih =>
    rw [List.cons_append, lowValue, lowValue, ih, List.length_cons, Nat.pow_succ]
    ring

end Words

/-- How records of a type lie in memory. -/
structure RecordLayout (α : Type*) where
  /-- Number of bytes. -/
  size : Nat
  /-- The bytes of a record, on a host with the most significant byte of a word last or first. -/
  store : Bool → α → List UInt8
  /-- The record that begins the memory. -/
  load : Bool → List UInt8 → α
  /-- The record with the bytes of each word in reverse. -/
  swapped : α → α
  length_store : ∀ order record, (store order record).length = size
  load_store : ∀ order record rest, load order (store order record ++ rest) = record
  store_swapped : ∀ order record, store order (swapped record) = store (!order) record

namespace RecordLayout

variable {α β : Type*}

section Laws

variable (A : RecordLayout α)

/-- A record stored by a host of the other kind. -/
theorem load_store_other (order : Bool) (record : α) (rest : List UInt8) :
    A.load (!order) (A.store order record ++ rest) = A.swapped record := by
  have same : A.store order record = A.store (!order) (A.swapped record) := by
    rw [A.store_swapped, Bool.not_not]
  rw [same, A.load_store]

theorem store_injective (order : Bool) {first second : α}
    (same : A.store order first = A.store order second) : first = second := by
  rw [← A.load_store order first [], same, A.load_store]

@[simp]
theorem swapped_swapped (record : α) : A.swapped (A.swapped record) = record := by
  refine A.store_injective false ?_
  rw [A.store_swapped, A.store_swapped, Bool.not_not]

end Laws

/-! ## Fields -/

/-- A word of some bytes. -/
def word (count : Nat) : RecordLayout (BitVec (8 * count)) where
  size := count
  store order value := Words.bytes order count value.toNat
  load order memory := BitVec.ofNat _ (Words.value order (memory.take count))
  swapped value := BitVec.ofNat _ (Words.value true (Words.bytes false count value.toNat))
  length_store order value := Words.length_bytes order count value.toNat
  load_store order value rest := by
    have width : 256 ^ count = 2 ^ (8 * count) := by rw [Nat.pow_mul]
    have take : (Words.bytes order count value.toNat ++ rest).take count =
        Words.bytes order count value.toNat :=
      List.take_left' (Words.length_bytes order count value.toNat)
    rw [take, Words.value_bytes, width, Nat.mod_eq_of_lt value.isLt, BitVec.ofNat_toNat,
      BitVec.setWidth_eq]
  store_swapped order value := by
    have width : 256 ^ count = 2 ^ (8 * count) := by rw [Nat.pow_mul]
    have length : (Words.lowBytes count value.toNat).reverse.length = count := by
      rw [List.length_reverse, Words.length_lowBytes]
    have lt := Words.lowValue_lt (Words.lowBytes count value.toNat).reverse
    rw [length, width] at lt
    have reversed := Words.lowBytes_lowValue (Words.lowBytes count value.toNat).reverse
    rw [length] at reversed
    simp only [Words.value, Words.bytes, Bool.false_eq_true, if_true, if_false, BitVec.toNat_ofNat,
      Nat.mod_eq_of_lt lt, reversed]
    cases order
    · rfl
    · exact List.reverse_reverse _

theorem store_load_word {count : Nat} (order : Bool) {memory : List UInt8}
    (length : memory.length = count) :
    (word count).store order ((word count).load order memory) = memory := by
  have width : 256 ^ count = 2 ^ (8 * count) := by rw [Nat.pow_mul]
  have lt : Words.value order memory < 2 ^ (8 * count) := by
    have lt := Words.lowValue_lt (if order then memory.reverse else memory)
    have same : (if order then memory.reverse else memory).length = count := by
      cases order
      · exact length
      · exact (List.length_reverse).trans length
    rwa [same, width] at lt
  have value : ((word count).load order memory).toNat = Words.value order memory := by
    change (BitVec.ofNat _ (Words.value order (memory.take count))).toNat = _
    rw [List.take_of_length_le (Nat.le_of_eq length), BitVec.toNat_ofNat, Nat.mod_eq_of_lt lt]
  change Words.bytes order count ((word count).load order memory).toNat = memory
  rw [value, ← length]
  cases order
  · exact Words.lowBytes_lowValue memory
  · have reverse := Words.lowBytes_lowValue memory.reverse
    rw [List.length_reverse] at reverse
    change (Words.lowBytes memory.length (Words.lowValue memory.reverse)).reverse = memory
    rw [reverse, List.reverse_reverse]

/-- A word is the one that its bytes are stored for. -/
theorem load_word_eq_iff {count : Nat} (order : Bool) {memory : List UInt8}
    (length : memory.length = count) (value : BitVec (8 * count)) :
    (word count).load order memory = value ↔ memory = (word count).store order value := by
  constructor
  · intro loads
    rw [← loads, store_load_word order length]
  · intro stores
    have loads := (word count).load_store order value []
    rwa [List.append_nil, ← stores] at loads

/-- A given number of bytes. -/
def chars (count : Nat) : RecordLayout { bytes : List UInt8 // bytes.length = count } where
  size := count
  store _ bytes := bytes.1
  load _ memory := ⟨(memory ++ List.replicate count 0).take count, by
    rw [List.length_take, List.length_append, List.length_replicate]
    omega⟩
  swapped bytes := bytes
  length_store _ bytes := bytes.2
  load_store _ bytes rest := by
    apply Subtype.ext
    change (bytes.1 ++ rest ++ List.replicate count 0).take count = bytes.1
    rw [List.append_assoc]
    exact List.take_left' bytes.2
  store_swapped _ _ := rfl

/-- A record behind another one. -/
def pair (A : RecordLayout α) (B : RecordLayout β) : RecordLayout (α × β) where
  size := A.size + B.size
  store order record := A.store order record.1 ++ B.store order record.2
  load order memory := (A.load order memory, B.load order (memory.drop A.size))
  swapped record := (A.swapped record.1, B.swapped record.2)
  length_store order record := by rw [List.length_append, A.length_store, B.length_store]
  load_store order record rest := by
    have drop : (A.store order record.1 ++ (B.store order record.2 ++ rest)).drop A.size =
        B.store order record.2 ++ rest := List.drop_left' (A.length_store order record.1)
    rw [List.append_assoc, A.load_store, drop, B.load_store]
  store_swapped order record := by rw [A.store_swapped, B.store_swapped]

theorem load_pair (A : RecordLayout α) (B : RecordLayout β) (order : Bool) (record : α)
    (memory : List UInt8) :
    (A.pair B).load order (A.store order record ++ memory) = (record, B.load order memory) := by
  change (A.load order (A.store order record ++ memory),
    B.load order ((A.store order record ++ memory).drop A.size)) = _
  rw [A.load_store, List.drop_left' (A.length_store order record)]

/-- A record followed by bytes that are not used. -/
def padded (A : RecordLayout α) (count : Nat) : RecordLayout α where
  size := A.size + count
  store order record := A.store order record ++ List.replicate count 0
  load := A.load
  swapped := A.swapped
  length_store order record := by rw [List.length_append, A.length_store, List.length_replicate]
  load_store order record rest := by rw [List.append_assoc, A.load_store]
  store_swapped order record := by rw [A.store_swapped]

/-- The same bytes with other names for the fields. -/
def named (A : RecordLayout α) (names : β ≃ α) : RecordLayout β where
  size := A.size
  store order record := A.store order (names record)
  load order memory := names.symm (A.load order memory)
  swapped record := names.symm (A.swapped (names record))
  length_store order record := A.length_store order (names record)
  load_store order record rest := by rw [A.load_store, names.symm_apply_apply]
  store_swapped order record := by rw [names.apply_symm_apply, A.store_swapped]

/-! ## Exchange between hosts -/

section Exchange

variable (A : RecordLayout α) (convert : Bool → α → α)

/-- Store a record, converted if the words are to be stored in the other order. -/
def write (order stored : Bool) (record : α) : List UInt8 :=
  A.store order (convert (order != stored) record)

/-- Load a record, converted if the words are stored in the other order. -/
def read (order stored : Bool) (memory : List UInt8) : α :=
  convert (order != stored) (A.load order memory)

variable {A convert}

/-- A host reads what it has written. -/
theorem read_write_same (none : ∀ record, convert false record = record)
    (twice : ∀ record, convert true (convert true record) = record) (order stored : Bool)
    (record : α) (rest : List UInt8) :
    A.read convert order stored (A.write convert order stored record ++ rest) = record := by
  rw [read, write, A.load_store]
  cases order != stored
  · rw [none, none]
  · exact twice record

/-- A host of the other kind reads the same record if the conversion reverses each of its words, and
only then. -/
theorem read_write_other_iff (none : ∀ record, convert false record = record)
    (twice : ∀ record, convert true (convert true record) = record) (order stored : Bool)
    (record : α) (rest : List UInt8) :
    A.read convert (!order) stored (A.write convert order stored record ++ rest) = record ↔
      convert true record = A.swapped record := by
  rw [read, write, A.load_store_other]
  have cases : order = stored ∨ order = !stored := by
    cases order <;> cases stored <;> simp
  rcases cases with rfl | rfl
  · rw [bne_self_eq_false, none, show ((!order) != order) = true by cases order <;> rfl]
    constructor
    · intro same
      rw [← twice (A.swapped record), same]
    · intro same
      rw [← same, twice]
  · rw [Bool.not_not, bne_self_eq_false, none,
      show ((!stored) != stored) = true by cases stored <;> rfl]
    constructor
    · intro same
      rw [← A.swapped_swapped (convert true record), same]
    · intro same
      rw [same, A.swapped_swapped]

end Exchange

end RecordLayout
