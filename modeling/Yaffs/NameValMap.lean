import Yaffs.NameVal
import Yaffs.Library.Execution
import Mathlib.Logic.Function.Basic
import Mathlib.Data.List.Nodup

/-!
# Names and values as a map

As long as four bytes stay free behind the last record, the records hold what has been stored: they
lie one behind the other, no two of them have the same name, and the zeros behind them end every
search.  With less room the last record is lost, or bytes behind the area are overwritten.
-/

namespace Yaffs

/-- A name that can be stored. -/
def NameOk (name : List UInt8) : Prop := name ≠ [] ∧ 0 ∉ name

instance (name : List UInt8) : Decidable (NameOk name) :=
  inferInstanceAs (Decidable (name ≠ [] ∧ 0 ∉ name))

/-- A name with its value. -/
structure NvalRecord where
  name : List UInt8
  value : List UInt8

namespace NvalRecord

/-- Length of a record. -/
def size (record : NvalRecord) : Nat := 4 + record.name.length + 1 + record.value.length

/-- A record as it lies in the area. -/
def bytes (swap : Bool) (record : NvalRecord) : List UInt8 :=
  Words.bytes swap 4 record.size ++ ((record.name ++ [0]) ++ record.value)

/-- Length of all records. -/
def used (records : List NvalRecord) : Nat := (records.map size).sum

/-- All records as they lie in the area. -/
def image (swap : Bool) (records : List NvalRecord) : List UInt8 := records.flatMap (bytes swap)

/-- The size that is read where the records begin. -/
def headSize : List NvalRecord → Nat
  | [] => 0
  | record :: _ => record.size

/-- The names, each with its final zero. -/
def names (records : List NvalRecord) : List UInt8 :=
  records.flatMap fun record => record.name ++ [0]

variable {swap : Bool} {record : NvalRecord} {records : List NvalRecord}

@[simp]
theorem length_bytes : (record.bytes swap).length = record.size := by
  simp only [bytes, size, List.length_append, Words.length_bytes, List.length_singleton]
  omega

@[simp]
theorem used_nil : used [] = 0 := rfl

@[simp]
theorem used_cons : used (record :: records) = record.size + used records := rfl

theorem used_append (first second : List NvalRecord) :
    used (first ++ second) = used first + used second := by
  simp [used]

@[simp]
theorem image_nil : image swap [] = [] := rfl

@[simp]
theorem image_cons : image swap (record :: records) = record.bytes swap ++ image swap records := rfl

theorem image_append (first second : List NvalRecord) :
    image swap (first ++ second) = image swap first ++ image swap second := by
  simp [image]

@[simp]
theorem length_image (swap : Bool) (records : List NvalRecord) :
    (image swap records).length = used records := by
  induction records with
  | nil => rfl
  | cons record records ih => rw [image_cons, List.length_append, length_bytes, ih, used_cons]

theorem length_le_used (records : List NvalRecord) : records.length ≤ used records := by
  induction records with
  | nil => exact Nat.le_refl 0
  | cons record records ih =>
    have positive : 1 ≤ record.size := by
      unfold size
      omega
    rw [List.length_cons, used_cons]
    omega

end NvalRecord

open NvalRecord

/-- The records lie at a position, with four zeros behind them in the area. -/
structure RecordsAt (swap : Bool) (xb : Buf) (xbSize pos : Nat) (records : List NvalRecord) :
    Prop where
  holds : Memory.Holds xb pos (image swap records ++ List.replicate 4 0)
  room : pos + used records + 4 ≤ xbSize

section Searches

variable {swap : Bool} {xb : Buf} {xbSize pos : Nat} {record : NvalRecord}
  {records : List NvalRecord}

theorem s32OfWord_of_lt {word : Nat} (lt : word < 2 ^ 31) : s32OfWord word = word := if_pos lt

theorem nvalSize_of_holds {size : Nat} (holds : Memory.Holds xb pos (Words.bytes swap 4 size))
    (lt : size < 2 ^ 31) : nvalSize swap xb pos = size := by
  have load := holds.load
  rw [Words.length_bytes] at load
  have small : size % 256 ^ 4 = size := Nat.mod_eq_of_lt (by omega)
  rw [nvalSize, load, Words.value_bytes, small, s32OfWord_of_lt lt]

namespace RecordsAt

/-! ## One record -/

theorem tail (at' : RecordsAt swap xb xbSize pos (record :: records)) :
    RecordsAt swap xb xbSize (pos + record.size) records := by
  obtain ⟨holds, room⟩ := at'
  rw [image_cons, List.append_assoc, Memory.holds_append, length_bytes] at holds
  rw [used_cons] at room
  exact ⟨holds.2, by omega⟩

theorem record_holds (at' : RecordsAt swap xb xbSize pos (record :: records)) :
    Memory.Holds xb pos (Words.bytes swap 4 record.size) ∧
      Memory.Holds xb (pos + 4) (record.name ++ [0]) ∧
      Memory.Holds xb (pos + 4 + record.name.length + 1) record.value := by
  have holds := at'.holds
  rw [image_cons, List.append_assoc, Memory.holds_append, NvalRecord.bytes, Memory.holds_append,
    Memory.holds_append, Words.length_bytes, List.length_append, List.length_singleton,
    ← Nat.add_assoc] at holds
  exact holds.1

theorem record_fits (at' : RecordsAt swap xb xbSize pos (record :: records)) :
    pos + record.size + 4 ≤ xbSize := by
  have room := at'.room
  rw [used_cons] at room
  omega

theorem nvalSize_eq (at' : RecordsAt swap xb xbSize pos records) (small : xbSize < 2 ^ 31) :
    nvalSize swap xb pos = headSize records := by
  cases records with
  | nil =>
    have zeros : Words.bytes swap 4 0 = List.replicate 4 0 := by
      cases swap <;> rfl
    have holds : Memory.Holds xb pos (Words.bytes swap 4 0) := zeros ▸ at'.holds
    exact nvalSize_of_holds holds (by decide)
  | cons record records =>
    have fits := at'.record_fits
    have lt : record.size < 2 ^ 31 := by omega
    exact nvalSize_of_holds at'.record_holds.1 lt

theorem nvalNextSize_eq (at' : RecordsAt swap xb xbSize pos records) (small : xbSize < 2 ^ 31) :
    nvalNextSize swap xb xbSize pos = headSize records := by
  unfold nvalNextSize
  split
  case isTrue => exact at'.nvalSize_eq small
  case isFalse near =>
    cases records with
    | nil => rfl
    | cons record records =>
      have fits := at'.record_fits
      have positive : 4 < record.size := by
        unfold size
        omega
      omega

/-! ## Searches -/

theorem findLoop_cons (at' : RecordsAt swap xb xbSize pos (record :: records))
    (small : xbSize < 2 ^ 31) (record_ok : NameOk record.name) {name : List UInt8}
    (name_ok : NameOk name) (fuel : Nat) :
    nvalFindLoop swap xb xbSize name (fuel + 1) pos record.size =
      if record.name = name then some (pos, (record.size : Int))
      else nvalFindLoop swap xb xbSize name fuel (pos + record.size) (headSize records) := by
  have fits := at'.record_fits
  have positive : record.name.length < record.size := by
    unfold size
    omega
  have inside : 0 < (record.size : Int) ∧ (record.size : Int) < xbSize ∧
      (pos : Int) + record.size < xbSize := by
    omega
  have compare := Memory.strncmp_of_holds at'.record_holds.2.1 record_ok.2 name_ok.2 positive
  rw [nvalFindLoop, if_pos inside, Int.toNat_natCast, compare]
  by_cases same : record.name = name
  · simp [same]
  · simp [same, at'.tail.nvalNextSize_eq small]

theorem findLoop_nil (name : List UInt8) (fuel : Nat) :
    nvalFindLoop swap xb xbSize name fuel pos (headSize []) = none := by
  cases fuel with
  | zero => rfl
  | succ fuel => simp [nvalFindLoop, headSize]

theorem findLoop_absent (at' : RecordsAt swap xb xbSize pos records) (small : xbSize < 2 ^ 31)
    (ok : ∀ record ∈ records, NameOk record.name) {name : List UInt8} (name_ok : NameOk name)
    (absent : ∀ record ∈ records, record.name ≠ name) (fuel : Nat) :
    nvalFindLoop swap xb xbSize name fuel pos (headSize records) = none := by
  induction records generalizing pos fuel with
  | nil => exact findLoop_nil name fuel
  | cons record records ih =>
    cases fuel with
    | zero => rfl
    | succ fuel =>
      obtain ⟨record_ok, ok⟩ := List.forall_mem_cons.mp ok
      obtain ⟨ne, absent⟩ := List.forall_mem_cons.mp absent
      rw [headSize, at'.findLoop_cons small record_ok name_ok, if_neg ne]
      exact ih at'.tail ok absent fuel

theorem findLoop_present {before after : List NvalRecord}
    (at' : RecordsAt swap xb xbSize pos (before ++ record :: after)) (small : xbSize < 2 ^ 31)
    (ok : ∀ other ∈ before ++ record :: after, NameOk other.name)
    (absent : ∀ other ∈ before, other.name ≠ record.name) {fuel : Nat}
    (enough : before.length < fuel) :
    nvalFindLoop swap xb xbSize record.name fuel pos (headSize (before ++ record :: after)) =
      some (pos + used before, (record.size : Int)) := by
  have record_ok : NameOk record.name := ok record (by simp)
  induction before generalizing pos fuel with
  | nil =>
    obtain ⟨fuel, rfl⟩ := Nat.exists_eq_add_one_of_ne_zero (Nat.ne_zero_of_lt enough)
    rw [List.nil_append, headSize, at'.findLoop_cons small record_ok record_ok, if_pos rfl]
    rfl
  | cons other before ih =>
    obtain ⟨fuel, rfl⟩ := Nat.exists_eq_add_one_of_ne_zero (Nat.ne_zero_of_lt enough)
    rw [List.cons_append] at at' ok ⊢
    obtain ⟨other_ok, ok⟩ := List.forall_mem_cons.mp ok
    obtain ⟨ne, absent⟩ := List.forall_mem_cons.mp absent
    rw [headSize, at'.findLoop_cons small other_ok record_ok, if_neg ne,
      ih at'.tail ok absent (by simpa using enough), used_cons, Nat.add_assoc]

theorem usedLoop_eq (at' : RecordsAt swap xb xbSize pos records) (small : xbSize < 2 ^ 31)
    {fuel : Nat} (enough : records.length < fuel) :
    nvalUsedLoop swap xb xbSize fuel pos (headSize records) = pos + used records := by
  induction records generalizing pos fuel with
  | nil =>
    obtain ⟨fuel, rfl⟩ := Nat.exists_eq_add_one_of_ne_zero (Nat.ne_zero_of_lt enough)
    simp [nvalUsedLoop, headSize]
  | cons record records ih =>
    obtain ⟨fuel, rfl⟩ := Nat.exists_eq_add_one_of_ne_zero (Nat.ne_zero_of_lt enough)
    have fits := at'.record_fits
    have positive : 0 < record.size := by
      unfold size
      omega
    have inside : 0 < (record.size : Int) ∧ (record.size : Int) < xbSize ∧
        (pos : Int) + record.size < xbSize := by
      omega
    rw [headSize, nvalUsedLoop, if_pos inside, Int.toNat_natCast]
    dsimp only
    rw [at'.tail.nvalNextSize_eq small, ih at'.tail (by simpa using enough), used_cons,
      Nat.add_assoc]

theorem skipName_eq {name : List UInt8} {left : Int} (holds : Memory.Holds xb pos (name ++ [0]))
    (no_zero : 0 ∉ name) (inside : pos + name.length ≤ xbSize) (left_ge : name.length ≤ left)
    {fuel : Nat} (enough : name.length ≤ fuel) :
    nvalSkipName xb xbSize fuel pos left = (pos + name.length, left - name.length) := by
  induction name generalizing pos left fuel with
  | nil =>
    have zero : xb pos = 0 := holds.1
    cases fuel <;> simp [nvalSkipName, zero]
  | cons char name ih =>
    obtain ⟨fuel, rfl⟩ := Nat.exists_eq_add_one_of_ne_zero (Nat.ne_zero_of_lt enough)
    have nonzero : xb pos ≠ 0 := by
      intro zero
      exact no_zero (holds.1.symm.trans zero ▸ List.mem_cons_self)
    rw [List.length_cons] at inside left_ge enough ⊢
    have continues : xb pos ≠ 0 ∧ 0 < left ∧ pos < xbSize := ⟨nonzero, by omega, by omega⟩
    have no_zero' : 0 ∉ name := fun zero => no_zero (List.mem_cons_of_mem _ zero)
    rw [nvalSkipName, if_pos continues, ih holds.2 no_zero' (by omega) (by omega) (by omega)]
    refine Prod.ext ?_ ?_
    · dsimp only
      omega
    · dsimp only
      omega

theorem listLoop_cons (at' : RecordsAt swap xb xbSize pos (record :: records))
    (small : xbSize < 2 ^ 31) (record_ok : NameOk record.name) (bsize : Int) (fuel : Nat)
    (copied : List UInt8) :
    nvalListLoop swap xb xbSize bsize (fuel + 1) pos record.size copied =
      if (copied.length : Int) + record.name.length + 1 < bsize then
        nvalListLoop swap xb xbSize bsize fuel (pos + record.size) (headSize records)
          (copied ++ (record.name ++ [0]))
      else copied := by
  have fits := at'.record_fits
  have positive : record.name.length + 4 < record.size := by
    unfold size
    omega
  have inside : 4 < (record.size : Int) ∧ (record.size : Int) ≤ xbSize ∧
      (pos : Int) + record.size < xbSize := by
    omega
  have rest : ((record.size : Int) - 4).toNat = record.size - 4 := by omega
  have nameLen : Memory.strnlen xb (pos + 4) (record.size - 4 + 1) = record.name.length :=
    Memory.strnlen_of_holds at'.record_holds.2.1 record_ok.2 (by omega)
  have name_holds := (Memory.holds_append.mp at'.record_holds.2.1).1
  have next : pos + 4 + (record.size - 4) = pos + record.size := by omega
  rw [nvalListLoop, if_pos inside, rest, nameLen]
  dsimp only
  rw [name_holds.load, next, at'.tail.nvalNextSize_eq small, List.append_assoc]

theorem listLoop_eq (at' : RecordsAt swap xb xbSize pos records) (small : xbSize < 2 ^ 31)
    (ok : ∀ record ∈ records, NameOk record.name) {bsize : Int} {copied : List UInt8}
    (room : records = [] ∨ (copied.length : Int) + (names records).length < bsize) {fuel : Nat}
    (enough : records.length < fuel) :
    nvalListLoop swap xb xbSize bsize fuel pos (headSize records) copied =
      copied ++ names records := by
  induction records generalizing pos fuel copied with
  | nil =>
    obtain ⟨fuel, rfl⟩ := Nat.exists_eq_add_one_of_ne_zero (Nat.ne_zero_of_lt enough)
    simp [nvalListLoop, headSize, names]
  | cons record records ih =>
    obtain ⟨fuel, rfl⟩ := Nat.exists_eq_add_one_of_ne_zero (Nat.ne_zero_of_lt enough)
    obtain ⟨record_ok, ok⟩ := List.forall_mem_cons.mp ok
    have room := room.resolve_left (List.cons_ne_nil _ _)
    have split : names (record :: records) = (record.name ++ [0]) ++ names records := rfl
    rw [split, List.length_append, List.length_append, List.length_singleton] at room
    have room' : ((copied ++ (record.name ++ [0])).length : Int) + (names records).length <
        bsize := by
      rw [List.length_append, List.length_append, List.length_singleton]
      omega
    rw [headSize, at'.listLoop_cons small record_ok, if_pos (by omega),
      ih at'.tail ok (.inr room') (by simpa using enough), split, List.append_assoc]

end RecordsAt

/-- What is copied always leaves a byte of the buffer free. -/
theorem length_listLoop (bsize : Int) (fuel : Nat) (size : Int) (copied : List UInt8)
    (short : copied = [] ∨ (copied.length : Int) < bsize) :
    nvalListLoop swap xb xbSize bsize fuel pos size copied = [] ∨
      ((nvalListLoop swap xb xbSize bsize fuel pos size copied).length : Int) < bsize := by
  induction fuel generalizing pos size copied with
  | zero => exact short
  | succ fuel ih =>
    simp only [nvalListLoop]
    split
    case isFalse => exact short
    case isTrue =>
      split
      case isFalse => exact short
      case isTrue room =>
        refine ih _ _ (.inr ?_)
        rw [List.length_append, List.length_append, Memory.length_load, List.length_singleton]
        omega

end Searches

/-! ## Changes -/

section Changes

variable {swap : Bool} {xb : Buf} {xbSize : Nat} {record : NvalRecord} {records : List NvalRecord}

/-- The records behind some of them lie where these end. -/
theorem RecordsAt.drop {before after : List NvalRecord}
    (at' : RecordsAt swap xb xbSize 0 (before ++ after)) :
    RecordsAt swap xb xbSize (used before) after := by
  obtain ⟨holds, room⟩ := at'
  rw [image_append, List.append_assoc, Memory.holds_append, length_image, Nat.zero_add] at holds
  rw [used_append] at room
  exact ⟨holds.2, by omega⟩

/-- The records behind a deleted one are moved over it. -/
theorem RecordsAt.del {before after : List NvalRecord}
    (at' : RecordsAt swap xb xbSize 0 (before ++ record :: after)) :
    RecordsAt swap
      (Memory.put (Memory.moveDown xb (used before) record.size
        (xbSize - (used before + record.size))) (xbSize - record.size)
        (List.replicate record.size 0)) xbSize 0 (before ++ after) := by
  obtain ⟨holds, room⟩ := at'
  rw [used_append, used_cons] at room
  rw [image_append, image_cons, List.append_assoc, List.append_assoc, Memory.holds_append,
    Memory.holds_append, length_image, length_bytes, Nat.zero_add] at holds
  obtain ⟨first, -, last⟩ := holds
  have length_last :
      (image swap after ++ List.replicate 4 (0 : UInt8)).length = used after + 4 := by
    rw [List.length_append, length_image, List.length_replicate]
  refine ⟨?_, by rw [used_append]; omega⟩
  rw [image_append, List.append_assoc, Memory.holds_append, length_image, Nat.zero_add]
  constructor
  · refine Memory.Holds.put_of_disjoint ?_ (.inl (by rw [length_image]; omega))
    refine Memory.Holds.of_agree 0 first fun i _ upper => ?_
    rw [length_image] at upper
    exact Memory.moveDown_of_lt (by omega)
  · refine Memory.Holds.put_of_disjoint ?_ (.inl (by rw [length_last]; omega))
    refine Memory.Holds.of_agree record.size last fun i lower upper => ?_
    rw [length_last] at upper
    exact Memory.moveDown_of_mem lower (by omega)

theorem nvalReclen_eq {name value : List UInt8}
    (lt : 4 + min name.length (xbSize + 1) + 1 + value.length < 2 ^ 31) :
    nvalReclen xbSize name value =
      ((4 + min name.length (xbSize + 1) + 1 + value.length : Nat) : Int) := by
  rw [nvalReclen, Nat.mod_eq_of_lt (by omega), s32OfWord_of_lt lt]

/-- The number of bytes that the copy of the name fills is the length of the record. -/
theorem putRecord_eq {name value : List UInt8} {start : Nat}
    (fits : start + (NvalRecord.mk name value).size + 4 ≤ xbSize) (small : xbSize < 2 ^ 31) :
    nvalPutRecord swap xb xbSize start name value =
      Memory.put (Memory.put (Memory.put xb start
        (Words.bytes swap 4 (NvalRecord.mk name value).size)) (start + 4)
        (Memory.strncpy name (NvalRecord.mk name value).size))
        (start + 4 + (name.length + 1)) value := by
  have size_eq : (NvalRecord.mk name value).size = 4 + name.length + 1 + value.length := rfl
  have short : min name.length (xbSize + 1) = name.length := Nat.min_eq_left (by omega)
  have count : ((((NvalRecord.mk name value).size : Int)) % 2 ^ 32).toNat =
      (NvalRecord.mk name value).size := by
    omega
  rw [nvalPutRecord, nvalReclen_eq (by omega), short, ← size_eq, count]

/-- A record is stored behind the others, and four zeros behind it. -/
theorem RecordsAt.put {name value : List UInt8} (holds : Memory.Holds xb 0 (image swap records))
    (fits : used records + (NvalRecord.mk name value).size + 4 ≤ xbSize) (small : xbSize < 2 ^ 31) :
    RecordsAt swap (nvalPutRecord swap xb xbSize (used records) name value) xbSize 0
      (records ++ [⟨name, value⟩]) := by
  rw [putRecord_eq fits small]
  generalize start_eq : used records = start at fits ⊢
  generalize record_eq : NvalRecord.mk name value = record at fits ⊢
  have size_eq : record.size = 4 + name.length + 1 + value.length := by
    rw [← record_eq]
    rfl
  have bytes_eq : record.bytes swap =
      Words.bytes swap 4 record.size ++ ((name ++ [0]) ++ value) := by
    rw [← record_eq]
    rfl
  have copy : Memory.strncpy name record.size =
      (name ++ [0]) ++ (List.replicate value.length 0 ++ List.replicate 4 0) := by
    have zeros : record.size - name.length = 1 + (value.length + 4) := by omega
    rw [Memory.strncpy_of_le (by omega), zeros, List.replicate_add, List.replicate_add,
      List.append_assoc]
    rfl
  have length_copy : (Memory.strncpy name record.size).length = record.size :=
    Memory.length_strncpy name record.size
  have copied := Memory.holds_put (Memory.put xb start (Words.bytes swap 4 record.size)) (start + 4)
    (Memory.strncpy name record.size)
  generalize mid_eq : Memory.put (Memory.put xb start (Words.bytes swap 4 record.size)) (start + 4)
    (Memory.strncpy name record.size) = mid at copied ⊢
  rw [copy] at copied
  obtain ⟨name_holds, rest⟩ := Memory.holds_append.mp copied
  obtain ⟨-, zeros⟩ := Memory.holds_append.mp rest
  rw [List.length_append, List.length_singleton, List.length_replicate] at zeros
  refine ⟨?_, by rw [used_append, used_cons, used_nil]; omega⟩
  rw [image_append, List.append_assoc, Memory.holds_append, length_image, start_eq, Nat.zero_add,
    image_cons, image_nil, List.append_nil, Memory.holds_append, length_bytes]
  refine ⟨?_, ?_, ?_⟩
  · have length : (image swap records).length = start := (length_image _ _).trans start_eq
    rw [← mid_eq]
    refine Memory.Holds.put_of_disjoint (Memory.Holds.put_of_disjoint
      (Memory.Holds.put_of_disjoint holds ?_) ?_) ?_
    all_goals exact .inl (by omega)
  · rw [bytes_eq, Memory.holds_append, Words.length_bytes]
    refine ⟨?_, Memory.holds_append.mpr ⟨?_, ?_⟩⟩
    · rw [← mid_eq]
      refine Memory.Holds.put_of_disjoint (Memory.Holds.put_of_disjoint
        (Memory.holds_put _ _ _) ?_) ?_
      · exact .inl (by rw [Words.length_bytes])
      · exact .inl (by rw [Words.length_bytes]; omega)
    · refine Memory.Holds.put_of_disjoint name_holds (.inl ?_)
      rw [List.length_append, List.length_singleton]
    · rw [List.length_append, List.length_singleton]
      exact Memory.holds_put _ _ _
  · have position : start + record.size = start + 4 + (name.length + 1) + value.length := by omega
    rw [position]
    exact Memory.Holds.put_of_disjoint zeros (.inr (Nat.le_refl _))

theorem putRecord_outside {name value : List UInt8} {start : Nat}
    (fits : start + (NvalRecord.mk name value).size + 4 ≤ xbSize) (small : xbSize < 2 ^ 31)
    {i : Nat} (outside : xbSize ≤ i) : nvalPutRecord swap xb xbSize start name value i = xb i := by
  have size_eq : (NvalRecord.mk name value).size = 4 + name.length + 1 + value.length := rfl
  rw [putRecord_eq fits small, Memory.put_of_ge (by omega),
    Memory.put_of_ge (by rw [Memory.length_strncpy]; omega),
    Memory.put_of_ge (by rw [Words.length_bytes]; omega)]

end Changes

end Yaffs
