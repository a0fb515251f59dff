import Yaffs.Objects
import Yaffs.Library.Execution
import Mathlib.Data.Finset.Card
import Mathlib.Data.List.Nodup

/-!
# Numbers of objects

A new object takes the first number of a hash bucket that no object in the bucket has.  The search
knows no upper limit, but a scan takes a page for bad if the number of its object is above a fixed
one.
-/

namespace Yaffs

/-- Highest number of an object that a scan accepts. -/
def maxObjectId : Nat := 0x40000 - 1

/-- Object number of checkpoint pages. -/
def objectIdCheckpointData : Nat := 0x20

/-- Numbers of special and pseudo objects. -/
def reservedIds : List Nat :=
  [objectIdRoot, objectIdLostNFound, objectIdUnlinked, objectIdDeleted, objectIdSummary,
    objectIdCheckpointData]

/-- What the hash table knows of an object. -/
structure HashedObj where
  objId : Nat
  /-- Removed from the flash but still held by an inode. -/
  deferedFree : Bool := false
  /-- An inode holds the object. -/
  hasInode : Bool := false
deriving DecidableEq

/-- A hash bucket, with its objects newest first. -/
structure ObjBucket where
  list : List HashedObj := []
  count : Nat := 0

/-- The hash table of objects. -/
structure ObjTable where
  objBucket : Nat → ObjBucket := fun _ => {}
  bucketFinder : Nat := 0

namespace ObjTable

variable (table : ObjTable)

/-- Change one bucket. -/
def modify (bucket : Nat) (change : ObjBucket → ObjBucket) : ObjTable :=
  { table with
    objBucket := Function.update table.objBucket bucket (change (table.objBucket bucket)) }

@[simp]
theorem modify_objBucket (bucket other : Nat) (change : ObjBucket → ObjBucket) :
    (table.modify bucket change).objBucket other =
      if other = bucket then change (table.objBucket other) else table.objBucket other := by
  simp only [modify, Function.update_apply]
  split
  case isTrue same => rw [same]
  case isFalse => rfl

/-! ## Choosing a number -/

/-- Look at the next bucket: the best bucket so far, its count, and the bucket just looked at. -/
def tryBucket (best : Nat × Nat × Nat) : Nat × Nat × Nat :=
  let finder := (best.2.2 + 1) % nObjectBuckets
  if (table.objBucket finder).count < best.2.1 then (finder, (table.objBucket finder).count, finder)
  else (best.1, best.2.1, finder)

/-- A bucket for a new object: the shortest of ten, or the first with at most four objects. -/
def findNiceBucket : Nat → Nat × Nat × Nat → Nat × Nat × Nat
  | 0, best => best
  | left + 1, best =>
    if 4 < best.2.1 then findNiceBucket left (table.tryBucket best) else best

/-- The search for a number that is not taken, in words of four bytes. -/
def nextId (taken : List Nat) : Nat → Nat → Nat
  | 0, n => n
  | left + 1, n =>
    if n ∈ taken then nextId taken left ((n + nObjectBuckets) % 2 ^ 32) else n

/-- The bucket in which the next new object gets its number. -/
def niceBucket : Nat := (table.findNiceBucket 10 (999, 999999, table.bucketFinder)).1

/-- A number for a new object.  The search looks at one number more than there are objects in the
bucket. -/
def newObjId : Nat × ObjTable :=
  let taken := (table.objBucket table.niceBucket).list.map HashedObj.objId
  (nextId taken taken.length (table.niceBucket + nObjectBuckets),
    { table with
      bucketFinder := (table.findNiceBucket 10 (999, 999999, table.bucketFinder)).2.2 })

/-! ## Objects come and go -/

/-- Enter an object in the hash table. -/
def hashObj (obj : HashedObj) : ObjTable :=
  table.modify (hashFn obj.objId) fun bucket =>
    { list := obj :: bucket.list, count := bucket.count + 1 }

/-- Take an object out of the hash table. -/
def unhashObj (number : Nat) : ObjTable :=
  table.modify (hashFn number) fun bucket =>
    if bucket.list.any fun obj => decide (obj.objId = number) then
      { list := bucket.list.eraseP fun obj => decide (obj.objId = number), count :=
        bucket.count - 1 }
    else bucket

/-- Change an object in the hash table. -/
def modifyObj (number : Nat) (change : HashedObj → HashedObj) : ObjTable :=
  table.modify (hashFn number) fun bucket =>
    { bucket with
      list := bucket.list.map fun obj => if obj.objId = number then change obj else obj }

/-- The object with a number, also one that only waits to be freed. -/
def lookup (number : Nat) : Option HashedObj :=
  (table.objBucket (hashFn number)).list.find? fun obj => decide (obj.objId = number)

/-- The object with a number, unless it only waits to be freed. -/
def findByNumber (number : Nat) : Option HashedObj :=
  (table.lookup number).filter fun obj => !obj.deferedFree

/-- What the allocations of memory answer. -/
structure Memory where
  tnode : Bool := true
  object : Bool := true

/-- A new object with a given number, or a free one. -/
def newObj (number : Option Nat) (type : ObjType) (memory : Memory) : Option Nat × ObjTable :=
  let named : Nat × ObjTable := match number with
    | some number => (number, table)
    | none => table.newObjId
  if type = .file ∧ ¬memory.tnode then (none, named.2)
  else if ¬memory.object then (none, named.2)
  else (some named.1, named.2.hashObj { objId := named.1 })

/-- Free an object, or leave that to the inode that still holds it. -/
def freeObj (number : Nat) : ObjTable :=
  match table.lookup number with
  | none => table
  | some obj =>
    if obj.hasInode then table.modifyObj number fun obj => { obj with deferedFree := true }
    else table.unhashObj number

/-- Create an object.  It is deleted again when its header cannot be written. -/
def createObj (type : ObjType) (memory : Memory) (headerWritten : Bool) : Option Nat × ObjTable :=
  let made := table.newObj none type memory
  match made.1 with
  | none => made
  | some number => if headerWritten then made else (none, made.2.freeObj number)

/-- The object with a number found on the flash. -/
def findOrCreateByNumber (number : Nat) (type : ObjType) (memory : Memory) :
    Option Nat × ObjTable :=
  if 0 < number ∧ (table.findByNumber number).isSome then (some number, table)
  else table.newObj (some number) type memory

/-- An inode takes hold of an object. -/
def holdObj (number : Nat) : ObjTable :=
  table.modifyObj number fun obj => { obj with hasInode := true }

/-- An inode lets go of an object, which is freed if it has been waiting for that. -/
def handleDeferedFree (number : Nat) : ObjTable :=
  let table := table.modifyObj number fun obj => { obj with hasInode := false }
  match table.lookup number with
  | some obj => if obj.deferedFree then table.freeObj number else table
  | none => table

/-- The table after the directories that are not on the flash have been made. -/
def initial : ObjTable :=
  [objectIdUnlinked, objectIdDeleted, objectIdRoot, objectIdLostNFound].foldl
    (fun table number => (table.newObj (some number) .directory {}).2) {}

end ObjTable

/-! ## Buckets -/

/-- A hash bucket as the table keeps it: its objects belong there, have numbers of their own that a
scan accepts, and are counted. -/
structure ObjBucket.Tidy (number : Nat) (bucket : ObjBucket) : Prop where
  hashed : ∀ obj ∈ bucket.list, hashFn obj.objId = number
  nodup : (bucket.list.map HashedObj.objId).Nodup
  storable : ∀ obj ∈ bucket.list, obj.objId ≤ maxObjectId
  counted : bucket.count = bucket.list.length

namespace ObjBucket

variable {number : Nat} {bucket : ObjBucket}

theorem Tidy.cons (tidy : bucket.Tidy number) {obj : HashedObj} (hashed : hashFn obj.objId = number)
    (fresh : obj.objId ∉ bucket.list.map HashedObj.objId) (storable : obj.objId ≤ maxObjectId) :
    ({ list := obj :: bucket.list, count := bucket.count + 1 } : ObjBucket).Tidy number where
  hashed other mem := by
    rcases List.mem_cons.mp mem with rfl | mem
    · exact hashed
    · exact tidy.hashed other mem
  nodup := List.nodup_cons.mpr ⟨fresh, tidy.nodup⟩
  storable other mem := by
    rcases List.mem_cons.mp mem with rfl | mem
    · exact storable
    · exact tidy.storable other mem
  counted := congrArg (· + 1) tidy.counted

theorem Tidy.erase (tidy : bucket.Tidy number) (objId : Nat)
    (found : (bucket.list.any fun obj => decide (obj.objId = objId)) = true) :
    ({ list := bucket.list.eraseP fun obj => decide (obj.objId = objId),
       count := bucket.count - 1 } : ObjBucket).Tidy number where
  hashed other mem := tidy.hashed other (List.mem_of_mem_eraseP mem)
  nodup := tidy.nodup.sublist ((List.eraseP_sublist).map HashedObj.objId)
  storable other mem := tidy.storable other (List.mem_of_mem_eraseP mem)
  counted := by
    obtain ⟨obj, mem, is⟩ := List.any_eq_true.mp found
    rw [List.length_eraseP_of_mem mem is, tidy.counted]

theorem Tidy.map (tidy : bucket.Tidy number) {change : HashedObj → HashedObj}
    (keeps : ∀ obj, (change obj).objId = obj.objId) :
    ({ bucket with list := bucket.list.map change } : ObjBucket).Tidy number where
  hashed other mem := by
    obtain ⟨obj, obj_mem, rfl⟩ := List.mem_map.mp mem
    rw [keeps]
    exact tidy.hashed obj obj_mem
  nodup := by
    have same : (bucket.list.map change).map HashedObj.objId = bucket.list.map HashedObj.objId := by
      rw [List.map_map]
      exact List.map_congr_left fun obj _ => keeps obj
    rw [same]
    exact tidy.nodup
  storable other mem := by
    obtain ⟨obj, obj_mem, rfl⟩ := List.mem_map.mp mem
    rw [keeps]
    exact tidy.storable obj obj_mem
  counted := tidy.counted.trans (List.length_map change).symm

/-- There are no more objects in a bucket than numbers that a scan accepts. -/
theorem Tidy.length_le (tidy : bucket.Tidy number) : bucket.list.length ≤ 1024 := by
  have inside : bucket.list.map HashedObj.objId ⊆
      (List.range 1024).map fun index => index * nObjectBuckets + number := by
    intro objId mem
    obtain ⟨obj, obj_mem, rfl⟩ := List.mem_map.mp mem
    have hashed := tidy.hashed obj obj_mem
    have storable := tidy.storable obj obj_mem
    simp only [hashFn, nObjectBuckets, maxObjectId] at hashed storable ⊢
    exact List.mem_map.mpr ⟨obj.objId / 256, List.mem_range.mpr (by omega), by omega⟩
  have length := (tidy.nodup.subperm inside).length_le
  rwa [List.length_map, List.length_map, List.length_range] at length

end ObjBucket

namespace ObjTable

variable {table : ObjTable}

/-! ## The search for a number -/

/-- The search passes over taken numbers only, and stops at the first that is not taken if it gets
that far. -/
theorem nextId_spec (taken : List Nat) (left n : Nat) (small : n + nObjectBuckets * left < 2 ^ 32) :
    ∃ passed ≤ left, nextId taken left n = n + nObjectBuckets * passed ∧
      (∀ before < passed, n + nObjectBuckets * before ∈ taken) ∧
        (passed < left → n + nObjectBuckets * passed ∉ taken) := by
  induction left generalizing n with
  | zero => exact ⟨0, le_rfl, rfl, nofun, nofun⟩
  | succ left ih =>
    rw [nextId]
    split
    case isFalse free => exact ⟨0, Nat.zero_le _, rfl, nofun, fun _ => free⟩
    case isTrue used =>
      have next : (n + nObjectBuckets) % 2 ^ 32 = n + nObjectBuckets := by
        rw [Nat.mul_succ] at small
        exact Nat.mod_eq_of_lt (by omega)
      obtain ⟨passed, passed_le, eq, used_before, free⟩ := ih (n + nObjectBuckets) (by
        rw [Nat.mul_succ] at small
        omega)
      have shift (index : Nat) : n + nObjectBuckets + nObjectBuckets * index =
          n + nObjectBuckets * (index + 1) := by
        simp only [nObjectBuckets]
        omega
      refine ⟨passed + 1, Nat.succ_le_succ passed_le, ?_, ?_, ?_⟩
      · rw [next, eq, shift]
      · intro before before_lt
        cases before with
        | zero => exact used
        | succ before =>
          rw [← shift]
          exact used_before before (Nat.lt_of_succ_lt_succ before_lt)
      · intro inside
        rw [← shift]
        exact free (Nat.lt_of_succ_lt_succ inside)

/-- With one step for each taken number the search finds one that is not taken. -/
theorem nextId_not_mem (taken : List Nat) (n : Nat)
    (small : n + nObjectBuckets * taken.length < 2 ^ 32) : nextId taken taken.length n ∉ taken := by
  obtain ⟨passed, passed_le, eq, used, free⟩ := nextId_spec taken taken.length n small
  rw [eq]
  rcases passed_le.lt_or_eq with inside | rfl
  · exact free inside
  · intro last
    have distinct : ((List.range (taken.length + 1)).map fun index =>
        n + nObjectBuckets * index).Nodup := by
      refine List.nodup_range.map fun first second same => ?_
      simp only [nObjectBuckets] at same
      omega
    have inside : ((List.range (taken.length + 1)).map fun index =>
        n + nObjectBuckets * index) ⊆ taken := by
      intro number mem
      obtain ⟨index, index_mem, rfl⟩ := List.mem_map.mp mem
      rcases (Nat.lt_succ_iff.mp (List.mem_range.mp index_mem)).lt_or_eq with before | rfl
      · exact used index before
      · exact last
    have length := (distinct.subperm inside).length_le
    rw [List.length_map, List.length_range] at length
    omega

/-! ## The table -/

variable (table) in
/-- Every bucket is as the table keeps it. -/
def Tidy : Prop := ∀ bucket, (table.objBucket bucket).Tidy bucket

theorem tryBucket_lt {best : Nat × Nat × Nat} (inside : best.1 < nObjectBuckets) :
    (table.tryBucket best).1 < nObjectBuckets := by
  simp only [tryBucket]
  split
  · exact Nat.mod_lt _ (by decide)
  · exact inside

theorem findNiceBucket_lt (left : Nat) {best : Nat × Nat × Nat} (inside : best.1 < nObjectBuckets) :
    (table.findNiceBucket left best).1 < nObjectBuckets := by
  induction left generalizing best with
  | zero => exact inside
  | succ left ih =>
    rw [findNiceBucket]
    split
    · exact ih (tryBucket_lt inside)
    · exact inside

theorem Tidy.niceBucket_lt (tidy : table.Tidy) : table.niceBucket < nObjectBuckets := by
  have first : (table.tryBucket (999, 999999, table.bucketFinder)).1 < nObjectBuckets := by
    have short : (table.objBucket ((table.bucketFinder + 1) % nObjectBuckets)).count < 999999 := by
      have counted := (tidy ((table.bucketFinder + 1) % nObjectBuckets)).counted
      have length := (tidy ((table.bucketFinder + 1) % nObjectBuckets)).length_le
      omega
    simp only [tryBucket, if_pos short]
    exact Nat.mod_lt _ (by decide)
  rw [niceBucket, findNiceBucket, if_pos (show 4 < 999999 by decide)]
  exact findNiceBucket_lt 9 first

variable (table) in
/-- In the bucket that is chosen some number that a scan accepts is free. -/
def HasRoom : Prop :=
  ∃ number ≤ maxObjectId, nObjectBuckets ≤ number ∧ hashFn number = table.niceBucket ∧
    ∀ obj ∈ (table.objBucket table.niceBucket).list, obj.objId ≠ number

/-- The number of a new object is free, belongs into the bucket that was chosen, is above all
special numbers, and is accepted by a scan if any free number of the bucket is. -/
theorem Tidy.newObjId (tidy : table.Tidy) :
    hashFn table.newObjId.1 = table.niceBucket ∧ nObjectBuckets ≤ table.newObjId.1 ∧
      table.newObjId.1 ∉ (table.objBucket table.niceBucket).list.map HashedObj.objId ∧
        (table.newObjId.1 ≤ maxObjectId ↔ table.HasRoom) := by
  have bucket_lt := tidy.niceBucket_lt
  have length := (tidy table.niceBucket).length_le
  have small : table.niceBucket + nObjectBuckets + nObjectBuckets *
      ((table.objBucket table.niceBucket).list.map HashedObj.objId).length < 2 ^ 32 := by
    rw [List.length_map]
    simp only [nObjectBuckets] at bucket_lt ⊢
    omega
  have free := nextId_not_mem ((table.objBucket table.niceBucket).list.map HashedObj.objId)
    (table.niceBucket + nObjectBuckets) small
  obtain ⟨passed, -, eq, used, -⟩ := nextId_spec
    ((table.objBucket table.niceBucket).list.map HashedObj.objId) _ _ small
  have chosen : table.newObjId.1 = table.niceBucket + nObjectBuckets + nObjectBuckets * passed := eq
  have hashed : hashFn table.newObjId.1 = table.niceBucket := by
    simp only [chosen, hashFn, nObjectBuckets] at bucket_lt ⊢
    omega
  have above : nObjectBuckets ≤ table.newObjId.1 := by
    simp only [chosen, nObjectBuckets]
    omega
  refine ⟨hashed, above, free, fun storable => ?_, fun room => ?_⟩
  · refine ⟨table.newObjId.1, storable, above, hashed, fun obj mem same => free ?_⟩
    exact List.mem_map.mpr ⟨obj, mem, same⟩
  · obtain ⟨number, number_le, number_above, number_hash, number_free⟩ := room
    -- A free number of the bucket is not among those that the search has passed over.
    have not_passed : passed ≤ number / nObjectBuckets - 1 := by
      by_contra later
      have taken := used (number / nObjectBuckets - 1) (by omega)
      have same : table.niceBucket + nObjectBuckets +
          nObjectBuckets * (number / nObjectBuckets - 1) = number := by
        simp only [hashFn, nObjectBuckets] at number_hash number_above ⊢
        omega
      rw [same] at taken
      obtain ⟨obj, mem, eq⟩ := List.mem_map.mp taken
      exact number_free obj mem eq
    simp only [chosen, hashFn, nObjectBuckets] at number_hash number_above not_passed ⊢
    omega

/-! ## What an operation keeps -/

theorem Tidy.modify (tidy : table.Tidy) {bucket : Nat} {change : ObjBucket → ObjBucket}
    (kept : (change (table.objBucket bucket)).Tidy bucket) : (table.modify bucket change).Tidy := by
  intro other
  rw [modify_objBucket]
  split
  case isTrue same => exact same ▸ kept
  case isFalse => exact tidy other

theorem Tidy.hashObj (tidy : table.Tidy) {obj : HashedObj} (storable : obj.objId ≤ maxObjectId)
    (fresh : obj.objId ∉ (table.objBucket (hashFn obj.objId)).list.map HashedObj.objId) :
    (table.hashObj obj).Tidy :=
  tidy.modify ((tidy (hashFn obj.objId)).cons rfl fresh storable)

theorem Tidy.unhashObj (tidy : table.Tidy) (number : Nat) : (table.unhashObj number).Tidy := by
  refine tidy.modify ?_
  split
  case isTrue found => exact (tidy (hashFn number)).erase number found
  case isFalse => exact tidy (hashFn number)

theorem Tidy.modifyObj (tidy : table.Tidy) (number : Nat) (change : HashedObj → HashedObj)
    (keeps : ∀ obj, (change obj).objId = obj.objId) : (table.modifyObj number change).Tidy := by
  refine tidy.modify ((tidy (hashFn number)).map fun obj => ?_)
  split
  · exact keeps obj
  · rfl

theorem Tidy.freeObj (tidy : table.Tidy) (number : Nat) : (table.freeObj number).Tidy := by
  simp only [ObjTable.freeObj]
  split
  · exact tidy
  · split
    · exact tidy.modifyObj number _ fun _ => rfl
    · exact tidy.unhashObj number

theorem Tidy.handleDeferedFree (tidy : table.Tidy) (number : Nat) :
    (table.handleDeferedFree number).Tidy := by
  have released := tidy.modifyObj number (fun obj => { obj with hasInode := false }) fun _ => rfl
  simp only [ObjTable.handleDeferedFree]
  split
  · split
    · exact released.freeObj number
    · exact released
  · exact released

/-- A new object whose number is free and accepted by a scan. -/
theorem Tidy.newObj (tidy : table.Tidy) (number : Option Nat) (type : ObjType) (memory : Memory)
    (given : ∀ given, number = some given → given ≤ maxObjectId ∧ table.lookup given = none)
    (room : number = none → table.HasRoom) : (table.newObj number type memory).2.Tidy := by
  cases number with
  | none =>
    obtain ⟨hashed, -, fresh, storable⟩ := tidy.newObjId
    have named : table.newObjId.2.Tidy := tidy
    have entered : (table.newObjId.2.hashObj { objId := table.newObjId.1 }).Tidy :=
      named.hashObj (storable.mpr (room rfl)) (hashed.symm ▸ fresh)
    simp only [ObjTable.newObj]
    split
    · exact named
    · split
      · exact named
      · exact entered
  | some number =>
    obtain ⟨storable, absent⟩ := given number rfl
    have fresh : number ∉ (table.objBucket (hashFn number)).list.map HashedObj.objId := by
      intro mem
      obtain ⟨obj, obj_mem, same⟩ := List.mem_map.mp mem
      have differs := List.find?_eq_none.mp absent obj obj_mem
      exact differs (decide_eq_true same)
    simp only [ObjTable.newObj]
    split
    · exact tidy
    · split
      · exact tidy
      · exact tidy.hashObj storable fresh

theorem initial_tidy : initial.Tidy := by
  have empty : ({} : ObjTable).Tidy := fun _ => ⟨nofun, List.nodup_nil, nofun, rfl⟩
  have made (table : ObjTable) (tidy : table.Tidy) (number : Nat) (storable : number ≤ maxObjectId)
      (absent : table.lookup number = none) : (table.newObj (some number) .directory {}).2.Tidy :=
    tidy.newObj (some number) .directory {}
      (by rintro _ ⟨⟩; exact ⟨storable, absent⟩) nofun
  have unlinked := made {} empty objectIdUnlinked (by decide) (by decide)
  have deleted := made _ unlinked objectIdDeleted (by decide) (by decide)
  have root := made _ deleted objectIdRoot (by decide) (by decide)
  exact made _ root objectIdLostNFound (by decide) (by decide)

/-! ## The numbers in the table -/

variable (table) in
/-- The numbers of all objects in the table. -/
def numbers : List Nat :=
  (List.range nObjectBuckets).flatMap fun bucket =>
    (table.objBucket bucket).list.map HashedObj.objId

variable (table) in
/-- No two objects have the same number, and a scan accepts the numbers. -/
def Storable : Prop := table.numbers.Nodup ∧ ∀ number ∈ table.numbers, number ≤ maxObjectId

theorem mem_numbers {number : Nat} :
    number ∈ table.numbers ↔ ∃ bucket < nObjectBuckets, ∃ obj ∈ (table.objBucket bucket).list,
      obj.objId = number := by
  simp only [numbers, List.mem_flatMap, List.mem_range, List.mem_map]

theorem Tidy.storable (tidy : table.Tidy) : table.Storable := by
  refine ⟨?_, fun number mem => ?_⟩
  · refine List.nodup_flatMap.mpr ⟨fun bucket _ => (tidy bucket).nodup, ?_⟩
    refine List.nodup_range.imp fun {first second} differs => ?_
    intro number first_mem second_mem
    obtain ⟨obj, mem, rfl⟩ := List.mem_map.mp first_mem
    obtain ⟨other, other_mem, same⟩ := List.mem_map.mp second_mem
    refine differs ?_
    rw [← (tidy first).hashed obj mem, ← (tidy second).hashed other other_mem, same]
  · obtain ⟨bucket, -, obj, obj_mem, rfl⟩ := mem_numbers.mp mem
    exact (tidy bucket).storable obj obj_mem

theorem Tidy.newObjId_not_mem (tidy : table.Tidy) : table.newObjId.1 ∉ table.numbers := by
  obtain ⟨hashed, -, fresh, -⟩ := tidy.newObjId
  intro mem
  obtain ⟨bucket, -, obj, obj_mem, same⟩ := mem_numbers.mp mem
  have bucket_eq : bucket = table.niceBucket := by
    rw [← (tidy bucket).hashed obj obj_mem, same, hashed]
  exact fresh (List.mem_map.mpr ⟨obj, bucket_eq ▸ obj_mem, same⟩)

end ObjTable

/-! ## Runs -/

/-- An operation on the objects of a device. -/
inductive TableStep
  | createObj (type : ObjType) (memory : ObjTable.Memory) (headerWritten : Bool)
  /-- An object is found on the flash, or in a checkpoint, while the device is being mounted. -/
  | findOrCreateByNumber (number : Nat) (type : ObjType) (memory : ObjTable.Memory)
  | freeObj (number : Nat)
  | holdObj (number : Nat)
  | handleDeferedFree (number : Nat)
  /-- Unmounting forgets all objects. -/
  | mount

namespace TableStep

open ObjTable Execution

/-- Carry out one operation. -/
def exec : TableStep → ObjTable → ObjTable
  | createObj type memory headerWritten, table => (table.createObj type memory headerWritten).2
  | findOrCreateByNumber number type memory, table =>
    (table.findOrCreateByNumber number type memory).2
  | freeObj number, table => table.freeObj number
  | holdObj number, table => table.holdObj number
  | handleDeferedFree number, table => table.handleDeferedFree number
  | mount, _ => initial

/-- A mount looks for objects by numbers that a scan accepts, and while no object waits to be freed.
-/
def Issued : TableStep → ObjTable → Prop
  | findOrCreateByNumber number _ _, table => 0 < number ∧ number ≤ maxObjectId ∧
    ∀ bucket, ∀ obj ∈ (table.objBucket bucket).list, obj.deferedFree = false
  | _, _ => True

/-- An object is created only when some number that a scan accepts is free in the bucket chosen. -/
def Fits : TableStep → ObjTable → Prop
  | createObj _ _ _, table => table.HasRoom
  | step, table => step.Issued table

/-- Every operation keeps the buckets tidy. -/
theorem exec_tidy (step : TableStep) (table : ObjTable) (fits : step.Fits table)
    (tidy : table.Tidy) : (step.exec table).Tidy := by
  cases step with
  | createObj type memory headerWritten =>
    have made := tidy.newObj none type memory nofun fun _ => fits
    simp only [exec, ObjTable.createObj]
    split
    · exact made
    · split
      · exact made
      · exact made.freeObj _
  | findOrCreateByNumber number type memory =>
    obtain ⟨positive, storable, live⟩ := fits
    simp only [exec, ObjTable.findOrCreateByNumber]
    split
    case isTrue => exact tidy
    case isFalse missing =>
      refine tidy.newObj (some number) type memory ?_ nofun
      rintro _ ⟨⟩
      refine ⟨storable, ?_⟩
      cases found : table.lookup number with
      | none => rfl
      | some obj =>
        have mem := List.mem_of_find?_eq_some found
        have here : (table.findByNumber number).isSome = true := by
          simp [findByNumber, found, live _ obj mem]
        exact absurd ⟨positive, here⟩ missing
  | freeObj number => exact tidy.freeObj number
  | holdObj number => exact tidy.modifyObj number _ fun _ => rfl
  | handleDeferedFree number => exact tidy.handleDeferedFree number
  | mount => exact initial_tidy

/-- As long as objects are created only while a number that a scan accepts is free in the bucket
chosen, no two objects ever have the same number and all numbers are accepted by a scan.  The number
of the next object is one that no object has and that is not reserved, and a scan accepts it exactly
when such a number is free. -/
theorem numbers_of_run (steps : List TableStep) (fits : Guarded exec Fits steps initial) :
    let table := run exec steps initial
    table.Storable ∧ table.newObjId.1 ∉ table.numbers ∧ table.newObjId.1 ∉ reservedIds ∧
      (table.newObjId.1 ≤ maxObjectId ↔ table.HasRoom) := by
  have tidy := run_invariant exec_tidy fits initial_tidy
  generalize run exec steps initial = table at *
  obtain ⟨-, above, -, storable⟩ := tidy.newObjId
  refine ⟨tidy.storable, tidy.newObjId_not_mem, fun reserved => ?_, storable⟩
  have below : ∀ number ∈ reservedIds, number < nObjectBuckets := by decide
  exact absurd (below _ reserved) (Nat.not_lt_of_le above)

/-- A file is created and held, freed while it is held, and a directory is created. -/
theorem numbers_of_short_run :
    let table := run exec [createObj .file {} true, holdObj 257, freeObj 257,
      createObj .directory {} true] initial
    table.Storable ∧ table.newObjId.1 ∉ table.numbers ∧ table.newObjId.1 ∉ reservedIds ∧
      (table.newObjId.1 ≤ maxObjectId ↔ table.HasRoom) :=
  numbers_of_run _ ⟨⟨257, by decide, by decide, by decide +kernel, by decide +kernel⟩, trivial,
    trivial, ⟨258, by decide, by decide, by decide +kernel, by decide +kernel⟩, trivial⟩

/-- Creating an object puts one more number into the table, whatever number it is. -/
theorem length_numbers_createObj (table : ObjTable) :
    (exec (createObj .special {} true) table).numbers.length = table.numbers.length + 1 := by
  let load (table : ObjTable) : Nat :=
    ∑ bucket ∈ Finset.range nObjectBuckets, (table.objBucket bucket).list.length
  have length_eq (table : ObjTable) : table.numbers.length = load table := by
    rw [numbers, List.length_flatMap]
    simp only [List.length_map]
    rfl
  have inside : hashFn table.newObjId.1 ∈ Finset.range nObjectBuckets :=
    Finset.mem_range.mpr (Nat.mod_lt _ (by decide))
  have others : ∀ bucket ∈ (Finset.range nObjectBuckets).erase (hashFn table.newObjId.1),
      ((exec (createObj .special {} true) table).objBucket bucket).list.length =
        (table.objBucket bucket).list.length := by
    intro bucket mem
    have eq : (exec (createObj .special {} true) table).objBucket bucket =
        (table.newObjId.2.hashObj { objId := table.newObjId.1 }).objBucket bucket := rfl
    rw [eq, hashObj, modify_objBucket, if_neg (Finset.ne_of_mem_erase mem)]
    rfl
  have own : ((exec (createObj .special {} true) table).objBucket
      (hashFn table.newObjId.1)).list.length =
        (table.objBucket (hashFn table.newObjId.1)).list.length + 1 := by
    have eq : (exec (createObj .special {} true) table).objBucket (hashFn table.newObjId.1) =
        (table.newObjId.2.hashObj { objId := table.newObjId.1 }).objBucket
          (hashFn table.newObjId.1) := rfl
    rw [eq, hashObj, modify_objBucket, if_pos rfl]
    rfl
  rw [length_eq, length_eq]
  change ∑ bucket ∈ Finset.range nObjectBuckets, _ = ∑ bucket ∈ Finset.range nObjectBuckets, _ + 1
  rw [← Finset.add_sum_erase _ _ inside, ← Finset.add_sum_erase _ _ inside, own,
    Finset.sum_congr rfl others]
  omega

theorem length_numbers_replicate (count : Nat) (table : ObjTable) :
    (run exec (List.replicate count (createObj .special {} true)) table).numbers.length =
      table.numbers.length + count := by
  induction count generalizing table with
  | zero => rfl
  | succ count ih =>
    rw [List.replicate_succ, run_cons, ih, length_numbers_createObj]
    omega

/-- Some number is not accepted by a scan once there are more objects than numbers that it accepts.
-/
theorem crowded_not_storable :
    ¬(run exec (List.replicate 262141 (createObj .special {} true)) initial).Storable := by
  rintro ⟨nodup, storable⟩
  have inside : (run exec (List.replicate 262141 (createObj .special {} true)) initial).numbers ⊆
      List.range (maxObjectId + 1) := fun number mem =>
    List.mem_range.mpr (Nat.lt_succ_iff.mpr (storable number mem))
  have length := (nodup.subperm inside).length_le
  have start : initial.numbers.length = 4 := by decide +kernel
  rw [length_numbers_replicate, start, List.length_range, maxObjectId] at length
  omega

end TableStep

end Yaffs
