import Yaffs.Chunks

/-!
# Tnodes

The look-up tree of a file.  A level 0 tnode packs sixteen page numbers into the words of its
memory, and an internal tnode has eight children.  The tree is as tall as its highest chunk needs.
-/

namespace Yaffs

/-- A level 0 tnode has sixteen entries. -/
instance neZeroSixteen : NeZero 16 := ⟨by decide⟩

/-- An internal tnode has eight children. -/
instance neZeroEight : NeZero 8 := ⟨by decide⟩

/-! ## Level 0 tnodes -/

/-- A 32-bit word without the bits of a mask. -/
def wordWithout (word mask : Nat) : Nat := word &&& (0xffffffff ^^^ mask)

/-- Store a page number at a position of a level 0 tnode. -/
def loadTnode0 (width grpBits : Nat) (words : List Nat) (pos val : Nat) : List Nat :=
  let val := val >>> grpBits
  let bitInMap := pos % 16 * width
  let wordInMap := bitInMap / 32
  let bitInWord := bitInMap % 32
  let tnodeMask := 2 ^ width - 1
  let mask := tnodeMask <<< bitInWord % 2 ^ 32
  let words := words.set wordInMap
    (wordWithout (words.getD wordInMap 0) mask ||| (mask &&& (val <<< bitInWord % 2 ^ 32)))
  if 32 - bitInWord < width then
    let bitInWord := 32 - bitInWord
    let mask := tnodeMask >>> bitInWord
    words.set (wordInMap + 1)
      (wordWithout (words.getD (wordInMap + 1) 0) mask ||| (mask &&& (val >>> bitInWord)))
  else words

/-- First page of the group stored at a position of a level 0 tnode. -/
def getGroupBase (width grpBits : Nat) (words : List Nat) (pos : Nat) : Nat :=
  let bitInMap := pos % 16 * width
  let wordInMap := bitInMap / 32
  let bitInWord := bitInMap % 32
  let low := words.getD wordInMap 0 >>> bitInWord
  let val :=
    if 32 - bitInWord < width then
      low ||| (words.getD (wordInMap + 1) 0 <<< (32 - bitInWord) % 2 ^ 32)
    else low
  (val &&& (2 ^ width - 1)) <<< grpBits % 2 ^ 32

/-! ## Trees -/

/-- A tnode pointer.  The level says which of the two kinds of memory it points to. -/
inductive Tnode
  | null
  | leaf (words : List Nat)
  | node (children : Fin 8 → Tnode)

namespace Tnode

/-- Is the pointer null? -/
def isNull : Tnode → Bool
  | null => true
  | _ => false

/-- A fresh level 0 tnode. -/
def blank (tnodeSize : Nat) : Tnode := leaf (List.replicate (tnodeSize / 4) 0)

/-- Which child of a tnode at `level + 1` leads to a chunk. -/
def childIndex (level chunkId : Nat) : Fin 8 := Fin.ofNat 8 (chunkId >>> (4 + 3 * level))

/-- The words of the level 0 tnode of a chunk, if the tree has it. -/
def find : Nat → Tnode → Nat → Option (List Nat)
  | 0, leaf words, _ => some words
  | level + 1, node children, chunkId => find level (children (childIndex level chunkId)) chunkId
  | _, _, _ => none

/-- Change the words of the level 0 tnode of a chunk. -/
def modify (change : List Nat → List Nat) : Nat → Tnode → Nat → Tnode
  | 0, leaf words, _ => leaf (change words)
  | level + 1, node children, chunkId =>
    let index := childIndex level chunkId
    node (Function.update children index (modify change level (children index) chunkId))
  | _, tnode, _ => tnode

end Tnode

/-- Highest chunk number of a file. -/
def maxChunkId : Nat := 2 ^ 28 - 1

/-- Highest level of a tnode. -/
def tnodesMaxLevel : Nat := 8

/-- Number of three-bit shifts until the value is zero.  A 32-bit value needs at most eleven. -/
def shiftsToZero : Nat → Nat → Nat
  | 0, _ => 0
  | fuel + 1, value => if value = 0 then 0 else shiftsToZero fuel (value >>> 3) + 1

/-- Levels needed above level 0 for a chunk. -/
def requiredDepth (chunkId : Nat) : Nat := shiftsToZero 11 (chunkId >>> 4)

theorem shiftsToZero_le_iff {fuel value : Nat} (bound : value < 8 ^ fuel) (level : Nat) :
    shiftsToZero fuel value ≤ level ↔ value < 8 ^ level := by
  induction fuel generalizing value level with
  | zero =>
    have zero : value = 0 := by simpa using bound
    simp [shiftsToZero, zero]
  | succ fuel ih =>
    rw [shiftsToZero]
    split
    case isTrue zero => simp [zero]
    case isFalse nonzero =>
      cases level with
      | zero => simpa using nonzero
      | succ level =>
        have shifted : value >>> 3 = value / 8 := Nat.shiftRight_eq_div_pow value 3
        have smaller : value / 8 < 8 ^ fuel := by
          rw [pow_succ] at bound
          exact Nat.div_lt_of_lt_mul (by omega)
        rw [Nat.add_le_add_iff_right, shifted, ih smaller, pow_succ, Nat.div_lt_iff_lt_mul (by omega)]

/-- Number of chunks of a tree with a number of levels above level 0. -/
def chunksOfLevel (level : Nat) : Nat := 16 * 8 ^ level

theorem chunksOfLevel_succ (level : Nat) : chunksOfLevel (level + 1) = 8 * chunksOfLevel level := by
  rw [chunksOfLevel, chunksOfLevel, pow_succ]
  ring

theorem chunksOfLevel_pos (level : Nat) : 0 < chunksOfLevel level := by
  rw [chunksOfLevel]
  positivity

/-- All chunks of a tree that is not too tall have sane numbers. -/
theorem sane_of_lt {level chunkId : Nat} (low : level ≤ tnodesMaxLevel)
    (bound : chunkId < chunksOfLevel level) : chunkId ≤ maxChunkId := by
  have power : 8 ^ level ≤ 8 ^ 8 := Nat.pow_le_pow_right (by omega) low
  rw [chunksOfLevel] at bound
  rw [maxChunkId]
  omega

theorem requiredDepth_le_iff {chunkId : Nat} (sane : chunkId ≤ maxChunkId) (level : Nat) :
    requiredDepth chunkId ≤ level ↔ chunkId < chunksOfLevel level := by
  have shifted : chunkId >>> 4 = chunkId / 16 := Nat.shiftRight_eq_div_pow chunkId 4
  have bound : chunkId / 16 < 8 ^ 11 := by
    rw [maxChunkId] at sane
    omega
  rw [requiredDepth, shifted, shiftsToZero_le_iff bound, Nat.div_lt_iff_lt_mul (by omega),
    chunksOfLevel, mul_comm]

theorem childIndex_val (level chunkId : Nat) :
    (Tnode.childIndex level chunkId).val = chunkId / chunksOfLevel level % 8 := by
  have power : 2 ^ (4 + 3 * level) = chunksOfLevel level := by
    rw [pow_add, pow_mul]
    rfl
  rw [Tnode.childIndex, Fin.val_ofNat, Nat.shiftRight_eq_div_pow, power]

/-- The chunks of a lower tree are those below the first child. -/
theorem childIndex_eq_zero {level chunkId : Nat} (bound : chunkId < chunksOfLevel level) :
    Tnode.childIndex level chunkId = 0 := by
  apply Fin.ext
  rw [childIndex_val, Nat.div_eq_of_lt bound]
  rfl

theorem childIndex_ne_zero {level chunkId : Nat} (beyond : ¬chunkId < chunksOfLevel level)
    (within : chunkId < chunksOfLevel (level + 1)) : Tnode.childIndex level chunkId ≠ 0 := by
  intro zero
  have digit := congrArg Fin.val zero
  rw [childIndex_val] at digit
  rw [chunksOfLevel_succ, mul_comm] at within
  have small := Nat.div_lt_of_lt_mul within
  have large := Nat.div_pos (not_lt.mp beyond) (chunksOfLevel_pos level)
  simp only [Fin.val_zero] at digit
  omega

/-- The part of an object that only a file has. -/
structure FileVar where
  /-- Size as written, with the data in the cache. -/
  fileSize : Nat := 0
  /-- Size as stored on the flash. -/
  storedSize : Nat := 0
  /-- Size that the file has been shrunk to, while it is scanned. -/
  shrinkSize : Nat := 0
  topLevel : Nat := 0
  top : Tnode := .null

/-- The level 0 tnode of a chunk, if the tree is tall enough and has it. -/
def FileVar.findTnode0 (file : FileVar) (chunkId : Nat) : Option (List Nat) :=
  if tnodesMaxLevel < file.topLevel ∨ maxChunkId < chunkId ∨
      file.topLevel < requiredDepth chunkId then none
  else file.top.find file.topLevel chunkId

namespace Dev

variable {Flash : Type} (dev : Dev Flash)

/-- Allocate a tnode. -/
def getTnode : Bool × Dev Flash :=
  let ok := dev.allocations.headD true
  (ok,
    { dev with
      allocations := dev.allocations.tail
      nTnodes := if ok then dev.nTnodes + 1 else dev.nTnodes
      checkpointBlocksRequired := 0 })

/-- Free a tnode. -/
def freeTnode : Dev Flash := { dev with nTnodes := dev.nTnodes - 1, checkpointBlocksRequired := 0 }

/-- Make a tree taller by a number of levels. -/
def growTree : Nat → FileVar → Dev Flash → Bool × FileVar × Dev Flash
  | 0, file, dev => (true, file, dev)
  | more + 1, file, dev =>
    let allocated := dev.getTnode
    if allocated.1 then
      let top := Tnode.node (Function.update (fun _ => .null) 0 file.top)
      growTree more { file with topLevel := file.topLevel + 1, top } allocated.2
    else (false, file, allocated.2)

/-- Walk down from a tnode at a level to level 0 and add the tnodes that are missing.  A level 0
tnode passed in replaces the one that is there. -/
def addFindFrom (passed : Option (List Nat)) (chunkId : Nat) :
    Nat → Tnode → Dev Flash → Bool × Tnode × Dev Flash
  | 0, .leaf words, dev => (true, .leaf words, dev)
  | 1, .node children, dev =>
    let index := Tnode.childIndex 0 chunkId
    match passed with
    | some words =>
      let dev := if (children index).isNull then dev else dev.freeTnode
      (true, .node (Function.update children index (.leaf words)), dev)
    | none =>
      if (children index).isNull then
        let allocated := dev.getTnode
        if allocated.1 then
          (true, .node (Function.update children index (.blank dev.tnodeSize)), allocated.2)
        else (false, .node children, allocated.2)
      else (true, .node children, dev)
  | level + 2, .node children, dev =>
    let index := Tnode.childIndex (level + 1) chunkId
    let allocated := if (children index).isNull then dev.getTnode else (true, dev)
    if allocated.1 then
      let child := if (children index).isNull then .node fun _ => .null else children index
      let below := addFindFrom passed chunkId (level + 1) child allocated.2
      (below.1, .node (Function.update children index below.2.1), below.2.2)
    else (false, .node children, allocated.2)
  | _, tnode, dev => (false, tnode, dev)

/-- Have the level 0 tnode of a chunk in the tree: make the tree tall enough, then add what is
missing on the way down. -/
def addFindTnode0 (file : FileVar) (chunkId : Nat) (passed : Option (List Nat)) :
    Bool × FileVar × Dev Flash :=
  if tnodesMaxLevel < file.topLevel ∨ maxChunkId < chunkId then (false, file, dev)
  else
    let grown := growTree (requiredDepth chunkId - file.topLevel) file dev
    if ¬grown.1 then grown
    else
      let file := grown.2.1
      let dev := grown.2.2
      if file.topLevel = 0 then
        match file.top, passed with
        | .leaf old, some words =>
          -- The words of the tnode passed in are copied, the rest of its memory is not.
          let used := dev.tnodeWidth * 16 / 32
          (true, { file with top := .leaf (words.take used ++ old.drop used) }, dev.freeTnode)
        | .leaf old, none => (true, { file with top := .leaf old }, dev)
        | top, _ => (false, { file with top }, dev)
      else
        let found := addFindFrom passed chunkId file.topLevel file.top dev
        (found.1, { file with top := found.2.1 }, found.2.2)

/-- Only the allocation of tnodes has changed, and with it the estimate of the checkpoint size. -/
def TnodesOnly (dev after : Dev Flash) : Prop :=
  ∃ allocations nTnodes checkpointBlocksRequired,
    after = { dev with allocations, nTnodes, checkpointBlocksRequired }

namespace TnodesOnly

theorem refl : TnodesOnly dev dev := ⟨_, _, _, rfl⟩

theorem trans {first second third : Dev Flash} (left : TnodesOnly first second)
    (right : TnodesOnly second third) : TnodesOnly first third := by
  obtain ⟨_, _, _, rfl⟩ := left
  obtain ⟨_, _, _, rfl⟩ := right
  exact ⟨_, _, _, rfl⟩

end TnodesOnly

theorem getTnode_only : TnodesOnly dev dev.getTnode.2 := ⟨_, _, _, rfl⟩

theorem freeTnode_only : TnodesOnly dev dev.freeTnode := ⟨_, _, _, rfl⟩

theorem growTree_only (more : Nat) (file : FileVar) (dev : Dev Flash) :
    TnodesOnly dev (growTree more file dev).2.2 := by
  induction more generalizing file dev with
  | zero => exact .refl dev
  | succ more ih =>
    simp only [growTree]
    split
    · exact dev.getTnode_only.trans (ih _ _)
    · exact dev.getTnode_only

theorem addFindFrom_only (passed : Option (List Nat)) (chunkId level : Nat) (tnode : Tnode)
    (dev : Dev Flash) : TnodesOnly dev (addFindFrom passed chunkId level tnode dev).2.2 := by
  have freed (keep : Bool) (dev : Dev Flash) :
      TnodesOnly dev (if keep then dev else dev.freeTnode) := by
    cases keep
    · exact dev.freeTnode_only
    · exact .refl dev
  have allocated (needed : Bool) (dev : Dev Flash) :
      TnodesOnly dev (if needed then dev.getTnode else (true, dev)).2 := by
    cases needed
    · exact .refl dev
    · exact dev.getTnode_only
  fun_induction addFindFrom passed chunkId level tnode dev with
  | case1 => exact .refl _
  | case2 => exact freed _ _
  | case3 => exact getTnode_only _
  | case4 => exact getTnode_only _
  | case5 => exact .refl _
  | case6 _ _ _ _ _ _ _ _ ih => exact (allocated _ _).trans ih
  | case7 => exact allocated _ _
  | case8 => exact .refl _

theorem addFindTnode0_only (file : FileVar) (chunkId : Nat) (passed : Option (List Nat)) :
    TnodesOnly dev (dev.addFindTnode0 file chunkId passed).2.2 := by
  simp only [addFindTnode0]
  split
  · exact .refl dev
  · have grown := growTree_only (requiredDepth chunkId - file.topLevel) file dev
    split
    · exact grown
    · split
      · split
        · exact grown.trans (freeTnode_only _)
        · exact grown
        · exact grown
      · exact grown.trans (addFindFrom_only passed chunkId _ _ _)

end Dev

end Yaffs
