import Yaffs.Tnodes
import Mathlib.Algebra.BigOperators.Fin
import Mathlib.Algebra.Order.BigOperators.Group.Multiset

/-!
# File trees and the memory of their tnodes

Tnodes are taken from a list of free ones, which is filled up from the memory of the host when it is
empty.  Here a tnode in a tree says where it lies, so that it can be told which of the tnodes that
were ever made are free, which are in a tree, and which are neither.  A level 0 tnode holds sixteen
numbers of the tnode width each.
-/

namespace Yaffs

/-! ## The allocator -/

/-- The tnodes of a device, numbered in the order in which they were made. -/
structure TnodeMemory where
  /-- Tnodes in use, as the device counts them. -/
  nTnodes : Int := 0
  /-- Estimate of the size of a checkpoint, zero for none. -/
  checkpointBlocksRequired : Int := 0
  nTnodesCreated : Nat := 0
  /-- Free tnodes, the next one first. -/
  freeTnodes : List Nat := []
  /-- Answers of the coming calls of `kmalloc`, each of which may fail.  Later calls succeed. -/
  kmallocs : List Bool := []
deriving DecidableEq, Repr

/-- Number of tnodes that are made at once. -/
def allocationNTnodes : Nat := 100

namespace TnodeMemory

variable (mem : TnodeMemory)

/-- Make free tnodes.  They stay even if there is no memory to record them as one piece. -/
def createTnodes (count : Nat) : TnodeMemory :=
  if mem.kmallocs.headD true then
    { mem with
      nTnodesCreated := mem.nTnodesCreated + count
      freeTnodes := List.range' mem.nTnodesCreated count ++ mem.freeTnodes
      kmallocs := mem.kmallocs.drop 2 }
  else { mem with kmallocs := mem.kmallocs.tail }

/-- Take a free tnode. -/
def allocRawTnode : Option Nat × TnodeMemory :=
  let mem := if mem.freeTnodes.isEmpty then mem.createTnodes allocationNTnodes else mem
  match mem.freeTnodes with
  | [] => (none, mem)
  | tnode :: rest => (some tnode, { mem with freeTnodes := rest })

/-- Put a tnode back, unless it is null. -/
def freeRawTnode (tnode : Option Nat) : TnodeMemory :=
  { mem with
    freeTnodes := tnode.toList ++ mem.freeTnodes
    checkpointBlocksRequired := 0 }

/-- Take a tnode into use. -/
def getTnode : Option Nat × TnodeMemory :=
  let taken := mem.allocRawTnode
  let mem := taken.2
  (taken.1,
    { mem with
      nTnodes := if taken.1.isSome then mem.nTnodes + 1 else mem.nTnodes
      checkpointBlocksRequired := 0 })

/-- Free a tnode.  The count goes down for a null pointer as well. -/
def freeTnode (tnode : Option Nat) : TnodeMemory :=
  let mem := mem.freeRawTnode tnode
  { mem with nTnodes := mem.nTnodes - 1, checkpointBlocksRequired := 0 }

end TnodeMemory

/-! ## Trees -/

/-- A tnode pointer, with everything below it. -/
inductive FileTnode
  | null
  | leaf (tnode : Nat) (groups : Fin 16 → Nat)
  | node (tnode : Nat) (children : Fin 8 → FileTnode)

/-- The look-up tree of a file. -/
structure FileTree where
  topLevel : Nat := 0
  top : FileTnode := .null

namespace FileTnode

/-- Is the pointer null? -/
def isNull : FileTnode → Bool
  | null => true
  | _ => false

/-- Where the tnode lies. -/
def address : FileTnode → Option Nat
  | null => none
  | leaf tnode _ => some tnode
  | node tnode _ => some tnode

/-- A fresh tnode at a level. -/
def blank (level : Nat) : Option Nat → FileTnode
  | none => null
  | some tnode => if level = 0 then leaf tnode fun _ => 0 else node tnode fun _ => null

/-- The tnodes of a tree. -/
def tnodes : FileTnode → Multiset Nat
  | null => 0
  | leaf tnode _ => {tnode}
  | node tnode children => tnode ::ₘ ∑ i, (children i).tnodes

/-- The numbers in the level 0 tnode of a chunk. -/
def find : Nat → FileTnode → Nat → Option (Fin 16 → Nat)
  | 0, leaf _ groups, _ => some groups
  | level + 1, node _ children, chunkId =>
    find level (children (Tnode.childIndex level chunkId)) chunkId
  | _, _, _ => none

/-- Store a number at the position of a chunk in its level 0 tnode. -/
def loadTnode0 (group : Nat) : Nat → FileTnode → Nat → FileTnode
  | 0, leaf tnode groups, chunkId =>
    leaf tnode (Function.update groups (Fin.ofNat 16 chunkId) group)
  | level + 1, node tnode children, chunkId =>
    let index := Tnode.childIndex level chunkId
    node tnode
      (Function.update children index (loadTnode0 group level (children index) chunkId))
  | _, tnode, _ => tnode

/-- Walk down from a tnode at a level to level 0 and add the tnodes that are missing. -/
def addFindFrom (chunkId : Nat) :
    Nat → FileTnode → TnodeMemory → Bool × FileTnode × TnodeMemory
  | 0, leaf tnode groups, mem => (true, leaf tnode groups, mem)
  | level + 1, node tnode children, mem =>
    let index := Tnode.childIndex level chunkId
    let child : FileTnode × TnodeMemory :=
      if (children index).isNull then
        let taken := mem.getTnode
        (blank level taken.1, taken.2)
      else (children index, mem)
    if child.1.isNull then (false, node tnode children, child.2)
    else
      let below := addFindFrom chunkId level child.1 child.2
      (below.1, node tnode (Function.update children index below.2.1), below.2.2)
  | _, tnode, mem => (false, tnode, mem)

/-- Prune the part of a tree below a tnode.  The tnode itself may be freed only if `del0` is set,
which is passed on to the first child alone. -/
def pruneWorker : Nat → FileTnode → Bool → TnodeMemory → FileTnode × TnodeMemory
  | 0, leaf tnode groups, del0, mem =>
    if (∀ i, groups i = 0) ∧ del0 then (null, mem.freeTnode (some tnode))
    else (leaf tnode groups, mem)
  | level + 1, node tnode children, del0, mem =>
    let pruned := (List.finRange 8).foldl
      (fun (state : (Fin 8 → FileTnode) × TnodeMemory) i =>
        let k := if i.val = 0 then del0 else false
        let child := pruneWorker level (state.1 i) k state.2
        (Function.update state.1 i child.1, child.2))
      (children, mem)
    if (∀ i, (pruned.1 i).isNull) ∧ del0 then (null, pruned.2.freeTnode (some tnode))
    else (node tnode pruned.1, pruned.2)
  | _, tnode, _, mem => (tnode, mem)

/-- Take off the top as long as it has no child but the first. -/
def shorten : Nat → FileTnode → TnodeMemory → FileTree × TnodeMemory
  | level + 1, node tnode children, mem =>
    if ∀ i, i ≠ 0 → (children i).isNull then
      shorten level (children 0) (mem.freeTnode (some tnode))
    else ({ topLevel := level + 1, top := node tnode children }, mem)
  | level, top, mem => ({ topLevel := level, top }, mem)

/-- Zero the numbers of all level 0 tnodes and free everything below a tnode. -/
def softDelWorker : Nat → FileTnode → TnodeMemory → Bool × FileTnode × TnodeMemory
  | _, null, mem => (true, null, mem)
  | 0, leaf tnode _, mem => (true, leaf tnode fun _ => 0, mem)
  | level + 1, node tnode children, mem =>
    let freed := (List.finRange 8).reverse.foldl
      (fun (state : Bool × (Fin 8 → FileTnode) × TnodeMemory) i =>
        if state.1 ∧ ¬(state.2.1 i).isNull then
          let child := softDelWorker level (state.2.1 i) state.2.2
          if child.1 then
            (true, Function.update state.2.1 i null, child.2.2.freeTnode child.2.1.address)
          else (false, Function.update state.2.1 i child.2.1, child.2.2)
        else state)
      (true, children, mem)
    (freed.1, node tnode freed.2.1, freed.2.2)
  | _, tnode, mem => (true, tnode, mem)

end FileTnode

namespace FileTree

/-- The numbers in the level 0 tnode of a chunk, if the tree is tall enough and has it. -/
def findTnode0 (tree : FileTree) (chunkId : Nat) : Option (Fin 16 → Nat) :=
  if tnodesMaxLevel < tree.topLevel ∨ maxChunkId < chunkId ∨
      tree.topLevel < requiredDepth chunkId then none
  else tree.top.find tree.topLevel chunkId

/-- Make a tree taller by a number of levels. -/
def grow : Nat → FileTree → TnodeMemory → Bool × FileTree × TnodeMemory
  | 0, tree, mem => (true, tree, mem)
  | more + 1, tree, mem =>
    let taken := mem.getTnode
    match taken.1 with
    | none => (false, tree, taken.2)
    | some tnode =>
      grow more
        { topLevel := tree.topLevel + 1
          top := .node tnode (Function.update (fun _ => .null) 0 tree.top) }
        taken.2

/-- Have the level 0 tnode of a chunk in the tree: make the tree tall enough, then add what is
missing on the way down. -/
def addFindTnode0 (tree : FileTree) (chunkId : Nat) (mem : TnodeMemory) :
    Bool × FileTree × TnodeMemory :=
  if tnodesMaxLevel < tree.topLevel ∨ maxChunkId < chunkId then (false, tree, mem)
  else
    let grown := grow (requiredDepth chunkId - tree.topLevel) tree mem
    if grown.1 then
      let tree := grown.2.1
      let found := tree.top.addFindFrom chunkId tree.topLevel grown.2.2
      (found.1, { tree with top := found.2.1 }, found.2.2)
    else grown

/-- Free what is beyond the end of a file that has been cut off. -/
def pruneTree (tree : FileTree) (mem : TnodeMemory) : FileTree × TnodeMemory :=
  if tree.topLevel < 1 then (tree, mem)
  else
    let pruned := tree.top.pruneWorker tree.topLevel false mem
    pruned.1.shorten tree.topLevel pruned.2

end FileTree

end Yaffs
