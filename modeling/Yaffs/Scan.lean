import Yaffs.Blocks

/-!
# Scanning

A mount without a checkpoint rebuilds everything from the flash.  The first pass over the blocks asks
for the state of each one.
-/

namespace Yaffs.Dev

variable {Flash : Type} (T : Tagger Flash) (dev : Dev Flash)

/-- State of a block found on the flash.  Two sequence numbers stand for states of their own. -/
def scannedState (state : BlockState) (seq : Nat) : BlockState :=
  if seq = sequenceBadBlock then .dead
  else if seq = sequenceCheckpointData then .checkpoint
  else state

/-- Store what was found of a block, and count it. -/
def noteScanned (block : Nat) (state : BlockState) (seq : Nat) : Dev Flash :=
  let dev := (dev.clearChunkBits block).modifyBlockInfo block fun info =>
    { info with pagesInUse := 0, softDelPages := 0, blockState := state, seqNumber := seq }
  match state with
  | .checkpoint => { dev with blocksInCheckpt := dev.blocksInCheckpt + 1 }
  | .empty =>
    { dev with
      nErasedBlocks := dev.nErasedBlocks + 1
      nFreeChunks := dev.nFreeChunks + dev.param.chunksPerBlock }
  | .needsScan =>
    if lowestSequenceNumber ≤ seq ∧ seq < highestSequenceNumber then
      { dev with seqNumber := max dev.seqNumber seq }
    else dev
  | _ => dev

/-- Is the block to be scanned? -/
def isToScan (state : BlockState) (seq : Nat) : Bool :=
  decide (state = .needsScan ∧ lowestSequenceNumber ≤ seq ∧ seq < highestSequenceNumber)

/-- The loop of `scanBlockStates`: the blocks to be scanned with their sequence numbers. -/
def scanBlockStatesLoop : List Nat → Dev Flash → List (Nat × Nat) × Dev Flash
  | [], dev => ([], dev)
  | block :: rest, dev =>
    let found := dev.queryBlock T block
    let state := scannedState found.1.1 found.1.2
    let others := scanBlockStatesLoop rest (found.2.noteScanned block state found.1.2)
    (if isToScan state found.1.2 then (found.1.2, block) :: others.1 else others.1, others.2)

/-- The first pass over the blocks. -/
def scanBlockStates : List (Nat × Nat) × Dev Flash :=
  scanBlockStatesLoop T dev.blockList
    { dev with seqNumber := lowestSequenceNumber, blocksInCheckpt := 0 }

end Yaffs.Dev
