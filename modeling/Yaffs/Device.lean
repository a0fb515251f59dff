import Yaffs.Types
import Yaffs.Library.Tally
import Mathlib.Order.Interval.Finset.Nat

/-!
# The device and its flash

The flash is reached through the function pointers of the tags handler and of the driver only, so
both are a parameter: a `Tagger` over an arbitrary type of flash contents.  The device record holds
the fields of `struct yaffs_dev` that the block, checkpoint and collection code works on.

Every call that programs a page, erases a block, marks one bad or retires one is also recorded in
`log`, with the layer that issued it and the state of the checkpoint at that moment.  The log is
read by theorems only, never by the modelled code.
-/

namespace Yaffs

/-- The tags handler and driver functions, over flash contents of type `Flash`.  A `none` data
pointer is a null pointer, a negative chunk or block lies before the device's first one, and an
answer may be anything at all, also after a success. -/
structure Tagger (Flash : Type) where
  /-- `write_chunk_tags_fn`: program one page. -/
  writeChunkTags : Flash → Int → Option Buf → ExtTags → Bool × Flash
  /-- `read_chunk_tags_fn`: read one page with its tags. -/
  readChunkTags : Flash → Int → (Bool × Buf × ExtTags) × Flash
  /-- `query_block_fn`: state and sequence number of a block. -/
  queryBlock : Flash → Int → (BlockState × Nat) × Flash
  /-- `mark_bad_fn`. -/
  markBad : Flash → Int → Bool × Flash
  /-- `drv_erase_fn`. -/
  eraseBlock : Flash → Int → Bool × Flash

/-- The part of the code that issued a flash operation. -/
inductive Layer
  | guts
  | checkpt
deriving DecidableEq, Repr

/-- A flash operation that changes the medium, in device numbering, or the retirement of a block,
which may leave the medium alone. -/
inductive FlashOp
  | program (chunk : Int)
  | erase (block : Nat)
  | markBad (block : Nat)
  | retire (block : Nat)
deriving DecidableEq, Repr

/-- A logged flash operation with the checkpoint, the block states and the sequence numbers of the
blocks at the moment of the call. -/
structure Event where
  layer : Layer
  op : FlashOp
  /-- Tags of a page that is programmed. -/
  tags : ExtTags := {}
  isCheckpointed : Bool
  blocksInCheckpt : Nat
  blockState : Nat → BlockState
  blockSeq : Nat → Nat

/-- The fields of `struct yaffs_dev` used by the device layer. -/
structure Dev (Flash : Type) where
  param : Param
  flash : Flash
  log : List Event := []
  /-- Data bytes in a chunk, less than the whole with inband tags. -/
  dataBytesPerChunk : Nat := 2048
  tnodeSize : Nat := 64
  /-- Bits of an entry of a level 0 tnode. -/
  tnodeWidth : Nat := 16
  /-- Bits dropped from a page number before it is entered in a tnode. -/
  chunkGrpBits : Nat := 0
  /-- Results of the coming allocations of tnodes; all later ones succeed. -/
  allocations : List Bool := []
  readOnly : Bool := false
  isCheckpointed : Bool := false
  swapEndian : Bool := false
  internalStartBlock : Nat := 1
  internalEndBlock : Nat := 1
  blockOffset : Nat := 0
  chunkOffset : Nat := 0
  -- Checkpoint stream.
  checkptPageSeq : Nat := 0
  checkptByteCount : Nat := 0
  checkptByteOffs : Nat := 0
  checkptBuffer : Option Buf := none
  checkptOpenWrite : Bool := false
  blocksInCheckpt : Nat := 0
  checkptCurChunk : Int := 0
  checkptCurBlock : Int := 0
  checkptNextBlock : Int := 0
  checkptBlockList : Option (List Int) := none
  checkptMaxBlocks : Nat := 0
  checkptSum : Nat := 0
  checkptXor : Nat := 0
  checkpointBlocksRequired : Int := 0
  -- Blocks.
  blockInfo : Nat → BlockInfo := fun _ => {}
  chunkBits : Nat → Nat → Bool := fun _ _ => false
  nErasedBlocks : Int := 0
  /-- The block being allocated off, `none` for a negative `alloc_block`. -/
  allocBlock : Option Nat := none
  allocPage : Nat := 0
  allocBlockFinder : Nat := 0
  nObj : Nat := 0
  nTnodes : Nat := 0
  nFreeChunks : Int := 0
  -- Garbage collection.
  gcDisable : Bool := false
  gcBlockFinder : Nat := 0
  gcDirtiest : Nat := 0
  gcPagesInUse : Nat := 0
  gcNotDone : Nat := 0
  gcBlock : Nat := 0
  gcChunk : Nat := 0
  gcSkip : Nat := 0
  gcCleanupList : List Nat := []
  hasPendingPrioritisedGc : Bool := false
  nDeletedFiles : Int := 0
  nUnlinkedFiles : Int := 0
  nBgDeletions : Int := 0
  seqNumber : Nat := 0
  oldestDirtySeq : Nat := 0
  oldestDirtyBlock : Nat := 0
  refreshSkip : Int := 0
  -- Block summaries.
  chunksPerSummary : Nat := 0
  sumTags : Option (Nat → SummaryTags) := none

namespace Dev

variable {Flash : Type} (T : Tagger Flash) (dev : Dev Flash)

/-- The blocks of the device. -/
def blocks : Finset Nat := Finset.Icc dev.internalStartBlock dev.internalEndBlock

@[simp]
theorem mem_blocks (block : Nat) :
    block ∈ dev.blocks ↔ dev.internalStartBlock ≤ block ∧ block ≤ dev.internalEndBlock := by
  simp [blocks]

/-- The blocks of the device in increasing order. -/
def blockList : List Nat :=
  (List.range (dev.internalEndBlock + 1 - dev.internalStartBlock)).map
    (dev.internalStartBlock + ·)

@[simp]
theorem mem_blockList (block : Nat) : block ∈ dev.blockList ↔ block ∈ dev.blocks := by
  simp only [blockList, List.mem_map, List.mem_range, mem_blocks]
  constructor
  · rintro ⟨index, index_lt, rfl⟩
    omega
  · intro bounds
    exact ⟨block - dev.internalStartBlock, by omega, by omega⟩

/-- State of a block. -/
def blockState (block : Nat) : BlockState := (dev.blockInfo block).blockState

/-! ## Block information and chunk bits -/

/-- Store the information of one block. -/
def setBlockInfo (block : Nat) (info : BlockInfo) : Dev Flash :=
  { dev with blockInfo := Function.update dev.blockInfo block info }

/-- Change the information of one block. -/
def modifyBlockInfo (block : Nat) (change : BlockInfo → BlockInfo) : Dev Flash :=
  dev.setBlockInfo block (change (dev.blockInfo block))

/-- Change the state of one block. -/
def setBlockState (block : Nat) (state : BlockState) : Dev Flash :=
  dev.modifyBlockInfo block fun info => { info with blockState := state }

theorem blockInfo_modifyBlockInfo (block other : Nat) (change : BlockInfo → BlockInfo) :
    (dev.modifyBlockInfo block change).blockInfo other =
      if other = block then change (dev.blockInfo block) else dev.blockInfo other := by
  simp only [modifyBlockInfo, setBlockInfo, Function.update_apply]

theorem blockState_modifyBlockInfo (block other : Nat) (change : BlockInfo → BlockInfo) :
    (dev.modifyBlockInfo block change).blockState other =
      if other = block then (change (dev.blockInfo block)).blockState
      else dev.blockState other := by
  rw [blockState, blockInfo_modifyBlockInfo]
  split <;> rfl

@[simp]
theorem blockState_setBlockState (block other : Nat) (state : BlockState) :
    (dev.setBlockState block state).blockState other =
      if other = block then state else dev.blockState other :=
  dev.blockState_modifyBlockInfo block other _

/-- Store one chunk bit. -/
def putChunkBit (block page : Nat) (bit : Bool) : Dev Flash :=
  { dev with
    chunkBits := Function.update dev.chunkBits block
      (Function.update (dev.chunkBits block) page bit) }

/-- Mark a page in use. -/
def setChunkBit (block page : Nat) : Dev Flash := dev.putChunkBit block page true

/-- Mark a page not in use. -/
def clearChunkBit (block page : Nat) : Dev Flash := dev.putChunkBit block page false

/-- Mark all pages of a block not in use. -/
def clearChunkBits (block : Nat) : Dev Flash :=
  { dev with chunkBits := Function.update dev.chunkBits block fun _ => false }

/-- Is the page in use? -/
def checkChunkBit (block page : Nat) : Bool := dev.chunkBits block page

/-- Is any page of the block in use? -/
def stillSomeChunks (block : Nat) : Bool :=
  (List.range dev.param.chunksPerBlock).any (dev.chunkBits block)

/-- Number of pages of the block that are in use. -/
def countChunkBits (block : Nat) : Int :=
  Tally.count (Finset.range dev.param.chunksPerBlock) fun page => dev.chunkBits block page = true

/-! ## Flash access -/

/-- The log entry of a flash operation issued now. -/
def entry (layer : Layer) (op : FlashOp) : Event :=
  { layer, op
    isCheckpointed := dev.isCheckpointed
    blocksInCheckpt := dev.blocksInCheckpt
    blockState := dev.blockState
    blockSeq := fun block => (dev.blockInfo block).seqNumber }

/-- Record a flash operation. -/
def emit (layer : Layer) (op : FlashOp) : Dev Flash :=
  { dev with log := dev.entry layer op :: dev.log }

/-- The log entry of a page programmed now. -/
def programEntry (layer : Layer) (chunk : Int) (tags : ExtTags) : Event :=
  { dev.entry layer (.program chunk) with tags }

/-- The page number known to the driver. -/
def applyChunkOffset (chunk : Int) : Int := chunk - dev.chunkOffset

/-- The block number known to the driver. -/
def applyBlockOffset (block : Nat) : Int := (block : Int) - dev.blockOffset

/-- Program one page through the tags handler. -/
def programPage (layer : Layer) (chunk : Int) (data : Option Buf) (tags : ExtTags) :
    Bool × Dev Flash :=
  let dev := { dev with log := dev.programEntry layer chunk tags :: dev.log }
  let answer := T.writeChunkTags dev.flash (dev.applyChunkOffset chunk) data tags
  (answer.1, { dev with flash := answer.2 })

/-- Read one page through the tags handler. -/
def readPage (chunk : Int) : (Bool × Buf × ExtTags) × Dev Flash :=
  let answer := T.readChunkTags dev.flash (dev.applyChunkOffset chunk)
  (answer.1, { dev with flash := answer.2 })

/-- Ask the tags handler for the state and sequence number of a block. -/
def queryBlock (block : Nat) : (BlockState × Nat) × Dev Flash :=
  let answer := T.queryBlock dev.flash (dev.applyBlockOffset block)
  (answer.1, { dev with flash := answer.2 })

/-- Erase one block through the driver. -/
def driverErase (layer : Layer) (block : Nat) : Bool × Dev Flash :=
  let dev := dev.emit layer (.erase block)
  let answer := T.eraseBlock dev.flash (dev.applyBlockOffset block)
  (answer.1, { dev with flash := answer.2 })

/-- Mark one block bad through the driver. -/
def driverMarkBad (layer : Layer) (block : Nat) : Bool × Dev Flash :=
  let dev := dev.emit layer (.markBad block)
  let answer := T.markBad dev.flash (dev.applyBlockOffset block)
  (answer.1, { dev with flash := answer.2 })

/-! ## Counting -/

/-- Free chunks of one block. -/
def freeChunksOf (chunksPerBlock : Nat) (info : BlockInfo) : Int :=
  if info.blockState.countsAsFree then
    chunksPerBlock - info.pagesInUse + info.softDelPages
  else 0

/-- Free chunks counted over the block table. -/
def countFreeChunks : Int :=
  ∑ block ∈ dev.blocks, freeChunksOf dev.param.chunksPerBlock (dev.blockInfo block)

/-- Number of blocks in a state. -/
def countState (state : BlockState) : Int :=
  Tally.count dev.blocks fun block => dev.blockState block = state

end Dev

end Yaffs
