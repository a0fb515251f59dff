import Yaffs.Checkpoint

/-!
# Blocks

Tracking of the oldest dirty block, errors of pages, the allocation of pages, and the end of a block:
erased and reused when its last page is deleted, or retired.
-/

namespace Yaffs.Dev

variable {Flash : Type} (T : Tagger Flash) (dev : Dev Flash)

/-! ## Oldest dirty block -/

/-- A full block with pages that are no longer in use. -/
def isDirtyFull (block : Nat) : Bool :=
  let info := dev.blockInfo block
  decide (info.blockState = .full ∧
    u32OfInt (info.pagesInUse - info.softDelPages) < dev.param.chunksPerBlock)

/-- The dirty full block with the lowest sequence number, kept with that number. -/
def olderDirty (oldest : Nat × Nat) (block : Nat) : Nat × Nat :=
  let seq := (dev.blockInfo block).seqNumber
  if dev.isDirtyFull block ∧ seq < oldest.1 then (seq, block) else oldest

/-- Look up the oldest dirty sequence number. -/
def calcOldestDirtySeq : Dev Flash :=
  if ¬dev.param.isYaffs2 then dev
  else
    let oldest := dev.blockList.foldl dev.olderDirty (dev.seqNumber + 1, 0)
    if oldest.2 ≠ 0 then
      { dev with oldestDirtySeq := oldest.1, oldestDirtyBlock := oldest.2 }
    else dev

/-- Look up the oldest dirty sequence number if it is not known. -/
def findOldestDirtySeq : Dev Flash :=
  if dev.param.isYaffs2 ∧ dev.oldestDirtySeq = 0 then dev.calcOldestDirtySeq else dev

/-- Forget the oldest dirty sequence number when its block goes. -/
def clearOldestDirtySeq (block : Nat) : Dev Flash :=
  if dev.param.isYaffs2 ∧ (dev.blockInfo block).seqNumber = dev.oldestDirtySeq then
    { dev with oldestDirtySeq := 0, oldestDirtyBlock := 0 }
  else dev

/-- Lower a known oldest dirty sequence number when a page of an older block is deleted. -/
def updateOldestDirtySeq (block : Nat) : Dev Flash :=
  let seq := (dev.blockInfo block).seqNumber
  if dev.param.isYaffs2 ∧ dev.oldestDirtySeq ≠ 0 ∧ seq < dev.oldestDirtySeq then
    { dev with oldestDirtySeq := seq, oldestDirtyBlock := block }
  else dev

/-- A block with a shrink header is collected only when no older block has discarded pages. -/
def blockOkForGc (block : Nat) : Bool × Dev Flash :=
  let info := dev.blockInfo block
  if ¬dev.param.isYaffs2 ∨ ¬info.hasShrinkHdr then (true, dev)
  else
    let dev := dev.findOldestDirtySeq
    (decide (info.seqNumber ≤ dev.oldestDirtySeq), dev)

/-! ## Page errors and reads -/

/-- Note a page error: collect the block early, and retire it after more than three errors. -/
def noteChunkError (info : BlockInfo) : BlockInfo :=
  if info.gcPrioritise then info
  else
    let strikes := (info.chunkErrorStrikes + 1) % 8
    { info with
      gcPrioritise := true
      chunkErrorStrikes := strikes
      needsRetiring := info.needsRetiring || decide (3 < strikes) }

/-- Handle an error of one page of a block. -/
def handleChunkError (block : Nat) : Dev Flash :=
  { dev.modifyBlockInfo block noteChunkError with
    hasPendingPrioritisedGc :=
      dev.hasPendingPrioritisedGc || !(dev.blockInfo block).gcPrioritise }

/-- Read one page and note a corrected or uncorrectable error. -/
def rdChunkTagsNand (chunk : Nat) : (Bool × Buf × ExtTags) × Dev Flash :=
  let page := dev.readPage T chunk
  if EccResult.noError.code < page.1.2.2.eccResult.code then
    (page.1, page.2.handleChunkError (chunk / dev.param.chunksPerBlock))
  else page

/-- Is the page erased?  The content is not looked at, `yaffs_check_ff` accepts all. -/
def checkChunkErased (chunk : Nat) : Bool × Dev Flash :=
  let page := dev.rdChunkTagsNand T chunk
  let tags := page.1.2.2
  (page.1.1 && !decide (EccResult.noError.code < tags.eccResult.code) && !tags.chunkUsed, page.2)

/-- Does the page hold the data and the tags that were written to it? -/
def verifyChunkWritten (chunk : Nat) (data : Buf) (tags : ExtTags) : Bool × Dev Flash :=
  let page := dev.rdChunkTagsNand T chunk
  let found := page.1.2.2
  (page.1.1 && (List.range dev.dataBytesPerChunk).all (fun i => page.1.2.1 i == data i) &&
    decide (found.objId = tags.objId ∧ found.chunkId = tags.chunkId ∧ found.nBytes = tags.nBytes),
    page.2)

/-- Mark a block bad, unless this is disabled. -/
def markBad (block : Nat) : Bool × Dev Flash :=
  if dev.param.disableBadBlockMarking then (true, dev) else dev.driverMarkBad T .guts block

/-- Erase a block. -/
def eraseBlock (block : Nat) : Bool × Dev Flash := dev.driverErase T .guts block

/-! ## Allocation -/

/-- Would `nChunks` pages leave the reserve and the checkpoint their space? -/
def checkAllocAvailable (nChunks : Nat) : Bool × Dev Flash :=
  let required := dev.calcCheckptBlocksRequired
  let reserved := (dev.param.nReservedBlocks + required.1) * dev.param.chunksPerBlock
  (decide (reserved + nChunks < dev.nFreeChunks), required.2)

/-- Take an erased block for allocation. -/
def takeAllocBlock (block : Nat) : Dev Flash :=
  let seq := dev.seqNumber + 1
  { dev.modifyBlockInfo block (fun info =>
      { info with blockState := .allocating, seqNumber := seq }) with
    seqNumber := seq
    nErasedBlocks := dev.nErasedBlocks - 1 }

/-- Move the search for an erased block forward, around the end of the device. -/
def stepAllocFinder : Dev Flash :=
  let finder := dev.allocBlockFinder + 1
  { dev with
    allocBlockFinder :=
      if finder < dev.internalStartBlock ∨ dev.internalEndBlock < finder then
        dev.internalStartBlock
      else finder }

/-- The loop of `findAllocBlock`, with the number of blocks left to look at. -/
def findAllocBlockLoop : Nat → Dev Flash → Option Nat × Dev Flash
  | 0, dev => (none, dev)
  | left + 1, dev =>
    let dev := dev.stepAllocFinder
    if dev.blockState dev.allocBlockFinder = .empty then
      (some dev.allocBlockFinder, dev.takeAllocBlock dev.allocBlockFinder)
    else findAllocBlockLoop left dev

/-- Find an erased block to allocate off. -/
def findAllocBlock : Option Nat × Dev Flash :=
  if dev.nErasedBlocks < 1 then (none, dev) else findAllocBlockLoop dev.nBlocks dev

/-- Have a block to allocate off, if there is one. -/
def ensureAllocBlock : Dev Flash :=
  match dev.allocBlock with
  | some _ => dev
  | none =>
    let found := dev.findAllocBlock
    { found.2 with allocBlock := found.1, allocPage := 0 }

/-- Count one page of a block as in use, or one less. -/
def addPagesInUse (block : Nat) (change : Int) : Dev Flash :=
  dev.modifyBlockInfo block fun info =>
    { info with pagesInUse := signedField10 (info.pagesInUse + change) }

/-- Take the next page of the allocation block. -/
def takeAllocPage (block : Nat) : Dev Flash :=
  let dev := (dev.addPagesInUse block 1).setChunkBit block dev.allocPage
  let dev := { dev with allocPage := dev.allocPage + 1, nFreeChunks := dev.nFreeChunks - 1 }
  if dev.param.chunksPerBlock ≤ dev.allocPage then
    { dev.setBlockState block .full with allocBlock := none }
  else dev

/-- May one page be allocated?  The reserve is only open to the collector and to deletions. -/
def mayAlloc (useReserver : Bool) : Bool × Dev Flash :=
  if useReserver then (true, dev) else dev.checkAllocAvailable 1

/-- Allocate a page: its block and its number in the block. -/
def allocChunk (useReserver : Bool) : Option (Nat × Nat) × Dev Flash :=
  let available := dev.ensureAllocBlock.mayAlloc useReserver
  let dev := available.2
  if ¬available.1 then (none, dev)
  else
    match dev.allocBlock with
    | some block => (some (block, dev.allocPage), dev.takeAllocPage block)
    | none => (none, dev)

/-- Leave the rest of the allocation block unused. -/
def skipRestOfBlock : Dev Flash :=
  match dev.allocBlock with
  | some block =>
    if 0 < block ∧ dev.blockState block = .allocating then
      { dev.setBlockState block .full with allocBlock := none }
    else dev
  | none => dev

/-! ## Retirement and erasure -/

/-- The bad block marker, written when the block could not be marked bad otherwise. -/
def writeBadMarker (block : Nat) : Dev Flash :=
  (dev.programPage T .guts (block * dev.param.chunksPerBlock) (some fun _ => 0xff)
    { seqNumber := sequenceBadBlock }).2

/-- Take a block out of use for good. -/
def retireBlock (block : Nat) : Dev Flash :=
  let dev := (dev.checkptInvalidate T).clearOldestDirtySeq block
  let marked := dev.markBad T block
  let dev :=
    if marked.1 then marked.2
    else
      let erased := marked.2.eraseBlock T block
      if erased.1 then erased.2.writeBadMarker T block else erased.2
  (dev.emit .guts (.retire block)).modifyBlockInfo block fun info =>
    { info with blockState := .dead, gcPrioritise := false, needsRetiring := false }

/-- Drop a block as the one being collected or the best candidate for it. -/
def dropGcBlock (block : Nat) : Dev Flash :=
  { dev with
    gcBlock := if block = dev.gcBlock then 0 else dev.gcBlock
    gcDirtiest := if block = dev.gcDirtiest then 0 else dev.gcDirtiest
    gcPagesInUse := if block = dev.gcDirtiest then 0 else dev.gcPagesInUse }

/-- Read an erased block back.  What is found is only reported. -/
def verifyErased (block : Nat) : Dev Flash :=
  (List.range dev.param.chunksPerBlock).foldl (fun dev page =>
    (dev.checkChunkErased T (block * dev.param.chunksPerBlock + page)).2) dev

/-- The record of a block that has been erased.  The block needs no erased check. -/
def erasedInfo (info : BlockInfo) : BlockInfo :=
  { info with
    blockState := .empty
    seqNumber := 0
    pagesInUse := 0
    softDelPages := 0
    hasShrinkHdr := false
    skipErasedCheck := true
    gcPrioritise := false
    hasSummary := false }

/-- Make an erased block available again. -/
def cleanBlock (block : Nat) : Dev Flash :=
  { (dev.modifyBlockInfo block erasedInfo).clearChunkBits block with
    nErasedBlocks := dev.nErasedBlocks + 1 }

/-- Take a block without pages in use out of the accounts. -/
def soilBlock (block : Nat) : Dev Flash :=
  ((dev.clearOldestDirtySeq block).setBlockState block .dirty).dropGcBlock block

/-- Erase a dirty block, unless it is unhealthy. -/
def eraseDirtyBlock (block : Nat) : Bool × Dev Flash :=
  if (dev.blockInfo block).needsRetiring then (false, dev)
  else (dev.checkptInvalidate T).eraseBlock T block

/-- Erase a block without pages in use, or retire it if it is unhealthy or fails to erase. -/
def blockBecameDirty (block : Nat) : Dev Flash :=
  let erased := (dev.soilBlock block).eraseDirtyBlock T block
  let dev := erased.2
  if erased.1 then
    (if dev.param.verifyErasure then dev.verifyErased T block else dev).cleanBlock block
  else
    retireBlock T
      { dev with nFreeChunks := dev.nFreeChunks - dev.param.chunksPerBlock } block

end Yaffs.Dev
