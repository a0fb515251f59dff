import Yaffs.Blocks

/-!
# Chunks

Writing a page with its tags, the summary of a block that goes with it, deleting a page, and writing
a new page with retries.
-/

namespace Yaffs

/-! ## Packed tags -/

/-- Does the header's extra information fit into the packed tags? -/
def checkTagsExtraPackable (tags : ExtTags) : Bool :=
  decide (tags.chunkId = 0) && tags.extraAvailable &&
    !(decide (tags.extraObjType = .file) && decide (tags.extraFileSize >>> 31 ≠ 0))

/-- The object id, chunk id and byte count of packed tags.  For a header they carry the extra
information. -/
def packTags2TagsOnly (tags : ExtTags) : SummaryTags :=
  if checkTagsExtraPackable tags then
    { objId := tags.objId % 2 ^ 28 ||| (tags.extraObjType.code <<< 28)
      chunkId := 0x80000000 ||| tags.extraParentId
        ||| (if tags.extraIsShrink then 0x40000000 else 0)
        ||| (if tags.extraShadows then 0x20000000 else 0)
      nBytes :=
        match tags.extraObjType with
        | .hardlink => tags.extraEquivId
        | .file => tags.extraFileSize % 2 ^ 32
        | _ => 0 }
  else { objId := tags.objId, chunkId := tags.chunkId, nBytes := tags.nBytes }

/-- Size of `struct yaffs_summary_tags`. -/
def summaryTagsSize : Nat := 12

/-- Size of `struct yaffs_summary_header`. -/
def summaryHeaderSize : Nat := 16

namespace Dev

variable {Flash : Type} (T : Tagger Flash) (dev : Dev Flash)

/-! ## Block summaries -/

/-- Clear the summary being built. -/
def summaryClear : Dev Flash := { dev with sumTags := dev.sumTags.map fun _ _ => {} }

/-- Memory of the summary being built. -/
def summaryBytes (sumTags : Nat → SummaryTags) : List UInt8 :=
  (List.range dev.chunksPerSummary).flatMap fun i =>
    [(sumTags i).objId, (sumTags i).chunkId, (sumTags i).nBytes].flatMap
      (Words.bytes dev.swapEndian 4)

/-- Header of the summary pages of a block, in native order. -/
def summaryHeader (block : Nat) (bytes : List UInt8) : List UInt8 :=
  [summaryVersion, block, (dev.blockInfo block).seqNumber,
    (bytes.map UInt8.toNat).sum % 2 ^ 32].flatMap (Words.bytes false 4)

/-- Number of the first summary page of the allocation block. -/
def summaryChunk : Int :=
  let allocBlock : Int := match dev.allocBlock with
    | some block => block
    | none => -1
  allocBlock * dev.param.chunksPerBlock + dev.chunksPerSummary

/-- Count one summary page as in use. -/
def countSummaryPage (block page : Nat) : Dev Flash :=
  { (dev.setChunkBit block page).addPagesInUse block 1 with nFreeChunks := dev.nFreeChunks - 1 }

/-- Write the summary pages one after the other, until one fails.  A summary page lies behind the
pages that the summary covers, so that writing it adds nothing to the summary. -/
def summaryWriteLoop (block : Nat) (header : List UInt8) (chunk : Int) :
    Nat → Nat → List UInt8 → Dev Flash → Bool × Dev Flash
  | 0, _, _, dev => (true, dev)
  | fuel + 1, index, bytes, dev =>
    let thisTx := min bytes.length (dev.dataBytesPerChunk - summaryHeaderSize)
    let tags : ExtTags :=
      { objId := objectIdSummary
        chunkId := index + 1
        nBytes := thisTx + summaryHeaderSize
        seqNumber := dev.seqNumber
        chunkUsed := true }
    let page := header ++ bytes.take thisTx
    let written := dev.programPage T .guts (chunk + index) (some fun i => page.getD i 0) tags
    if ¬written.1 then written
    else
      let dev := written.2.countSummaryPage block (dev.chunksPerSummary + index)
      let rest := bytes.drop thisTx
      if rest = [] then (true, dev)
      else summaryWriteLoop block header chunk fuel (index + 1) rest dev

/-- Write the summary of a block behind the pages it covers. -/
def summaryWrite (block : Nat) (sumTags : Nat → SummaryTags) : Dev Flash :=
  let bytes := dev.summaryBytes sumTags
  let written := summaryWriteLoop T block (dev.summaryHeader block bytes) dev.summaryChunk
    bytes.length 0 bytes dev
  if written.1 then
    written.2.modifyBlockInfo block fun info => { info with hasSummary := true }
  else written.2

/-- Add the tags of a page to the summary, and write the summary after its last page. -/
def summaryAdd (tags : ExtTags) (chunk : Nat) : Dev Flash :=
  match dev.sumTags with
  | none => dev
  | some sumTags =>
    let block := chunk / dev.param.chunksPerBlock
    let page := chunk % dev.param.chunksPerBlock
    if page < dev.chunksPerSummary then
      let sumTags := Function.update sumTags page (packTags2TagsOnly tags)
      let dev := { dev with sumTags := some sumTags }
      if page = dev.chunksPerSummary - 1 then
        (dev.summaryWrite T block sumTags).summaryClear.skipRestOfBlock
      else dev
    else dev

/-- Drop one summary page of a block that is collected. -/
def dropSummaryPage (block : Nat) (dev : Dev Flash) (page : Nat) : Dev Flash :=
  if dev.checkChunkBit block page then
    { (dev.clearChunkBit block page).addPagesInUse block (-1) with
      nFreeChunks := dev.nFreeChunks + 1 }
  else dev

/-- Drop the summary of a block that is collected. -/
def summaryGc (block : Nat) : Dev Flash :=
  if ¬(dev.blockInfo block).hasSummary then dev
  else
    (List.range' dev.chunksPerSummary (dev.param.chunksPerBlock - dev.chunksPerSummary)).foldl
      (dropSummaryPage block) dev

/-! ## Writing and deleting pages -/

/-- Write one page with its tags. -/
def wrChunkTagsNand (chunk : Nat) (data : Option Buf) (tags : ExtTags) : Bool × Dev Flash :=
  let tags := { tags with seqNumber := dev.seqNumber, chunkUsed := true }
  let written := dev.programPage T .guts chunk data tags
  (written.1, written.2.summaryAdd T tags chunk)

/-- Block states in which a page can be deleted. -/
def holdsPages : BlockState → Bool
  | .allocating | .full | .needsScan | .collecting => true
  | _ => false

/-- Take one page out of its block.  A block that has no other page in use becomes dirty, unless
pages are still added to it or its shrink header is still needed. -/
def releasePage (block page : Nat) : Dev Flash :=
  if holdsPages (dev.blockState block) then
    let dev := { dev with nFreeChunks := dev.nFreeChunks + 1 }
    let dev := (dev.clearChunkBit block page).addPagesInUse block (-1)
    let info := dev.blockInfo block
    if info.pagesInUse = 0 ∧ ¬info.hasShrinkHdr ∧ info.blockState ≠ .allocating ∧
        info.blockState ≠ .needsScan then
      dev.blockBecameDirty T block
    else dev
  else dev

/-- Delete a page.  Only the old format marks this on the flash. -/
def chunkDel (chunk : Int) (markFlash : Bool) : Dev Flash :=
  if chunk ≤ 0 then dev
  else
    let block := chunk.toNat / dev.param.chunksPerBlock
    let page := chunk.toNat % dev.param.chunksPerBlock
    let dev := dev.updateOldestDirtySeq block
    let dev :=
      if ¬dev.param.isYaffs2 ∧ markFlash ∧ dev.blockState block ≠ .collecting then
        (dev.wrChunkTagsNand T chunk.toNat none { isDeleted := true }).2
      else dev
    dev.releasePage T block page

/-- Handle a failed write: the block is to be retired if the page was known to be erased, the page
is deleted and the rest of the block left alone. -/
def handleChunkWrError (chunk : Nat) (erasedOk : Bool) : Dev Flash :=
  let block := chunk / dev.param.chunksPerBlock
  let dev := dev.handleChunkError block
  let dev :=
    if erasedOk then dev.modifyBlockInfo block fun info => { info with needsRetiring := true }
    else dev
  (dev.chunkDel T chunk true).skipRestOfBlock

/-- With the check on every page, do not rely on an earlier one. -/
def resetErasedCheck (block : Nat) : Dev Flash :=
  if dev.param.alwaysCheckErased then
    dev.modifyBlockInfo block fun info => { info with skipErasedCheck := false }
  else dev

/-- Check that the page is erased, until a write to the block has succeeded. -/
def erasedCheck (block chunk : Nat) : Bool × Dev Flash :=
  if (dev.blockInfo block).skipErasedCheck then (false, dev) else dev.checkChunkErased T chunk

/-- Write one page and read it back, until a write to the block has succeeded. -/
def wrVerified (block chunk : Nat) (data : Buf) (tags : ExtTags) : Bool × Dev Flash :=
  let written := dev.wrChunkTagsNand T chunk (some data) tags
  if (written.2.blockInfo block).skipErasedCheck then written
  else written.2.verifyChunkWritten T chunk data tags

/-- Try to write an allocated page.  A page that fails the erased check is deleted and the rest of
the block left alone. -/
def tryChunk (block page : Nat) (data : Buf) (tags : ExtTags) : Bool × Dev Flash :=
  let chunk := block * dev.param.chunksPerBlock + page
  let dev := dev.resetErasedCheck block
  let erased := dev.erasedCheck T block chunk
  if ¬(dev.blockInfo block).skipErasedCheck ∧ ¬erased.1 then
    (false, (erased.2.chunkDel T chunk true).skipRestOfBlock)
  else
    let verified := erased.2.wrVerified T block chunk data tags
    if verified.1 then
      (true, verified.2.modifyBlockInfo block fun info => { info with skipErasedCheck := true })
    else (false, verified.2.handleChunkWrError T chunk erased.1)

/-- The loop of `writeNewChunk`, with the number of attempts made.  The fuel bounds the number of
turns. -/
def writeNewChunkLoop (data : Buf) (tags : ExtTags) (useReserver : Bool) :
    Nat → Nat → Dev Flash → Option Nat × Dev Flash
  | 0, _, dev => (none, dev)
  | fuel + 1, attempts, dev =>
    let allocated := dev.allocChunk useReserver
    match allocated.1 with
    | none => (none, allocated.2)
    | some (block, page) =>
      let tried := allocated.2.tryChunk T block page data tags
      if tried.1 then (some (block * dev.param.chunksPerBlock + page), tried.2)
      else if dev.param.wrAttempts = 0 ∨ attempts + 1 ≤ dev.param.wrAttempts then
        writeNewChunkLoop data tags useReserver fuel (attempts + 1) tried.2
      else (none, tried.2)

/-- Turns that the write loop can take: no block fails more than five times before it is retired. -/
def writeFuel : Nat := 6 * dev.nBlocks + 2

/-- Write a new page and return its number.  The checkpoint is invalidated first. -/
def writeNewChunk (data : Buf) (tags : ExtTags) (useReserver : Bool) : Option Nat × Dev Flash :=
  let dev := dev.checkptInvalidate T
  writeNewChunkLoop T data tags useReserver dev.writeFuel 0 dev

end Dev

end Yaffs
