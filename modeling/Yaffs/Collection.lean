import Yaffs.Objects

/-!
# Garbage collection

Collecting a block copies the pages that are still in use elsewhere and erases the block.  A block
may be collected a few pages at a time.  The collector picks the dirtiest block within its reach.
-/

namespace Yaffs

/-! ## Object headers -/

/-- Offsets of fields in `struct yaffs_obj_hdr`. -/
def ohFileSizeLow : Nat := 292
def ohInbandShadowedObjId : Nat := 488
def ohFileSizeHigh : Nat := 496
def ohShadowsObj : Nat := 504
def ohIsShrink : Nat := 508

/-- Store a word of four bytes at an offset of a buffer. -/
def Buf.storeWord (buffer : Buf) (swap : Bool) (offset value : Nat) : Buf := fun i =>
  if offset ≤ i then (Words.bytes swap 4 value).getD (i - offset) (buffer i) else buffer i

/-- A header that is copied has done its work as a shrink header and shadows no object any more. -/
def clearShrinkHeader (buffer : Buf) : Buf :=
  ((buffer.storeWord false ohIsShrink 0).storeWord false ohShadowsObj 0).storeWord false
    ohInbandShadowedObjId 0

/-- Put the file size into a header. -/
def ohSizeLoad (buffer : Buf) (swap : Bool) (size : Nat) : Buf :=
  (buffer.storeWord swap ohFileSizeLow (size % 2 ^ 32)).storeWord swap ohFileSizeHigh
    (size >>> 32 % 2 ^ 32)

namespace Fs

variable {Flash : Type} (T : Tagger Flash) (fs : Fs Flash)

/-! ## Copying pages -/

/-- Forget a page of a soft deleted file.  The free chunks count it already. -/
def dropSoftDeleted (block : Nat) (obj : Obj) : Fs Flash :=
  let fs := fs.mapDev fun dev =>
    { dev.modifyBlockInfo block (fun info =>
        { info with softDelPages := signedField10 (info.softDelPages - 1) }) with
      nFreeChunks := dev.nFreeChunks - 1 }
  let fs := fs.modifyObj obj.objId fun obj => { obj with nDataChunks := obj.nDataChunks - 1 }
  if obj.nDataChunks - 1 ≤ 0 then
    fs.mapDev fun dev => { dev with gcCleanupList := dev.gcCleanupList ++ [obj.objId] }
  else fs

/-- The copy of a page: its data and tags. -/
def gcCopy (swap : Bool) (obj : Obj) (buffer : Buf) (tags : ExtTags) : Buf × ExtTags :=
  let tags := { tags with serialNumber := tags.serialNumber + 1 }
  if tags.chunkId = 0 then
    let buffer := clearShrinkHeader buffer
    let tags := { tags with extraIsShrink := false, extraShadows := false }
    if obj.variantType = .file then
      (ohSizeLoad buffer swap obj.file.storedSize,
        { tags with extraFileSize := obj.file.storedSize })
    else (buffer, tags)
  else (buffer, tags)

/-- Enter a copied page in its object. -/
def gcMove (obj : Obj) (tags : ExtTags) (newChunk : Nat) : Fs Flash :=
  if tags.chunkId = 0 then
    fs.modifyObj obj.objId fun obj =>
      { obj with hdrChunk := newChunk, serial := tags.serialNumber % 256 }
  else (fs.putChunkInFile T obj.objId tags.chunkId newChunk).2

/-- Copy one page in use out of a block that is collected and delete it there.  A page without an
object is deleted only.  The result is false if the copy could not be written. -/
def gcProcessChunk (block oldChunk : Nat) : Bool × Fs Flash :=
  let page := fs.dev.rdChunkTagsNand T oldChunk
  let fs := { fs with dev := page.2 }
  let tags := page.1.2.2
  match fs.findByNumber tags.objId with
  | none => (true, fs.mapDev fun dev => dev.chunkDel T oldChunk true)
  | some obj =>
    if obj.deleted ∧ obj.softDel ∧ tags.chunkId ≠ 0 then
      (true, (fs.dropSoftDeleted block obj).mapDev fun dev => dev.chunkDel T oldChunk false)
    else
      let copy := gcCopy fs.dev.swapEndian obj page.1.2.1 tags
      let written := fs.dev.writeNewChunk T copy.1 copy.2 true
      let fs := { fs with dev := written.2 }
      match written.1 with
      | none => (false, fs)
      | some newChunk =>
        (true, (fs.gcMove T obj copy.2 newChunk).mapDev fun dev => dev.chunkDel T oldChunk true)

/-! ## Collecting a block -/

/-- Copy the page that the collection has come to, if it is in use, and step to the next page, also
after a failed copy. -/
def gcPage (block : Nat) : Bool × Fs Flash :=
  let processed :=
    if fs.dev.checkChunkBit block fs.dev.gcChunk then
      fs.gcProcessChunk T block (block * fs.dev.param.chunksPerBlock + fs.dev.gcChunk)
    else (true, fs)
  (processed.1, processed.2.mapDev fun dev => { dev with gcChunk := dev.gcChunk + 1 })

/-- The copy loop: pages left in the block, copies left to make.  It ends when the block is no
longer being collected, the copies are used up or a copy fails. -/
def gcCopyLoop (block : Nat) : Nat → Nat → Fs Flash → Bool × Fs Flash
  | 0, _, fs => (true, fs)
  | left + 1, copies, fs =>
    if fs.dev.param.chunksPerBlock ≤ fs.dev.gcChunk ∨
        fs.dev.blockState block ≠ .collecting ∨ copies = 0 then (true, fs)
    else
      let copies := if fs.dev.checkChunkBit block fs.dev.gcChunk then copies - 1 else copies
      let stepped := fs.gcPage T block
      if stepped.1 then gcCopyLoop block left copies stepped.2 else stepped

/-- Delete a soft deleted file whose last page is gone. -/
def gcCleanUp (fs : Fs Flash) (number : Nat) : Fs Flash :=
  match fs.findByNumber number with
  | none => fs
  | some obj =>
    let fs := fs.mapDev Dev.freeTnode
    let fs := fs.modifyObj number fun obj => { obj with file := { obj.file with top := .null } }
    (fs.delDeletedObj T obj).mapDev fun dev =>
      { dev with nDeletedFiles := dev.nDeletedFiles - 1 }

/-- Start to collect a block.  Clearing the shrink flag lets the block be erased. -/
def gcStart (dev : Dev Flash) (block : Nat) : Dev Flash :=
  let dev := if dev.blockState block = .full then dev.setBlockState block .collecting else dev
  let dev := dev.modifyBlockInfo block fun info => { info with hasShrinkHdr := false }
  ({ dev with gcDisable := true } : Dev Flash).summaryGc block

/-- Stop collecting a block.  A collection that is not complete leaves the block full. -/
def gcFinish (block : Nat) : Fs Flash :=
  let fs :=
    if fs.dev.blockState block = .collecting then
      fs.mapDev fun dev => dev.setBlockState block .full
    else
      (fs.dev.gcCleanupList.foldl (gcCleanUp T) fs).mapDev fun dev =>
        { dev with gcBlock := 0, gcChunk := 0, gcCleanupList := [] }
  fs.mapDev fun dev => { dev with gcDisable := false }

/-- Collect a block, as a whole or at most five pages of it. -/
def gcBlock (block : Nat) (wholeBlock : Bool) : Bool × Fs Flash :=
  let isCheckptBlock := decide (fs.dev.blockState block = .checkpoint)
  let fs := fs.mapDev fun dev => gcStart dev block
  let collected : Bool × Fs Flash :=
    if isCheckptBlock ∨ ¬fs.dev.stillSomeChunks block then
      (true, fs.mapDev fun dev => dev.blockBecameDirty T block)
    else
      gcCopyLoop T block fs.dev.param.chunksPerBlock
        (if wholeBlock then fs.dev.param.chunksPerBlock else 5) fs
  (collected.1, collected.2.gcFinish T block)

end Fs

namespace Dev

variable {Flash : Type} (dev : Dev Flash)

/-! ## Choosing a block -/

/-- Blocks with at most this many pages in use are worth a leisurely collection. -/
def gcPassiveThreshold : Nat := 4

/-- Blocks with at most this many pages in use are taken without looking further. -/
def gcGoodEnough : Nat := 2

/-- The full block with the lowest sequence number, kept with that number. -/
def olderFull (oldest : Nat × Nat) (block : Nat) : Nat × Nat :=
  let info := dev.blockInfo block
  if info.blockState = .full ∧ (oldest.2 < 1 ∨ info.seqNumber < oldest.1) then
    (info.seqNumber, block)
  else oldest

/-- Every now and then the oldest full block is refreshed. -/
def findRefreshBlock : Nat × Dev Flash :=
  if ¬dev.param.isYaffs2 ∨ dev.param.refreshPeriod < 10 then (0, dev)
  else
    let skip := min dev.refreshSkip dev.param.refreshPeriod
    if 0 < skip then (0, { dev with refreshSkip := skip })
    else
      ((dev.blockList.foldl dev.olderFull (0, 0)).2,
        { dev with refreshSkip := dev.param.refreshPeriod })

/-- Look for a prioritised block that may be collected: is there a prioritised block, and which one
is selected? -/
def findPrioritised : List Nat → Bool → Dev Flash → (Bool × Nat) × Dev Flash
  | [], found, dev => ((found, 0), dev)
  | block :: rest, found, dev =>
    if (dev.blockInfo block).gcPrioritise then
      if dev.blockState block = .full then
        let allowed := dev.blockOkForGc block
        if allowed.1 then ((true, block), allowed.2) else findPrioritised rest true allowed.2
      else findPrioritised rest true dev
    else findPrioritised rest found dev

/-- Select a prioritised block, or the oldest dirty one when that stands in its way. -/
def selectPrioritised : Nat × Dev Flash :=
  let found := findPrioritised dev.blockList false { dev with gcDirtiest := 0 }
  let selected :=
    if found.1.1 ∧ found.1.2 = 0 ∧ 0 < found.2.oldestDirtyBlock then found.2.oldestDirtyBlock
    else found.1.2
  (selected,
    if found.1.1 then found.2 else { found.2 with hasPendingPrioritisedGc := false })

/-- Move the search for a dirty block forward, around the end of the device. -/
def stepGcFinder : Dev Flash :=
  let finder := dev.gcBlockFinder + 1
  { dev with
    gcBlockFinder :=
      if finder < dev.internalStartBlock ∨ dev.internalEndBlock < finder then
        dev.internalStartBlock
      else finder }

/-- Look at the block under the finder and remember it if it is the dirtiest so far. -/
def considerDirty : Dev Flash :=
  let dev := dev.stepGcFinder
  let block := dev.gcBlockFinder
  let info := dev.blockInfo block
  let pagesUsed := u32OfInt (info.pagesInUse - info.softDelPages)
  if info.blockState = .full ∧ pagesUsed < dev.param.chunksPerBlock ∧
      (dev.gcDirtiest < 1 ∨ pagesUsed < dev.gcPagesInUse) then
    let allowed := dev.blockOkForGc block
    if allowed.1 then { allowed.2 with gcDirtiest := block, gcPagesInUse := pagesUsed }
    else allowed.2
  else dev

/-- The search loop, until a block is good enough. -/
def searchDirty : Nat → Dev Flash → Dev Flash
  | 0, dev => dev
  | left + 1, dev =>
    if dev.gcDirtiest < 1 ∨ gcGoodEnough < dev.gcPagesInUse then
      searchDirty left dev.considerDirty
    else dev

/-- Pages in use up to which a block is collected. -/
def gcThreshold (aggressive background : Bool) : Nat :=
  if aggressive then dev.param.chunksPerBlock
  else
    let most := max (dev.param.chunksPerBlock / (if background then 2 else 8)) gcPassiveThreshold
    let wanted := max (if background then (dev.gcNotDone + 2) * 2 else 0) gcPassiveThreshold
    min wanted most

/-- Blocks looked at in one search. -/
def gcIterations (aggressive : Bool) : Nat :=
  if aggressive then dev.nBlocks else min (dev.nBlocks / 16 + 1) 100

/-- Select the dirtiest block within reach. -/
def selectDirtiest (aggressive background : Bool) : Nat × Dev Flash :=
  let threshold := dev.gcThreshold aggressive background
  let dev := searchDirty (dev.gcIterations aggressive) dev
  (if 0 < dev.gcDirtiest ∧ dev.gcPagesInUse ≤ threshold then dev.gcDirtiest else 0, dev)

/-- After many turns without a collection, select the oldest dirty block. -/
def selectOldest (background : Bool) : Nat × Dev Flash :=
  if dev.param.isYaffs2 ∧ (if background then 10 else 20) ≤ dev.gcNotDone then
    let dev := dev.findOldestDirtySeq
    if 0 < dev.oldestDirtyBlock then (dev.oldestDirtyBlock, dev)
    else (0, { dev with gcNotDone := 0 })
  else (0, dev)

/-- Note that a block is collected, or that none is. -/
def noteSelection (selected : Nat) : Dev Flash :=
  if 0 < selected then
    { dev with
      gcDirtiest := 0
      gcPagesInUse := 0
      gcNotDone := 0
      refreshSkip := if 0 < dev.refreshSkip then dev.refreshSkip - 1 else dev.refreshSkip }
  else { dev with gcNotDone := dev.gcNotDone + 1 }

/-- Select the block to be collected next, zero for none. -/
def findGcBlock (aggressive background : Bool) : Nat × Dev Flash :=
  let prioritised :=
    if dev.hasPendingPrioritisedGc ∧ ¬aggressive then dev.selectPrioritised else (0, dev)
  let dirtiest :=
    if prioritised.1 = 0 then prioritised.2.selectDirtiest aggressive background else prioritised
  let oldest := if dirtiest.1 = 0 then dirtiest.2.selectOldest background else dirtiest
  (oldest.1, oldest.2.noteSelection oldest.1)

end Dev

namespace Fs

variable {Flash : Type} (T : Tagger Flash) (fs : Fs Flash)

/-- Start on a block that is due for a refresh, if none is being collected. -/
def chooseRefreshBlock (aggressive : Bool) : Fs Flash :=
  if fs.dev.gcBlock < 1 ∧ ¬aggressive then
    fs.mapDev fun dev =>
      { dev.findRefreshBlock.2 with
        gcBlock := dev.findRefreshBlock.1
        gcChunk := 0
        gcCleanupList := [] }
  else fs

/-- Choose the block to collect if none is being collected. -/
def chooseGcBlock (aggressive background : Bool) : Fs Flash :=
  let fs := fs.chooseRefreshBlock aggressive
  if fs.dev.gcBlock < 1 then
    fs.mapDev fun dev =>
      { (dev.findGcBlock aggressive background).2 with
        gcBlock := (dev.findGcBlock aggressive background).1
        gcChunk := 0
        gcCleanupList := [] }
  else fs

/-- How a turn of the collector goes on: stop, or collect aggressively or at leisure. -/
inductive GcMode
  | stop
  | aggressive
  | leisurely
deriving DecidableEq, Repr

/-- Decide how to go on from the space that is left. -/
def gcMode (background : Bool) : GcMode × Fs Flash :=
  let required := fs.dev.calcCheckptBlocksRequired
  let dev := required.2
  let minErased := dev.param.nReservedBlocks + required.1 + 1
  let erasedChunks := dev.nErasedBlocks * dev.param.chunksPerBlock
  if dev.nErasedBlocks < minErased then (.aggressive, { fs with dev })
  else if ¬background ∧ dev.nFreeChunks.tdiv 4 < erasedChunks then (.stop, { fs with dev })
  else
    let dev := { dev with gcSkip := min dev.gcSkip 20 }
    if erasedChunks < dev.nFreeChunks.tdiv 2 ∨ dev.gcSkip < 1 ∨ background then
      (.leisurely, { fs with dev })
    else (.stop, { fs with dev := { dev with gcSkip := dev.gcSkip - 1 } })

/-- The local variables of `checkGc`. -/
structure GcTurn where
  gcOk : Bool := true
  aggressive : Bool := false
  stopped : Bool := false

/-- One turn of the collector. -/
def gcTurn (background : Bool) (turn : GcTurn) : GcTurn × Fs Flash :=
  let mode := fs.gcMode background
  if mode.1 = .stop then ({ turn with stopped := true }, mode.2)
  else
    let aggressive := decide (mode.1 = .aggressive)
    let fs := mode.2.mapDev fun dev => { dev with gcSkip := 5 }
    let fs := fs.chooseGcBlock aggressive background
    if 0 < fs.dev.gcBlock then
      let collected := fs.gcBlock T fs.dev.gcBlock aggressive
      ({ turn with gcOk := collected.1, aggressive }, collected.2)
    else ({ turn with aggressive }, fs)

/-- Has the collection of a block not freed enough? -/
def gcAgain : Bool :=
  decide (fs.dev.nErasedBlocks < fs.dev.param.nReservedBlocks ∧ 0 < fs.dev.gcBlock)

/-- Collect garbage if there is reason to.  A second turn is made when the first one has not freed
enough. -/
def checkGc (background : Bool) : Bool × Fs Flash :=
  if fs.dev.gcDisable then (true, fs)
  else
    let first := fs.gcTurn T background {}
    let last :=
      if ¬first.1.stopped ∧ first.2.gcAgain then first.2.gcTurn T background first.1 else first
    (!last.1.aggressive || last.1.gcOk, last.2)

end Fs

end Yaffs
