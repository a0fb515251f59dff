import Yaffs.Device
import Yaffs.Library.Words

/-!
# The checkpoint stream

A checkpoint is a byte stream.  It is cut into pages that start with a chunk header, and the pages
fill erased blocks one after the other.  The cursor of the stream lives in the device: it is the
same record for writing and for reading, and it keeps its value from one opening to the next.
-/

namespace Yaffs

/-! ## Buffers -/

/-- The word of four bytes at an offset. -/
def Buf.word (buffer : Buf) (swap : Bool) (offset : Nat) : Nat :=
  Words.value swap ((List.range 4).map fun i => buffer (offset + i))

/-- `memcpy` of the bytes to the start of the buffer. -/
def Buf.store (buffer : Buf) (data : List UInt8) : Buf := fun i => data.getD i (buffer i)

/-- `memset` of the first bytes to zero. -/
def Buf.clear (buffer : Buf) (size : Nat) : Buf := fun i => if i < size then 0 else buffer i

/-- Size of `struct yaffs_checkpt_chunk_hdr`. -/
def checkptChunkHdrSize : Nat := 16

/-- Size of the size of `struct yaffs_checkpt_chunk_hdr`, on a machine with eight-byte sizes. -/
def checkptChunkHdrSizeSize : Nat := 8

namespace Dev

variable {Flash : Type} (T : Tagger Flash) (dev : Dev Flash)

/-! ## Chunk headers -/

/-- The words of the header expected in the next page: version, page number and the running sum and
parity of the bytes before the page. -/
def checkptChunkHdr : List Nat :=
  [checkpointVersion, dev.checkptPageSeq, dev.checkptSum, dev.checkptXor]

/-- Clear the data part of the buffer. -/
def clearCheckptBuffer : Dev Flash :=
  { dev with
    checkptBuffer := dev.checkptBuffer.map fun buffer => buffer.clear dev.dataBytesPerChunk }

/-- Put a chunk header at the start of the buffer. -/
def checkptInitChunkHdr : Dev Flash :=
  { dev with
    checkptByteOffs := checkptChunkHdrSize
    checkptBuffer := dev.checkptBuffer.map fun buffer =>
      buffer.store (dev.checkptChunkHdr.flatMap (Words.bytes dev.swapEndian 4)) }

/-- The words of the header found at the start of a buffer. -/
def chunkHdrOf (buffer : Buf) : List Nat :=
  (List.range 4).map fun i => buffer.word dev.swapEndian (4 * i)

/-- Does the header in the buffer match the running values?  The byte offset moves behind the
header in either case. -/
def checkptCheckChunkHdr : Bool × Dev Flash :=
  (match dev.checkptBuffer with
    | some buffer => decide (dev.chunkHdrOf buffer = dev.checkptChunkHdr.map (· % 2 ^ 32))
    | none => false,
    { dev with checkptByteOffs := checkptChunkHdrSize })

/-! ## Erasing -/

/-- Is an erased block left over after the reserve? -/
def checkptSpaceOk : Bool := decide (0 < dev.nErasedBlocks - dev.param.nReservedBlocks)

/-- Erase one block if it belongs to a checkpoint.  A block that fails to erase is marked bad. -/
def checkptEraseBlock (block : Nat) : Dev Flash :=
  if dev.blockState block = .checkpoint then
    let erased := dev.driverErase T .checkpt block
    if erased.1 then
      let dev := erased.2.setBlockState block .empty
      { dev with
        nErasedBlocks := dev.nErasedBlocks + 1
        nFreeChunks := dev.nFreeChunks + dev.param.chunksPerBlock }
    else (erased.2.driverMarkBad T .checkpt block).2.setBlockState block .dead
  else dev

/-- Erase all checkpoint blocks. -/
def checkptErase : Dev Flash :=
  { dev.blockList.foldl (fun dev block => dev.checkptEraseBlock T block) dev with
    blocksInCheckpt := 0 }

/-- Erase the checkpoint data. -/
def checkptInvalidateStream : Dev Flash := dev.checkptErase T

/-- Invalidate the checkpoint, if there is one, before the flash is changed. -/
def checkptInvalidate : Dev Flash :=
  if dev.isCheckpointed ∨ 0 < dev.blocksInCheckpt then
    checkptInvalidateStream T { dev with isCheckpointed := false }
  else dev

/-! ## Finding blocks -/

/-- Move the cursor to the next erased block, at or after the hint. -/
def checkptFindErasedBlock : Dev Flash :=
  let found :=
    if 0 ≤ dev.checkptNextBlock ∧ dev.checkptNextBlock ≤ dev.internalEndBlock ∧
        0 < dev.nErasedBlocks - dev.param.nReservedBlocks then
      let next := dev.checkptNextBlock.toNat
      (List.range' next (dev.internalEndBlock + 1 - next)).find? fun block =>
        decide (dev.blockState block = .empty)
    else none
  match found with
  | some block => { dev with checkptNextBlock := block + 1, checkptCurBlock := block }
  | none => { dev with checkptNextBlock := -1, checkptCurBlock := -1 }

/-- Look for the first block whose first page carries checkpoint tags and which is not bad.  The
result holds the block and the hint stored with it. -/
def checkptFindBlockFrom : List Nat → Dev Flash → Option (Nat × Nat) × Dev Flash
  | [], dev => (none, dev)
  | block :: rest, dev =>
    let page := dev.readPage T (block * dev.param.chunksPerBlock)
    let tags := page.1.2.2
    if tags.seqNumber ≠ sequenceCheckpointData then checkptFindBlockFrom rest page.2
    else
      let state := page.2.queryBlock T block
      if state.1.1 = .dead then checkptFindBlockFrom rest state.2
      else (some (block, tags.objId), state.2)

/-- Value of a `u32` kept in an `int`. -/
def intOfU32 (value : Nat) : Int :=
  if value % 2 ^ 32 < 2 ^ 31 then (value % 2 ^ 32 : Nat) else (value % 2 ^ 32 : Nat) - 2 ^ 32

/-- Value of an `int` read as a `u32`. -/
def u32OfInt (value : Int) : Nat := (value % 2 ^ 32).toNat

/-- Move the cursor of the reader to the next checkpoint block, at or after the hint. -/
def checkptFindBlock : Dev Flash :=
  let next := u32OfInt dev.checkptNextBlock
  let found :=
    if dev.blocksInCheckpt < dev.checkptMaxBlocks then
      checkptFindBlockFrom T (List.range' next (dev.internalEndBlock + 1 - next)) dev
    else (none, dev)
  let dev := found.2
  match found.1 with
  | some (block, hint) =>
    { dev with
      checkptNextBlock := intOfU32 hint
      checkptCurBlock := block
      checkptBlockList := dev.checkptBlockList.map (·.set dev.blocksInCheckpt block)
      blocksInCheckpt := dev.blocksInCheckpt + 1 }
  | none => { dev with checkptNextBlock := -1, checkptCurBlock := -1 }

/-! ## Opening -/

/-- Start the running values and put the cursor before the first block. -/
def checkptRewind : Dev Flash :=
  { dev with
    checkptBuffer := some (dev.checkptBuffer.getD fun _ => 0)
    checkptPageSeq := 0
    checkptByteCount := 0
    checkptSum := 0
    checkptXor := 0
    checkptCurBlock := -1
    checkptCurChunk := -1
    checkptNextBlock := dev.internalStartBlock }

/-- Open the stream.  An opening for writing that finds no space has set `checkptOpenWrite` and
left the rest of the cursor alone. -/
def checkptOpen (writing : Bool) : Bool × Dev Flash :=
  let dev := { dev with checkptOpenWrite := writing }
  if writing ∧ ¬dev.checkptSpaceOk then (false, dev)
  else
    let dev := dev.checkptRewind
    if writing then (true, dev.clearCheckptBuffer.checkptInitChunkHdr.checkptErase T)
    else
      let maxBlocks := (dev.internalEndBlock - dev.internalStartBlock) / 16 + 2
      (true, { dev with
        checkptByteOffs := dev.dataBytesPerChunk
        blocksInCheckpt := 0
        checkptMaxBlocks := maxBlocks
        checkptBlockList := some (List.replicate maxBlocks (-1)) })

/-- Running sum and parity in one word. -/
def getCheckptSum : Nat := (dev.checkptSum <<< 8 ||| dev.checkptXor &&& 0xff) % 2 ^ 32

/-! ## Writing -/

/-- Tags of the page under the cursor.  The object id is the hint where to look for the next
block. -/
def checkptTags : ExtTags :=
  { objId := u32OfInt dev.checkptNextBlock
    chunkId := dev.checkptPageSeq + 1
    nBytes := dev.dataBytesPerChunk
    seqNumber := sequenceCheckpointData }

/-- The page under the cursor. -/
def checkptChunk : Int :=
  dev.checkptCurBlock * dev.param.chunksPerBlock + dev.checkptCurChunk

/-- Find an erased block if the cursor is in none. -/
def checkptEnterBlock : Dev Flash :=
  if dev.checkptCurBlock < 0 then { dev.checkptFindErasedBlock with checkptCurChunk := 0 }
  else dev

/-- On the first page of a block, take the block over. -/
def checkptTakeBlock : Dev Flash :=
  if dev.checkptCurChunk = 0 then
    { dev.setBlockState dev.checkptCurBlock.toNat .checkpoint with
      blocksInCheckpt := dev.blocksInCheckpt + 1 }
  else dev

/-- Move the cursor behind the page just written. -/
def checkptAdvance : Dev Flash :=
  let full : Bool := decide (dev.param.chunksPerBlock ≤ dev.checkptCurChunk + 1)
  { dev with
    checkptPageSeq := dev.checkptPageSeq + 1
    checkptCurChunk := if full then 0 else dev.checkptCurChunk + 1
    checkptCurBlock := if full then -1 else dev.checkptCurBlock }

/-- Write the buffer to the page under the cursor and start the next page. -/
def checkptFlushBuffer : Bool × Dev Flash :=
  let dev := dev.checkptEnterBlock
  if dev.checkptCurBlock < 0 then (false, dev)
  else
    let tags := dev.checkptTags
    let dev := dev.checkptTakeBlock
    let dev := (dev.programPage T .checkpt dev.checkptChunk dev.checkptBuffer tags).2
    (true, dev.checkptAdvance.clearCheckptBuffer.checkptInitChunkHdr)

/-- Store one byte in the buffer. -/
def checkptPutByte (byte : UInt8) : Dev Flash :=
  { dev with
    checkptBuffer := dev.checkptBuffer.map (Function.update · dev.checkptByteOffs byte)
    checkptSum := (dev.checkptSum + byte.toNat) % 2 ^ 32
    checkptXor := dev.checkptXor ^^^ byte.toNat
    checkptByteOffs := dev.checkptByteOffs + 1
    checkptByteCount := dev.checkptByteCount + 1 }

/-- Store one byte and flush a full buffer. -/
def checkptWrByte (byte : UInt8) : Bool × Dev Flash :=
  let dev := dev.checkptPutByte byte
  if dev.dataBytesPerChunk ≤ dev.checkptByteOffs then dev.checkptFlushBuffer T else (true, dev)

/-- The loop of `checkptWr`, with the number of bytes still to write and the number written.  The
bytes are read from memory one by one, and this memory may be the device itself. -/
def checkptWrLoop (data : Dev Flash → Nat → UInt8) : Nat → Nat → Dev Flash → Nat × Dev Flash
  | 0, written, dev => (written, dev)
  | left + 1, written, dev =>
    let put := dev.checkptWrByte T (data dev written)
    if put.1 then checkptWrLoop data left (written + 1) put.2 else (written + 1, put.2)

/-- Write bytes to the stream.  The result is the number of bytes taken, also when the flush that
the last of them needed has failed. -/
def checkptWr (data : Dev Flash → Nat → UInt8) (nBytes : Nat) : Int × Dev Flash :=
  if dev.checkptBuffer.isNone then (0, dev)
  else if ¬dev.checkptOpenWrite then (-1, dev)
  else
    let written := checkptWrLoop T data nBytes 0 dev
    (written.1, written.2)

/-- Write a record held in local memory; success is a full count. -/
def checkptWrRecord (record : List UInt8) : Bool × Dev Flash :=
  let written := dev.checkptWr T (fun _ i => record.getD i 0) record.length
  (decide (written.1 = record.length), written.2)

/-! ## Reading -/

/-- Put the content of a page into the buffer. -/
def fillCheckptBuffer (content : Buf) : Dev Flash :=
  { dev with
    checkptBuffer := dev.checkptBuffer.map fun buffer i =>
      if i < dev.param.totalBytesPerChunk then content i else buffer i }

/-- Do the tags differ from those of the next page of the stream? -/
def checkptTagsDiffer (tags : ExtTags) : Bool :=
  decide (tags.chunkId ≠ (dev.checkptPageSeq + 1) % 2 ^ 32 ∨
    EccResult.fixed.code < tags.eccResult.code ∨ tags.seqNumber ≠ sequenceCheckpointData)

/-- Find a checkpoint block if the reader is in none. -/
def checkptSeekBlock : Dev Flash :=
  if dev.checkptCurBlock < 0 then { dev.checkptFindBlock T with checkptCurChunk := 0 } else dev

/-- Move the reader behind the page just read. -/
def checkptStepReader : Dev Flash :=
  let full : Bool := decide (dev.param.chunksPerBlock ≤ dev.checkptCurChunk + 1)
  { dev with
    checkptPageSeq := dev.checkptPageSeq + 1
    checkptCurChunk := dev.checkptCurChunk + 1
    checkptCurBlock := if full then -1 else dev.checkptCurBlock }

/-- Load the next page of the stream.  The header check is the body of the tags check: it runs only
when the tags differ, and only it moves the byte offset back to the start of the page. -/
def checkptLoadPage : Bool × Dev Flash :=
  let dev := dev.checkptSeekBlock T
  if dev.checkptCurBlock < 0 then (false, dev)
  else
    let page := dev.readPage T dev.checkptChunk
    let dev := page.2.fillCheckptBuffer page.1.2.1
    let checked :=
      if dev.checkptTagsDiffer page.1.2.2 then dev.checkptCheckChunkHdr else (true, dev)
    if checked.1 then (true, checked.2.checkptStepReader) else (false, checked.2)

/-- Deliver the byte under the reader. -/
def checkptTakeByte : UInt8 × Dev Flash :=
  let byte := match dev.checkptBuffer with
    | some buffer => buffer dev.checkptByteOffs
    | none => 0
  (byte,
    { dev with
      checkptSum := (dev.checkptSum + byte.toNat) % 2 ^ 32
      checkptXor := dev.checkptXor ^^^ byte.toNat
      checkptByteOffs := dev.checkptByteOffs + 1
      checkptByteCount := dev.checkptByteCount + 1 })

/-- Load a page when the buffer is used up. -/
def checkptReady : Bool × Dev Flash :=
  if dev.dataBytesPerChunk ≤ dev.checkptByteOffs then dev.checkptLoadPage T else (true, dev)

/-- The loop of `checkptRd`: the bytes delivered. -/
def checkptRdLoop : Nat → Dev Flash → List UInt8 × Dev Flash
  | 0, dev => ([], dev)
  | left + 1, dev =>
    let ready := dev.checkptReady T
    if ready.1 then
      let taken := ready.2.checkptTakeByte
      let rest := checkptRdLoop left taken.2
      (taken.1 :: rest.1, rest.2)
    else ([], ready.2)

/-- Read bytes from the stream: the result and the bytes delivered. -/
def checkptRd (nBytes : Nat) : (Int × List UInt8) × Dev Flash :=
  if dev.checkptBuffer.isNone then ((0, []), dev)
  else if dev.checkptOpenWrite then ((-1, []), dev)
  else
    let read := checkptRdLoop T nBytes dev
    ((read.1.length, read.1), read.2)

/-! ## Closing -/

/-- Mark a block found by the reader as a checkpoint block. -/
def checkptAdoptBlock (block : Int) : Dev Flash :=
  if dev.internalStartBlock ≤ block ∧ block ≤ dev.internalEndBlock ∧
      dev.blockState block.toNat = .empty then
    dev.setBlockState block.toNat .checkpoint
  else dev

/-- Write out the last page, or adopt the blocks that were read. -/
def checkptFinish : Dev Flash :=
  if dev.checkptOpenWrite then
    if dev.checkptByteOffs ≠ checkptChunkHdrSizeSize then (dev.checkptFlushBuffer T).2 else dev
  else
    match dev.checkptBlockList with
    | some found =>
      ((found.take dev.blocksInCheckpt).takeWhile fun block => decide (0 ≤ block)).foldl
        checkptAdoptBlock dev
    | none => dev

/-- Close the stream. -/
def checkptClose : Bool × Dev Flash :=
  let dev := dev.checkptFinish T
  let dev := { dev with
    nFreeChunks := dev.nFreeChunks - dev.blocksInCheckpt * dev.param.chunksPerBlock
    nErasedBlocks := dev.nErasedBlocks - dev.blocksInCheckpt }
  (dev.checkptBuffer.isSome, dev)

end Dev

end Yaffs
