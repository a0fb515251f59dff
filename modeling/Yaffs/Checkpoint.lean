import Yaffs.CheckpointStream

/-!
# Saving a checkpoint

The checkpoint holds a validity marker, the counters of the device, the block table, the chunk bits,
the object records with their tnodes, a second marker and a checksum.  The object records come from
the object store and are a parameter here: one list of records for each hash bucket.
-/

namespace Yaffs

/-! ## Record layouts -/

/-- Size of `struct yaffs_checkpt_validity`. -/
def checkptValiditySize : Nat := 16

/-- Size of `struct yaffs_checkpt_dev`. -/
def checkptDevSize : Nat := 36

/-- Size of `struct yaffs_block_info`. -/
def blockInfoSize : Nat := 8

/-- Size of `struct yaffs_checkpt_obj`. -/
def checkptObjSize : Nat := 32

/-- Numerical value of the block state. -/
def BlockState.code : BlockState → Nat
  | unknown => 0
  | scanning => 1
  | needsScan => 2
  | empty => 3
  | allocating => 4
  | full => 5
  | dirty => 6
  | checkpoint => 7
  | collecting => 8
  | dead => 9

/-- The two words of a block's record: the bit-fields and the sequence number. -/
def BlockInfo.words (info : BlockInfo) : List Nat :=
  [(info.softDelPages % 2 ^ 10).toNat
    + 2 ^ 10 * (info.pagesInUse % 2 ^ 10).toNat
    + 2 ^ 20 * info.blockState.code
    + 2 ^ 24 * info.needsRetiring.toNat
    + 2 ^ 25 * info.skipErasedCheck.toNat
    + 2 ^ 26 * info.gcPrioritise.toNat
    + 2 ^ 27 * info.chunkErrorStrikes
    + 2 ^ 30 * info.hasSummary.toNat
    + 2 ^ 31 * info.hasShrinkHdr.toNat,
    info.seqNumber]

/-- Memory of one block's record. -/
def BlockInfo.bytes (swap : Bool) (info : BlockInfo) : List UInt8 :=
  info.words.flatMap (Words.bytes swap 4)

namespace Dev

variable {Flash : Type} (T : Tagger Flash) (dev : Dev Flash)

/-- Number of blocks in the device. -/
def nBlocks : Nat := dev.internalEndBlock + 1 - dev.internalStartBlock

/-- Bytes of chunk bits for one block. -/
def chunkBitStride : Nat := (dev.param.chunksPerBlock + 7) / 8

/-! ## Space for a checkpoint -/

/-- Is a checkpoint to be written at all? -/
def checkptRequired : Bool :=
  dev.param.isYaffs2 && !dev.param.skipCheckptWr && !dev.readOnly &&
    decide (checkpointMinBlocks ≤ dev.nBlocks)

/-- Blocks needed for a checkpoint of the present contents.  The bytes are added up in an `int`, and
the division by the size of a block makes it a `u32`. -/
def estimateCheckptBlocks : Int :=
  let devBlocks := dev.param.endBlock - dev.param.startBlock + 1
  let nBytes := checkptValiditySize + checkptDevSize + devBlocks * blockInfoSize
    + devBlocks * dev.chunkBitStride + (checkptObjSize + 4) * dev.nObj
    + (dev.tnodeSize + 4) * dev.nTnodes + checkptValiditySize + 4
  intOfU32 (nBytes % 2 ^ 32 / (dev.dataBytesPerChunk * dev.param.chunksPerBlock % 2 ^ 32) + 3)

/-- Blocks still to be kept back for a checkpoint.  The estimate is kept in the device. -/
def calcCheckptBlocksRequired : Int × Dev Flash :=
  if ¬dev.param.isYaffs2 then (0, dev)
  else
    let dev :=
      if dev.checkpointBlocksRequired = 0 ∧ dev.checkptRequired then
        { dev with checkpointBlocksRequired := dev.estimateCheckptBlocks }
      else dev
    (max (dev.checkpointBlocksRequired - dev.blocksInCheckpt) 0, dev)

/-! ## Records -/

/-- The validity marker at the head or the tail of a checkpoint. -/
def checkptValidity (head : Bool) : List UInt8 :=
  [checkptValiditySize, yaffsMagic, checkpointVersion, head.toNat].flatMap
    (Words.bytes dev.swapEndian 4)

/-- Write a validity marker. -/
def wrCheckptValidityMarker (head : Bool) : Bool × Dev Flash :=
  dev.checkptWrRecord T (dev.checkptValidity head)

/-- The record of the runtime counters.  The sequence number is not swapped. -/
def checkptDev : List UInt8 :=
  let allocBlock : Int := match dev.allocBlock with
    | some block => block
    | none => -1
  ([(checkptDevSize : Int), dev.nErasedBlocks, allocBlock, dev.allocPage, dev.nFreeChunks,
    dev.nDeletedFiles, dev.nUnlinkedFiles, dev.nBgDeletions].flatMap fun field =>
      Words.bytes dev.swapEndian 4 (u32OfInt field))
    ++ Words.bytes false 4 dev.seqNumber

/-- Byte of the block table, as it lies in memory. -/
def blockInfoByte (i : Nat) : UInt8 :=
  ((dev.blockInfo (dev.internalStartBlock + i / blockInfoSize)).bytes false).getD
    (i % blockInfoSize) 0

/-- Byte of the chunk bits, as it lies in memory. -/
def chunkBitsByte (i : Nat) : UInt8 :=
  let block := dev.internalStartBlock + i / dev.chunkBitStride
  let first := 8 * (i % dev.chunkBitStride)
  UInt8.ofNat (((List.range 8).map fun bit =>
    2 ^ bit * (dev.chunkBits block (first + bit)).toNat).sum)

/-- Write the swapped records of blocks one by one, until one fails. -/
def wrCheckptSwappedBlocks : List Nat → Dev Flash → Bool × Dev Flash
  | [], dev => (true, dev)
  | block :: rest, dev =>
    let written := dev.checkptWrRecord T ((dev.blockInfo block).bytes true)
    if written.1 then wrCheckptSwappedBlocks rest written.2 else written

/-- Write the block table, directly from memory when it needs no swapping. -/
def wrCheckptBlockInfo : Bool × Dev Flash :=
  if dev.swapEndian then wrCheckptSwappedBlocks T dev.blockList dev
  else
    let nBytes := dev.nBlocks * blockInfoSize
    let written := dev.checkptWr T blockInfoByte nBytes
    (decide (written.1 = nBytes), written.2)

/-- Write the chunk bits directly from memory. -/
def wrCheckptChunkBits : Bool × Dev Flash :=
  let nBytes := dev.nBlocks * dev.chunkBitStride
  let written := dev.checkptWr T chunkBitsByte nBytes
  (decide (written.1 = nBytes), written.2)

/-- Write the counters, the block table and the chunk bits. -/
def wrCheckptDev : Bool × Dev Flash :=
  let counters := dev.checkptWrRecord T dev.checkptDev
  if ¬counters.1 then (false, counters.2)
  else
    let table := counters.2.wrCheckptBlockInfo T
    if ¬table.1 then (false, table.2) else table.2.wrCheckptChunkBits T

/-- Write records until one fails. -/
def wrCheckptRecords : List (List UInt8) → Dev Flash → Bool × Dev Flash
  | [], dev => (true, dev)
  | record :: rest, dev =>
    let written := dev.checkptWrRecord T record
    if written.1 then wrCheckptRecords rest written.2 else written

/-- Write all objects of one hash bucket.  The loop goes on after a failure, and the last object
decides the result. -/
def wrCheckptBucket : List (List (List UInt8)) → Bool → Dev Flash → Bool × Dev Flash
  | [], ok, dev => (ok, dev)
  | records :: rest, _, dev =>
    let written := wrCheckptRecords T records dev
    wrCheckptBucket rest written.1 written.2

/-- Write the hash buckets until one fails. -/
def wrCheckptBuckets : List (List (List (List UInt8))) → Dev Flash → Bool × Dev Flash
  | [], dev => (true, dev)
  | bucket :: rest, dev =>
    let written := wrCheckptBucket T bucket true dev
    if written.1 then wrCheckptBuckets rest written.2 else written

/-- The record that ends the objects. -/
def checkptEndRecord : List UInt8 :=
  Words.bytes dev.swapEndian 4 checkptObjSize ++ List.replicate (checkptObjSize - 4) 0xff

/-- Write the object records and the end record. -/
def wrCheckptObjs (buckets : List (List (List (List UInt8)))) : Bool × Dev Flash :=
  let written := wrCheckptBuckets T buckets dev
  if written.1 then written.2.checkptWrRecord T dev.checkptEndRecord else written

/-- Write the checksum. -/
def wrCheckptSum : Bool × Dev Flash :=
  dev.checkptWrRecord T (Words.bytes dev.swapEndian 4 dev.getCheckptSum)

/-! ## Saving -/

/-- Go on with the next part of the checkpoint if all before it succeeded. -/
def andThen (written : Bool × Dev Flash) (part : Dev Flash → Bool × Dev Flash) :
    Bool × Dev Flash :=
  if written.1 then part written.2 else written

/-- Write the parts of the checkpoint to the opened stream. -/
def wrCheckptParts (buckets : List (List (List (List UInt8)))) : Bool × Dev Flash :=
  let head := dev.wrCheckptValidityMarker T true
  let device := andThen head (wrCheckptDev T)
  let objects := andThen device fun dev => dev.wrCheckptObjs T buckets
  let tail := andThen objects fun dev => dev.wrCheckptValidityMarker T false
  andThen tail (wrCheckptSum T)

/-- Write a checkpoint.  The stream is closed also when it was not opened. -/
def wrCheckptData (buckets : List (List (List (List UInt8)))) : Dev Flash :=
  let opened := if dev.checkptRequired then dev.checkptOpen T true else (false, dev)
  let written := andThen opened fun dev => dev.wrCheckptParts T buckets
  let closed := written.2.checkptClose T
  { closed.2 with isCheckpointed := written.1 && closed.1 }

/-- Save a checkpoint unless the saved one is still valid. -/
def checkpointSave (buckets : List (List (List (List UInt8)))) : Dev Flash :=
  if dev.isCheckpointed then dev else (dev.checkptInvalidate T).wrCheckptData T buckets

end Dev

end Yaffs
