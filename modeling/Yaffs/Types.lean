import Mathlib.Data.Nat.Bitwise

/-!
# Record types of the guts layer

The enumerations, tags and per-block records of `yaffs_guts.h`, with the constants that the device
layer reads.  Counters are integers, flash and block numbers are naturals, and a page-sized buffer
is the memory seen from its base pointer.
-/

namespace Yaffs

/-- Memory seen from the base pointer of a page-sized buffer. -/
abbrev Buf := Nat → UInt8

/-! ## Constants -/

/-- Lowest sequence number of a data block. -/
def lowestSequenceNumber : Nat := 0x00001000

/-- Sequence numbers of data blocks stay below this bound. -/
def highestSequenceNumber : Nat := 0xefffff00

/-- Sequence number in the tags of every checkpoint page. -/
def sequenceCheckpointData : Nat := 0x21

/-- Sequence number written to a block that failed to be marked bad. -/
def sequenceBadBlock : Nat := 0xffff0000

/-- Object id of the fake object that owns summary pages. -/
def objectIdSummary : Nat := 0x10

/-- Version stamp of a summary page. -/
def summaryVersion : Nat := 1

/-- Version stamp of the checkpoint stream. -/
def checkpointVersion : Nat := 8

/-- Checkpoints are not written on partitions with fewer blocks. -/
def checkpointMinBlocks : Nat := 60

/-- Magic number of the validity markers. -/
def yaffsMagic : Nat := 0x5941ff53

/-! ## Enumerations -/

/-- State of a block in RAM. -/
inductive BlockState
  | unknown
  | scanning
  | needsScan
  | empty
  | allocating
  | full
  | dirty
  | checkpoint
  | collecting
  | dead
deriving DecidableEq, Repr

/-- Block states that `yaffs_count_free_chunks` counts. -/
def BlockState.countsAsFree : BlockState → Bool
  | empty | allocating | collecting | full => true
  | _ => false

/-- Result of the error correction of one page read, in increasing severity. -/
inductive EccResult
  | unknown
  | noError
  | fixed
  | unfixed
deriving DecidableEq, Repr

/-- Numerical value of the enumeration, used by its comparisons. -/
def EccResult.code : EccResult → Nat
  | unknown => 0
  | noError => 1
  | fixed => 2
  | unfixed => 3

/-- Type of an object. -/
inductive ObjType
  | unknown
  | file
  | symlink
  | directory
  | hardlink
  | special
deriving DecidableEq, Repr

/-- Numerical value of the enumeration, as stored in tags, headers and checkpoint records. -/
def ObjType.code : ObjType → Nat
  | unknown => 0
  | file => 1
  | symlink => 2
  | directory => 3
  | hardlink => 4
  | special => 5

/-- The enumeration constant with a given value. -/
def ObjType.ofCode : Nat → ObjType
  | 1 => file
  | 2 => symlink
  | 3 => directory
  | 4 => hardlink
  | 5 => special
  | _ => unknown

@[simp]
theorem ObjType.ofCode_code (type : ObjType) : ObjType.ofCode type.code = type := by
  cases type <;> rfl

theorem ObjType.code_lt (type : ObjType) : type.code < 8 := by
  cases type <;> decide

/-! ## Tags -/

/-- Extended tags of a page, as the tags handler passes them to the guts layer. -/
structure ExtTags where
  /-- The page is in use. -/
  chunkUsed : Bool := false
  /-- Owner; zero when not used. -/
  objId : Nat := 0
  /-- Zero for an object header, else the number of the data chunk in the file. -/
  chunkId : Nat := 0
  /-- Number of data bytes, only valid for data chunks. -/
  nBytes : Nat := 0
  eccResult : EccResult := .unknown
  blockBad : Bool := false
  isDeleted : Bool := false
  serialNumber : Nat := 0
  /-- Sequence number of the block that holds the page. -/
  seqNumber : Nat := 0
  extraAvailable : Bool := false
  extraParentId : Nat := 0
  extraIsShrink : Bool := false
  extraShadows : Bool := false
  extraObjType : ObjType := .unknown
  extraFileSize : Nat := 0
  extraEquivId : Nat := 0
deriving DecidableEq, Repr

/-- One entry of a block summary. -/
structure SummaryTags where
  objId : Nat := 0
  chunkId : Nat := 0
  nBytes : Nat := 0
deriving DecidableEq, Repr

/-! ## Blocks -/

/-- Value held by a ten-bit signed bit-field after storing `value` in it. -/
def signedField10 (value : Int) : Int := (value + 512) % 1024 - 512

theorem signedField10_of_mem {value : Int} (lower : -512 ≤ value) (upper : value ≤ 511) :
    signedField10 value = value := by
  unfold signedField10
  omega

/-- Block data in RAM. -/
structure BlockInfo where
  /-- Number of soft deleted pages, a ten-bit signed field. -/
  softDelPages : Int := 0
  /-- Number of pages in use, a ten-bit signed field. -/
  pagesInUse : Int := 0
  blockState : BlockState := .unknown
  needsRetiring : Bool := false
  skipErasedCheck : Bool := false
  gcPrioritise : Bool := false
  /-- Three-bit count of failures on the block. -/
  chunkErrorStrikes : Nat := 0
  hasSummary : Bool := false
  hasShrinkHdr : Bool := false
  seqNumber : Nat := 0
deriving DecidableEq, Repr

/-- Device parameters that the modelled functions read.  `wrAttempts` is the global
`yaffs_wr_attempts` and `verifyErasure` the part of the trace mask that makes an erasure read the
block back. -/
structure Param where
  inbandTags : Bool := false
  totalBytesPerChunk : Nat := 2048
  chunksPerBlock : Nat := 64
  startBlock : Nat := 0
  endBlock : Nat := 0
  nReservedBlocks : Nat := 2
  nCaches : Nat := 0
  cacheBypassAligned : Bool := false
  isYaffs2 : Bool := true
  refreshPeriod : Int := 0
  skipCheckptRd : Bool := false
  skipCheckptWr : Bool := false
  deferedDirUpdate : Bool := false
  disableSoftDel : Bool := false
  alwaysCheckErased : Bool := false
  disableBadBlockMarking : Bool := false
  wrAttempts : Nat := 0
  verifyErasure : Bool := false
deriving DecidableEq, Repr

end Yaffs
