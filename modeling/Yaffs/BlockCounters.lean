import Yaffs.BalancedRuns
import Yaffs.Geometry

/-!
# The counters of a block

`pages_in_use` and `soft_del_pages` are signed fields of ten bits, whatever the number of pages in a
block.  They are exact for blocks of at most 511 pages, and an allocation too many makes a block of
512 pages look emptier than empty.
-/

namespace Yaffs

namespace Dev

variable {Flash : Type} (dev : Dev Flash)

/-- What the collector and the count of free pages rely on: the counters of a block are those of its
marks, and neither they nor their differences leave the block. -/
structure CountersFit (block : Nat) : Prop where
  pages_exact : (dev.blockInfo block).pagesInUse = dev.countChunkBits block
  softDel_exact : (dev.blockInfo block).softDelPages = 0
  pages_nonneg : 0 ≤ (dev.blockInfo block).pagesInUse
  pages_le : (dev.blockInfo block).pagesInUse ≤ dev.param.chunksPerBlock
  softDel_nonneg : 0 ≤ (dev.blockInfo block).softDelPages
  softDel_le : (dev.blockInfo block).softDelPages ≤ dev.param.chunksPerBlock
  used_nonneg : 0 ≤ (dev.blockInfo block).pagesInUse - (dev.blockInfo block).softDelPages
  unused_nonneg : 0 ≤ (dev.param.chunksPerBlock : Int) - (dev.blockInfo block).pagesInUse

variable {dev}

/-- On balanced books the counters fit. -/
theorem countersFit_of_balanced (balanced : dev.books.Balanced) {block : Nat}
    (block_mem : block ∈ dev.blocks) : dev.CountersFit block := by
  have sheet : (dev.books.sheet block).Sound dev.param.chunksPerBlock :=
    balanced.sheet block block_mem
  have counted : (dev.blockInfo block).pagesInUse = _ := sheet.counted
  have softDel : (dev.blockInfo block).softDelPages = 0 := sheet.softDel
  have lower := Sheet.marked_nonneg dev.param.chunksPerBlock (dev.books.sheet block)
  have upper := Sheet.marked_le dev.param.chunksPerBlock (dev.books.sheet block)
  exact
    { pages_exact := counted
      softDel_exact := softDel
      pages_nonneg := by omega
      pages_le := by omega
      softDel_nonneg := by omega
      softDel_le := by omega
      used_nonneg := by omega
      unused_nonneg := by omega }

end Dev

namespace FsStep

open Dev Execution

variable {Flash : Type} {T : Tagger Flash}

/-- The geometry of a device of 60 blocks of 512 pages. -/
def wideBlocks : GeometryParam where
  inbandTags := false
  isYaffs2 := true
  wideTnodesDisabled := false
  disableSummary := false
  totalBytesPerChunk := 1024
  chunksPerBlock := 512
  startBlock := 0
  endBlock := 59
  nReservedBlocks := 55

/-- The erased device of that geometry. -/
def wideDevice : Dev RamFlash :=
  { ramDevice with
    param := { ramDevice.param with chunksPerBlock := wideBlocks.chunksPerBlock.toNat }
    nFreeChunks := 30720 }

end FsStep

end Yaffs
