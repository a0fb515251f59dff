import Yaffs.Device

/-!
# A flash kept in memory

A tags handler whose pages never fail.  Reading a page returns what was last programmed since its
block was erased.
-/

namespace Yaffs

/-- Contents of a flash: the programmed pages, in the numbering of the driver. -/
abbrev RamFlash := Int → Option (Buf × ExtTags)

namespace RamFlash

/-- A flash without programmed pages. -/
def blank : RamFlash := fun _ => none

/-- Memory of a null data pointer is never looked at. -/
def dataOf (data : Option Buf) : Buf := data.getD fun _ => 0xff

/-- Program one page. -/
def program (flash : RamFlash) (chunk : Int) (data : Option Buf) (tags : ExtTags) : RamFlash :=
  Function.update flash chunk
    (some (dataOf data, { tags with chunkUsed := true, eccResult := .noError }))

/-- Read one page. -/
def read (flash : RamFlash) (chunk : Int) : Bool × Buf × ExtTags :=
  match flash chunk with
  | some (data, tags) => (true, data, tags)
  | none => (true, fun _ => 0xff, { eccResult := .noError })

/-- Erase the pages of one block. -/
def erase (chunksPerBlock : Nat) (flash : RamFlash) (block : Int) : RamFlash := fun chunk =>
  if block * chunksPerBlock ≤ chunk ∧ chunk < (block + 1) * chunksPerBlock then none
  else flash chunk

/-- State of a block, found from its first page. -/
def query (chunksPerBlock : Nat) (flash : RamFlash) (block : Int) : BlockState × Nat :=
  match flash (block * chunksPerBlock) with
  | some (_, tags) => (.needsScan, tags.seqNumber)
  | none => (.empty, 0)

end RamFlash

/-- The tags handler of a flash kept in memory. -/
def ramTagger (chunksPerBlock : Nat) : Tagger RamFlash where
  writeChunkTags flash chunk data tags := (true, flash.program chunk data tags)
  readChunkTags flash chunk := (flash.read chunk, flash)
  queryBlock flash block := (flash.query chunksPerBlock block, flash)
  markBad flash _ := (true, flash)
  eraseBlock flash block := (true, flash.erase chunksPerBlock block)

/-- A freshly erased device of 60 blocks with two pages each, 55 of them in reserve. -/
def ramDevice : Dev RamFlash :=
  { param :=
      { totalBytesPerChunk := 1024
        chunksPerBlock := 2
        startBlock := 0
        endBlock := 59
        nReservedBlocks := 55 }
    flash := RamFlash.blank
    dataBytesPerChunk := 1024
    internalStartBlock := 1
    internalEndBlock := 60
    blockOffset := 1
    chunkOffset := 2
    blockInfo := fun _ => { blockState := .empty }
    nErasedBlocks := 60
    nFreeChunks := 120 }

end Yaffs
