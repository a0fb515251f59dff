import Yaffs.Collection
import Yaffs.Library.Execution

/-!
# Operations of a mounted device

What the rest of the guts layer asks of the code modelled here.  Writing a file, resizing it,
renaming or deleting an object are sequences of these operations, mixed with changes of memory that
is not modelled.
-/

namespace Yaffs

/-- An operation on a mounted device. -/
inductive FsStep (Flash : Type)
  | writeNewChunk (data : Buf) (tags : ExtTags) (useReserver : Bool)
  | chunkDel (chunk : Int) (markFlash : Bool)
  | blockBecameDirty (block : Nat)
  | skipRestOfBlock
  | readChunk (chunk : Nat)
  | putChunkInFile (number inodeChunk nandChunk : Nat)
  | gcBlock (block : Nat) (wholeBlock : Bool)
  | checkGc (background : Bool)
  | checkptInvalidate
  /-- A save, with the object records of each hash bucket. -/
  | checkpointSave (buckets : List (List (List (List UInt8))))
  /-- Any other change, of objects, caches or anything else in memory. -/
  | memory (change : Fs Flash → Fs Flash)

/-- Carry out one operation. -/
def FsStep.exec {Flash : Type} (T : Tagger Flash) : FsStep Flash → Fs Flash → Fs Flash
  | writeNewChunk data tags useReserver, fs =>
    fs.mapDev fun dev => (dev.writeNewChunk T data tags useReserver).2
  | chunkDel chunk markFlash, fs => fs.mapDev fun dev => dev.chunkDel T chunk markFlash
  | blockBecameDirty block, fs => fs.mapDev fun dev => dev.blockBecameDirty T block
  | skipRestOfBlock, fs => fs.mapDev Dev.skipRestOfBlock
  | readChunk chunk, fs => fs.mapDev fun dev => (dev.rdChunkTagsNand T chunk).2
  | putChunkInFile number inodeChunk nandChunk, fs =>
    (fs.putChunkInFile T number inodeChunk nandChunk).2
  | gcBlock block wholeBlock, fs => (fs.gcBlock T block wholeBlock).2
  | checkGc background, fs => (fs.checkGc T background).2
  | checkptInvalidate, fs => fs.mapDev fun dev => dev.checkptInvalidate T
  | checkpointSave buckets, fs => fs.mapDev fun dev => dev.checkpointSave T buckets
  | memory change, fs => change fs

end Yaffs
