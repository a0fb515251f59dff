import Yaffs.Tnodes

/-!
# Objects

The objects of the file system hang in hash buckets, newest first.  A reference from one object to
another is the other's number.
-/

namespace Yaffs

/-- Number of hash buckets. -/
def nObjectBuckets : Nat := 256

/-- Number of the root directory. -/
def objectIdRoot : Nat := 1

/-- Number of the lost and found directory. -/
def objectIdLostNFound : Nat := 2

/-- Number of the directory of unlinked objects. -/
def objectIdUnlinked : Nat := 3

/-- Number of the directory of deleted objects. -/
def objectIdDeleted : Nat := 4

/-- The fields of `struct yaffs_obj` used by the model.  The variants of an object do not share
memory here. -/
structure Obj where
  objId : Nat
  variantType : ObjType := .unknown
  deleted : Bool := false
  softDel : Bool := false
  unlinked : Bool := false
  fake : Bool := false
  renameAllowed : Bool := false
  unlinkAllowed : Bool := false
  lazyLoaded : Bool := false
  /-- Removed from the flash but still held by an inode. -/
  deferedFree : Bool := false
  /-- An inode holds the object. -/
  hasInode : Bool := false
  /-- Eight-bit serial number of the header. -/
  serial : Nat := 0
  parent : Option Nat := none
  hdrChunk : Int := 0
  nDataChunks : Int := 0
  file : FileVar := {}
  /-- Children of a directory, newest first. -/
  children : List Nat := []
  equivId : Nat := 0
  equivObj : Option Nat := none
  /-- Hard links to this object, newest first. -/
  hardLinks : List Nat := []

/-- A device with its objects. -/
structure Fs (Flash : Type) where
  dev : Dev Flash
  buckets : Nat → List Obj := fun _ => []

/-- Hash bucket of an object number. -/
def hashFn (number : Nat) : Nat := number % nObjectBuckets

namespace Fs

variable {Flash : Type} (T : Tagger Flash) (fs : Fs Flash)

/-- Change the device. -/
def mapDev (change : Dev Flash → Dev Flash) : Fs Flash := { fs with dev := change fs.dev }

/-- The object with a number, unless it only waits to be freed. -/
def findByNumber (number : Nat) : Option Obj :=
  match (fs.buckets (hashFn number)).find? fun obj => decide (obj.objId = number) with
  | some obj => if obj.deferedFree then none else some obj
  | none => none

/-- Change the object with a number. -/
def modifyObj (number : Nat) (change : Obj → Obj) : Fs Flash :=
  { fs with
    buckets := Function.update fs.buckets (hashFn number)
      ((fs.buckets (hashFn number)).map fun obj =>
        if obj.objId = number then change obj else obj) }

/-- Take an object out of its hash bucket. -/
def unhashObj (number : Nat) : Fs Flash :=
  { fs with
    buckets := Function.update fs.buckets (hashFn number)
      ((fs.buckets (hashFn number)).eraseP fun obj => decide (obj.objId = number)) }

/-- Take an object out of its directory. -/
def removeObjFromDir (number : Nat) (parent : Option Nat) : Fs Flash :=
  let fs := match parent with
    | some directory => fs.modifyObj directory fun obj =>
        { obj with children := obj.children.erase number }
    | none => fs
  fs.modifyObj number fun obj => { obj with parent := none }

/-- Free an object, or leave that to the inode that still holds it. -/
def freeObj (number : Nat) (hasInode : Bool) : Fs Flash :=
  if hasInode then fs.modifyObj number fun obj => { obj with deferedFree := true }
  else
    (fs.unhashObj number).mapDev fun dev =>
      { dev with nObj := dev.nObj - 1, checkpointBlocksRequired := 0 }

/-! ## Chunks of a file -/

/-- Enter a page in the tree of a file, outside of a scan.  Page zero only makes the tnodes.  A page
for an object that is no file is deleted again. -/
def putChunkInFile (number inodeChunk nandChunk : Nat) : Bool × Fs Flash :=
  match fs.findByNumber number with
  | none => (false, fs)
  | some obj =>
    if obj.variantType ≠ .file then (true, fs.mapDev fun dev => dev.chunkDel T nandChunk true)
    else
      let found := fs.dev.addFindTnode0 obj.file inodeChunk none
      let file := found.2.1
      let fs := { fs with dev := found.2.2 }
      if ¬found.1 then (false, fs.modifyObj number fun obj => { obj with file })
      else if nandChunk = 0 then (true, fs.modifyObj number fun obj => { obj with file })
      else
        let width := fs.dev.tnodeWidth
        let grpBits := fs.dev.chunkGrpBits
        let words := (file.top.find file.topLevel inodeChunk).getD []
        let existing := getGroupBase width grpBits words inodeChunk
        let top := file.top.modify (fun words => loadTnode0 width grpBits words inodeChunk nandChunk)
          file.topLevel inodeChunk
        (true, fs.modifyObj number fun obj =>
          { obj with
            file := { file with top }
            nDataChunks := if existing = 0 then obj.nDataChunks + 1 else obj.nDataChunks })

/-! ## Deletion -/

/-- Delete an object that is in the directory of deleted objects already: its header page goes, and
the object with it. -/
def delDeletedObj (obj : Obj) : Fs Flash :=
  let fs := fs.removeObjFromDir obj.objId obj.parent
  let fs := fs.mapDev fun dev => dev.chunkDel T obj.hdrChunk true
  let fs := fs.modifyObj obj.objId fun obj => { obj with hdrChunk := 0 }
  fs.freeObj obj.objId obj.hasInode

end Fs

end Yaffs
