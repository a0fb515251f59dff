import Yaffs.Calls

/-!
# Descriptors of several devices

The tables of handles, descriptors and inodes are shared by all devices.  What matters of a device
here is whether it is mounted and which of its objects are in memory.  Where a path leads, which
objects a mounted device loads and how much room it has may be anything at any time.
-/

namespace Yaffs

/-- Bytes that are read or written without giving other threads a turn. -/
def rwSize : Nat := 8192

/-- Longest read or write. -/
def maxRwSize : Nat := 0x70000000

/-- Greatest size of a file. -/
def maxFileSize : Int := 0x800000000 - 1

/-- An object in memory, reached after all links have been followed. -/
structure FsObj where
  myDev : Nat
  isDir : Bool := false
  ystMode : Nat := sIRUsr ||| sIWUsr
  unlinked : Bool := false
  /-- The inode that holds the object. -/
  myInode : Option Nat := none
  fileSize : Nat := 0
  /-- Contents of a file, up to its size. -/
  byte : Nat → UInt8 := fun _ => 0

namespace FsObj

variable (obj : FsObj)

/-- Read from a file. -/
def fileRd (pos n : Nat) : List UInt8 := (List.range n).map fun i => obj.byte (pos + i)

/-- Contents of a file. -/
def contents : List UInt8 := obj.fileRd 0 obj.fileSize

/-- Write to a file.  A hole between its end and the first byte reads as zeros. -/
def wrFile (pos : Nat) (bytes : List UInt8) : FsObj :=
  { obj with
    fileSize := max obj.fileSize (pos + bytes.length)
    byte := fun i =>
      if i < pos then if i < obj.fileSize then obj.byte i else 0
      else (bytes[i - pos]?).getD (obj.byte i) }

/-- Cut a file off, or fill it up with zeros. -/
def resizeFile (size : Nat) : FsObj :=
  { obj with
    fileSize := size
    byte := fun i => if i < obj.fileSize then obj.byte i else 0 }

end FsObj

/-- A read or write that has begun. -/
structure Transfer where
  isWrite : Bool
  handle : Int
  /-- The descriptor of the handle at the start. -/
  fdId : Nat
  /-- The object of the handle at the start.  Each piece looks it up anew. -/
  file : Nat
  /-- Is the position given with the call? -/
  isP : Bool
  startPos : Int
  pos : Int
  /-- Number of bytes left. -/
  nbyte : Nat
  /-- Number of bytes read or written, or -1. -/
  total : Int
  /-- The bytes read so far, or the bytes left to write. -/
  buf : List UInt8
deriving DecidableEq, Repr

/-- What the look-up of a path has come to. -/
structure PathTarget where
  /-- The file or directory that the path leads to. -/
  obj : Option Nat := none
  /-- Is there a search context for a directory? -/
  context : Bool := true
  /-- The device of the directory for a file that is not there. -/
  dir : Option Nat := none
  /-- The object that creating the file makes. -/
  made : Option Nat := none
deriving DecidableEq, Repr

/-- The interface with the tables that all devices share. -/
structure Yaffsfs where
  handle : Nat → Handle := fun _ => {}
  fd : Nat → FileDes := fun _ => {}
  inode : Nat → Inode := fun _ => {}
  /-- Objects in memory. -/
  objs : Nat → Option FsObj := fun _ => none
  isMounted : Nat → Bool := fun _ => false
  readOnly : Nat → Bool := fun _ => false
  /-- Reads and writes that have let other threads take a turn. -/
  flight : List Transfer := []

namespace Yaffsfs

open Vfs (inTable handleToPointer)

variable (fs : Yaffsfs)

def setHandle (index : Nat) (handle : Handle) : Yaffsfs :=
  { fs with handle := Function.update fs.handle index handle }

def setFd (index : Nat) (fd : FileDes) : Yaffsfs :=
  { fs with fd := Function.update fs.fd index fd }

def setInode (index : Nat) (inode : Inode) : Yaffsfs :=
  { fs with inode := Function.update fs.inode index inode }

/-- Change an object in memory. -/
def modify (obj : Nat) (change : FsObj → FsObj) : Yaffsfs :=
  { fs with objs := Function.update fs.objs obj ((fs.objs obj).map change) }

/-- The device of an object. -/
def devOf (obj : Nat) : Option Nat := (fs.objs obj).map FsObj.myDev

/-- The descriptor of a handle. -/
def handleToFileDes (handle : Int) : Option Nat :=
  match handleToPointer handle with
  | none => none
  | some index =>
    let h := fs.handle index
    if 0 < h.useCount ∧ inTable h.fdId then some h.fdId.toNat else none

/-- The inode of a handle. -/
def handleToInode (handle : Int) : Option Nat :=
  match fs.handleToFileDes handle with
  | none => none
  | some fdId =>
    let fd := fs.fd fdId
    if 0 < fd.handleCount ∧ inTable fd.inodeId then some fd.inodeId.toNat else none

/-- The object of a handle. -/
def handleToObject (handle : Int) : Option Nat :=
  (fs.handleToInode handle).bind fun index => (fs.inode index).iObj

/-! ## Inodes -/

/-- The inode of an object. -/
def findInodeIdForObject (obj : Nat) : Option Nat :=
  (List.range nHandles).find? fun index => decide ((fs.inode index).iObj = some obj)

/-- Take an inode for an object: the one it has, or else a free one. -/
def getInodeIdForObject (obj : Nat) : Int × Yaffsfs :=
  let found := (fs.findInodeIdForObject obj).or
    ((List.range nHandles).find? fun index => (fs.inode index).iObj.isNone)
  match found with
  | none => (-1, fs)
  | some index =>
    let count := if (fs.inode index).iObj.isNone then 0 else (fs.inode index).count
    (index, fs.setInode index { count := count + 1, iObj := some obj })

/-- Let go of the object of an inode.  It is deleted if it has been unlinked. -/
def releaseInode (index : Nat) : Yaffsfs :=
  match (fs.inode index).iObj with
  | none => fs
  | some obj =>
    let fs := fs.modify obj fun node => { node with myInode := none }
    let fs := fs.setInode index { fs.inode index with iObj := none }
    if (fs.objs obj).any FsObj.unlinked then { fs with objs := Function.update fs.objs obj none }
    else fs

/-- Let go of an inode. -/
def putInode (inodeId : Int) : Yaffsfs :=
  if inTable inodeId then
    let index := inodeId.toNat
    let count := (fs.inode index).count - 1
    let fs := fs.setInode index { fs.inode index with count }
    if count ≤ 0 then
      let fs := fs.releaseInode index
      fs.setInode index { fs.inode index with count := 0 }
    else fs
  else fs

/-! ## Descriptors and handles -/

/-- Take a free handle. -/
def newHandle : Option Nat × Yaffsfs :=
  match (List.range nHandles).find? fun index => decide ((fs.handle index).useCount < 1) with
  | none => (none, fs)
  | some index => (some index, fs.setHandle index { fdId := -1, useCount := 1 })

/-- Take a free handle and a free descriptor. -/
def newHandleAndFileDes : Option Nat × Yaffsfs :=
  let taken := fs.newHandle
  let fs := taken.2
  match taken.1 with
  | none => (none, fs)
  | some index =>
    match (List.range nHandles).find? fun fdId => decide ((fs.fd fdId).handleCount < 1) with
    | none => (none, fs.setHandle index { fs.handle index with useCount := 0 })
    | some fdId =>
      let fs := fs.setFd fdId { inodeId := -1, handleCount := 1 }
      (some index, fs.setHandle index { fs.handle index with fdId })

/-- Keep a handle in use while a file is read or written. -/
def getHandle (handle : Int) : Yaffsfs :=
  match handleToPointer handle with
  | none => fs
  | some index =>
    let h := fs.handle index
    if 0 < h.useCount then fs.setHandle index { h with useCount := h.useCount + 1 } else fs

/-- Let go of a descriptor. -/
def putFileDes (fdId : Int) : Yaffsfs :=
  if inTable fdId then
    let index := fdId.toNat
    let count := (fs.fd index).handleCount - 1
    let fs := fs.setFd index { fs.fd index with handleCount := count }
    if count < 1 ∧ 0 ≤ (fs.fd index).inodeId then
      let fs := fs.putInode (fs.fd index).inodeId
      fs.setFd index { fs.fd index with inodeId := -1 }
    else fs
  else fs

/-- Let go of a handle. -/
def putHandle (handle : Int) : Yaffsfs :=
  match handleToPointer handle with
  | none => fs
  | some index =>
    let h := fs.handle index
    if 0 < h.useCount then
      let fs := fs.setHandle index { h with useCount := h.useCount - 1 }
      if h.useCount - 1 < 1 then
        let fs := fs.putFileDes h.fdId
        fs.setHandle index { fs.handle index with fdId := -1 }
      else fs
    else fs

/-- Break one handle, and its descriptor if its object is on the device. -/
def breakHandle (dev index : Nat) : Yaffsfs :=
  let h := fs.handle index
  let fdId := fs.handleToFileDes index
  let obj := fs.handleToObject index
  let fs := if 0 < h.useCount then fs.setHandle index { fdId := 0, useCount := 0 } else fs
  match fdId, obj with
  | some fdId, some obj =>
    if 0 < (fs.fd fdId).handleCount ∧ fs.devOf obj = some dev then
      let fs := fs.setFd fdId { fs.fd fdId with handleCount := 0 }
      let fs := fs.putInode (fs.fd fdId).inodeId
      fs.setFd fdId { fs.fd fdId with inodeId := -1 }
    else fs
  | _, _ => fs

/-- Break the handles of a device. -/
def breakDeviceHandles (dev : Nat) : Yaffsfs :=
  (List.range nHandles).foldl (fun fs index => fs.breakHandle dev index) fs

/-- Is an object of the device open? -/
def isDevBusy (dev : Nat) : Bool :=
  (List.range nHandles).any fun index =>
    (fs.handleToObject index).any fun obj => decide (fs.devOf obj = some dev)

end Yaffsfs

end Yaffs
