import Yaffs.Paths

/-!
# Handles

An open file is reached through three tables.  A handle points to a file descriptor, which several
handles share after a duplication.  A descriptor points to an inode, which all descriptors of one
object share.  An inode holds its object: an object that is unlinked meanwhile is deleted when its
inode is released.
-/

namespace Yaffs

/-- Number of entries of each table. -/
def nHandles : Nat := 100

/-- Number of directories that can be open for reading. -/
def nDsc : Nat := 20

/-- What the caller sees of a failed call. -/
inductive Errno
  | enoent
  | ebadf
  | enomem
  | eacces
  | ebusy
  | eexist
  | exdev
  | enotdir
  | eisdir
  | einval
  | enfile
  | enospc
  | erofs
  | enametoolong
  | enotempty
  | eloop
deriving DecidableEq, Repr

/-- A handle, which is in use as long as its count is positive.  It points to a descriptor, or has the
number -1. -/
structure Handle where
  fdId : Int := -1
  useCount : Int := 0
deriving DecidableEq, Repr

/-- A file descriptor with the number of its handles.  It points to an inode, or has the number
-1. -/
structure FileDes where
  isDir : Bool := false
  reading : Bool := false
  writing : Bool := false
  append : Bool := false
  shareRead : Bool := false
  shareWrite : Bool := false
  inodeId : Int := -1
  handleCount : Int := 0
  position : Nat := 0
  /-- Search context of a directory. -/
  dir : Option Nat := none
deriving DecidableEq, Repr

/-- An inode with the number of its descriptors. -/
structure Inode where
  count : Int := 0
  iObj : Option Nat := none
deriving DecidableEq, Repr

/-- The interface of the file system: the mounted device and the tables. -/
structure Vfs (Store : Type) where
  vol : Volume Store
  handle : Nat → Handle := fun _ => {}
  fd : Nat → FileDes := fun _ => {}
  inode : Nat → Inode := fun _ => {}
  /-- Search contexts in use. -/
  dsc : Nat → Bool := fun _ => false
  lastError : Option Errno := none

namespace Vfs

variable {Store : Type} (P : Pages Store) (vfs : Vfs Store)

/-- Change the device. -/
def mapVol (change : Volume Store → Volume Store) : Vfs Store := { vfs with vol := change vfs.vol }

/-- Note why a call has failed. -/
def setError (error : Errno) : Vfs Store := { vfs with lastError := some error }

def setHandle (index : Nat) (handle : Handle) : Vfs Store :=
  { vfs with handle := Function.update vfs.handle index handle }

def setFd (index : Nat) (fd : FileDes) : Vfs Store :=
  { vfs with fd := Function.update vfs.fd index fd }

def setInode (index : Nat) (inode : Inode) : Vfs Store :=
  { vfs with inode := Function.update vfs.inode index inode }

/-- Is the number an index of a table? -/
def inTable (index : Int) : Bool := decide (0 ≤ index ∧ index < nHandles)

/-- The entry of a handle. -/
def handleToPointer (handle : Int) : Option Nat :=
  if inTable handle then some handle.toNat else none

/-- The descriptor of a handle. -/
def handleToFileDes (handle : Int) : Option Nat :=
  match handleToPointer handle with
  | none => none
  | some index =>
    let h := vfs.handle index
    if 0 < h.useCount ∧ inTable h.fdId then some h.fdId.toNat else none

/-- The inode of a handle. -/
def handleToInode (handle : Int) : Option Nat :=
  match vfs.handleToFileDes handle with
  | none => none
  | some fdId =>
    let fd := vfs.fd fdId
    if 0 < fd.handleCount ∧ inTable fd.inodeId then some fd.inodeId.toNat else none

/-- The object of a handle. -/
def handleToObject (handle : Int) : Option Nat :=
  (vfs.handleToInode handle).bind fun index => (vfs.inode index).iObj

/-! ## Inodes -/

/-- The inode of an object. -/
def findInodeIdForObject (obj : Nat) : Option Nat :=
  let equiv := vfs.vol.getEquivalentObj (some obj)
  (List.range nHandles).find? fun index => decide ((vfs.inode index).iObj = equiv)

/-- Take an inode for an object: the one it has, or else a free one. -/
def getInodeIdForObject (obj : Nat) : Int × Vfs Store :=
  let equiv := vfs.vol.getEquivalentObj (some obj)
  let found := (vfs.findInodeIdForObject obj).or
    ((List.range nHandles).find? fun index => (vfs.inode index).iObj.isNone)
  match found with
  | none => (-1, vfs)
  | some index =>
    let count := if (vfs.inode index).iObj.isNone then 0 else (vfs.inode index).count
    (index, vfs.setInode index { count := count + 1, iObj := equiv })

/-- Let go of the object of an inode.  It is deleted if it has been unlinked. -/
def releaseInode (index : Nat) : Vfs Store :=
  match (vfs.inode index).iObj with
  | none => vfs
  | some obj =>
    let vfs := vfs.mapVol fun vol => vol.modify obj fun node => { node with myInode := none }
    let vfs := vfs.setInode index { vfs.inode index with iObj := none }
    if (vfs.vol.objs obj).any Node.unlinked then vfs.mapVol fun vol => (vol.delObj P obj).2 else vfs

/-- Let go of an inode. -/
def putInode (inodeId : Int) : Vfs Store :=
  if inTable inodeId then
    let index := inodeId.toNat
    let count := (vfs.inode index).count - 1
    let vfs := vfs.setInode index { vfs.inode index with count }
    if count ≤ 0 then
      let vfs := vfs.releaseInode P index
      vfs.setInode index { vfs.inode index with count := 0 }
    else vfs
  else vfs

/-! ## Descriptors and handles -/

/-- Close a search context. -/
def closeDir (dir : Option Nat) : Vfs Store :=
  match dir with
  | none => vfs
  | some index => { vfs with dsc := Function.update vfs.dsc index false }

/-- Take a free handle. -/
def newHandle : Option Nat × Vfs Store :=
  match (List.range nHandles).find? fun index => decide ((vfs.handle index).useCount < 1) with
  | none => (none, vfs)
  | some index => (some index, vfs.setHandle index { fdId := -1, useCount := 1 })

/-- Take a free handle and a free descriptor. -/
def newHandleAndFileDes : Option Nat × Vfs Store :=
  let taken := vfs.newHandle
  let vfs := taken.2
  match taken.1 with
  | none => (none, vfs)
  | some index =>
    match (List.range nHandles).find? fun fdId => decide ((vfs.fd fdId).handleCount < 1) with
    | none => (none, vfs.setHandle index { vfs.handle index with useCount := 0 })
    | some fdId =>
      let vfs := vfs.setFd fdId { inodeId := -1, handleCount := 1 }
      (some index, vfs.setHandle index { vfs.handle index with fdId })

/-- Keep a handle in use while a file is read or written. -/
def getHandle (handle : Int) : Vfs Store :=
  match handleToPointer handle with
  | none => vfs
  | some index =>
    let h := vfs.handle index
    if 0 < h.useCount then vfs.setHandle index { h with useCount := h.useCount + 1 } else vfs

/-- Let go of a descriptor. -/
def putFileDes (fdId : Int) : Vfs Store :=
  if inTable fdId then
    let index := fdId.toNat
    let count := (vfs.fd index).handleCount - 1
    let vfs := vfs.setFd index { vfs.fd index with handleCount := count }
    if count < 1 then
      let vfs :=
        if (vfs.fd index).isDir then
          (vfs.closeDir (vfs.fd index).dir).setFd index { vfs.fd index with dir := none }
        else vfs
      if 0 ≤ (vfs.fd index).inodeId then
        let vfs := vfs.putInode P (vfs.fd index).inodeId
        vfs.setFd index { vfs.fd index with inodeId := -1 }
      else vfs
    else vfs
  else vfs

/-- Let go of a handle. -/
def putHandle (handle : Int) : Vfs Store :=
  match handleToPointer handle with
  | none => vfs
  | some index =>
    let h := vfs.handle index
    if 0 < h.useCount then
      let vfs := vfs.setHandle index { h with useCount := h.useCount - 1 }
      if h.useCount - 1 < 1 then
        let vfs := vfs.putFileDes P h.fdId
        vfs.setHandle index { vfs.handle index with fdId := -1 }
      else vfs
    else vfs

end Vfs

end Yaffs
