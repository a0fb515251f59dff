import Yaffs.Descriptors
import Yaffs.Library.Execution

/-!
# Calls of several threads

Every call holds one lock from its start to its end, so that calls follow each other.  A long read or
write drops the lock between two pieces: other threads take their turns there, and the next piece looks
up the handle anew.
-/

namespace Yaffs

namespace Yaffsfs

open Vfs (inTable handleToPointer)

variable (fs : Yaffsfs)

/-! ## Opening and closing -/

/-- Does an open descriptor of the object stand in the way? -/
def sharingDenied (obj : Nat) (flags : OpenFlags) : Bool :=
  let open' := ((List.range nHandles).map fs.fd).filter fun fd =>
    decide (0 < fd.handleCount ∧ 0 ≤ fd.inodeId ∧ (fs.inode fd.inodeId.toNat).iObj = some obj)
  (flags.read && open'.any fun fd => !fd.shareRead) ||
    (!flags.shareRead && open'.any FileDes.reading) ||
    (flags.write && open'.any fun fd => !fd.shareWrite) ||
    (!flags.shareWrite && open'.any FileDes.writing)

/-- Is an existing object not to be opened?  A directory has to have a search context. -/
def openDenied (obj : Nat) (node : FsObj) (context : Bool) (flags : OpenFlags) : Bool :=
  (node.isDir && (flags.write || !flags.read || !flags.readOnly)) ||
    (node.isDir && !context) ||
    (flags.excl && flags.creat) ||
    (flags.read && decide (node.ystMode &&& sIRUsr = 0)) ||
    (flags.write && decide (node.ystMode &&& sIWUsr = 0)) ||
    (flags.write && fs.readOnly node.myDev) ||
    fs.sharingDenied obj flags

/-- Hook the descriptor of a new handle to an object. -/
def openObject (handle obj : Nat) (isDir : Bool) (flags : OpenFlags) : Int × Yaffsfs :=
  let hooked := fs.getInodeIdForObject obj
  let fs := hooked.2
  let fs := match fs.handleToFileDes handle with
    | none => fs
    | some fdId =>
      fs.setFd fdId
        { fs.fd fdId with
          inodeId := hooked.1
          reading := flags.read
          writing := flags.write
          append := flags.append
          shareRead := flags.shareRead
          shareWrite := flags.shareWrite
          isDir
          position := 0 }
  let fs := fs.modify obj fun node => { node with myInode := some hooked.1.toNat }
  (handle,
    if ¬isDir ∧ flags.trunc ∧ flags.write then fs.modify obj fun node => node.resizeFile 0 else fs)

/-- Create the file to be opened. -/
def createFile (found : PathTarget) (mode : Nat) (flags : OpenFlags) : Option (Nat × Yaffsfs) :=
  match found.dir, found.made with
  | some dev, some obj =>
    if flags.creat ∧ fs.isMounted dev ∧ ¬fs.readOnly dev ∧ fs.objs obj = none then
      some (obj,
        { fs with objs := Function.update fs.objs obj (some { myDev := dev, ystMode := mode }) })
    else none
  | _, _ => none

/-- Open a file, or a directory for reading. -/
def yaffsOpen (found : PathTarget) (mode : Nat) (flags : OpenFlags) : Int × Yaffsfs :=
  let taken := fs.newHandleAndFileDes
  let fs := taken.2
  match taken.1 with
  | none => (-1, fs)
  | some handle =>
    match found.obj.bind fun obj => (fs.objs obj).map fun node => (obj, node) with
    | some (obj, node) =>
      if fs.openDenied obj node found.context flags then (-1, fs.putHandle handle)
      else fs.openObject handle obj node.isDir flags
    | none =>
      match fs.createFile found mode flags with
      | none => (-1, fs.putHandle handle)
      | some (obj, fs) => fs.openObject handle obj false flags

/-- Make a second handle for the descriptor of a handle. -/
def yaffsDup (handle : Int) : Int × Yaffsfs :=
  match fs.handleToFileDes handle with
  | none => (-1, fs)
  | some fdId =>
    let taken := fs.newHandle
    let fs := taken.2
    match taken.1 with
    | none => (-1, fs)
    | some index =>
      let fs := fs.setHandle index { fs.handle index with fdId }
      (index, fs.setFd fdId { fs.fd fdId with handleCount := (fs.fd fdId).handleCount + 1 })

/-- Close a handle. -/
def yaffsClose (handle : Int) : Int × Yaffsfs :=
  if (fs.handleToFileDes handle).isSome ∧ (fs.handleToObject handle).isSome then
    (0, fs.putHandle handle)
  else (-1, fs)

/-- What an offset counts from. -/
inductive Whence
  | set
  | cur
  | «end»
deriving DecidableEq, Repr

/-- Greatest size of a file when an offset has so many bits. -/
def maxFileSizeOf (long : Nat) : Nat := if long / 8 < 8 then 0x7fffffff else 0x800000000 - 1

/-- The position that a seek comes to.  An offset is an `unsigned long`, so that no value is negative: all
comparisons of the source with zero hold. -/
def seekPos (long position length : Nat) (offset : Int) (whence : Whence) : Option Nat :=
  let offset := (offset % 2 ^ long).toNat
  if maxFileSizeOf long < offset then none
  else
    let pos := match whence with
      | .set => offset
      | .cur => (position + offset) % 2 ^ long
      | .end => (length + offset) % 2 ^ long
    if pos ≤ maxFileSizeOf long then some pos else none

/-- Move the position of a descriptor, where an `unsigned long` has so many bits. -/
def yaffsLseekOf (long : Nat) (handle offset : Int) (whence : Whence) : Int × Yaffsfs :=
  match fs.handleToFileDes handle, (fs.handleToObject handle).bind fs.objs with
  | some fdId, some obj =>
    match seekPos long (fs.fd fdId).position obj.fileSize offset whence with
    | some pos => (pos, fs.setFd fdId { fs.fd fdId with position := pos })
    | none => (-1, fs)
  | _, _ => (-1, fs)

/-- Move the position of a descriptor. -/
def yaffsLseek (handle offset : Int) (whence : Whence) : Int × Yaffsfs :=
  fs.yaffsLseekOf 64 handle offset whence

/-! ## Devices -/

/-- Mount a device. -/
def yaffsMount (dev : Nat) (readOnly : Bool) : Int × Yaffsfs :=
  if fs.isMounted dev then (-1, fs)
  else
    (0, { fs with
      isMounted := Function.update fs.isMounted dev true
      readOnly := Function.update fs.readOnly dev readOnly })

/-- Forget the objects of a device. -/
def deinitialise (dev : Nat) : Yaffsfs :=
  { fs with
    objs := fun obj => (fs.objs obj).filter fun node => decide (node.myDev ≠ dev)
    isMounted := Function.update fs.isMounted dev false }

/-- Unmount a device that is not busy, or break its handles first. -/
def yaffsUnmount2 (dev : Nat) (force : Bool) : Int × Yaffsfs :=
  if fs.isMounted dev then
    let inUse := fs.isDevBusy dev
    if ¬inUse ∨ force then
      let fs := if inUse then fs.breakDeviceHandles dev else fs
      (0, fs.deinitialise dev)
    else (-1, fs)
  else (-1, fs)

/-- Mount a device anew as read only or as writable. -/
def yaffsRemount (dev : Nat) (force readOnly : Bool) : Int × Yaffsfs :=
  if fs.isMounted dev ∧ (force ∨ ¬fs.isDevBusy dev) then
    (0, { fs with readOnly := Function.update fs.readOnly dev readOnly })
  else (-1, fs)

/-- Format a device that is not mounted, or is unmounted first. -/
def yaffsFormat (dev : Nat) (unmountFlag forceUnmount remount : Bool) : Int × Yaffsfs :=
  let wasMounted := fs.isMounted dev
  let fs := if unmountFlag then (fs.yaffsUnmount2 dev forceUnmount).2 else fs
  if fs.isMounted dev then (-1, fs)
  else if wasMounted ∧ remount then
    (0, { fs with isMounted := Function.update fs.isMounted dev true })
  else (0, fs)

/-! ## Objects -/

/-- An object comes into memory. -/
def load (obj : Nat) (node : FsObj) : Yaffsfs :=
  if fs.isMounted node.myDev ∧ fs.objs obj = none then
    { fs with
      objs := Function.update fs.objs obj (some { node with unlinked := false, myInode := none }) }
  else fs

/-- Unlink an object.  One that is open is kept until it is closed. -/
def unlinkObj (obj : Nat) : Yaffsfs :=
  match fs.objs obj with
  | none => fs
  | some node =>
    if node.myInode.isNone then { fs with objs := Function.update fs.objs obj none }
    else fs.modify obj fun node => { node with unlinked := true }

/-! ## Reading and writing -/

/-- Number of bytes up to the next turn of the other threads. -/
def pieceLength (tr : Transfer) : Nat := min tr.nbyte (rwSize - (tr.pos % rwSize).toNat)

/-- Read one piece. -/
def readPiece (tr : Transfer) : Transfer :=
  let nToRead := pieceLength tr
  match (fs.handleToObject tr.handle).bind fs.objs with
  | none => { tr with nbyte := 0 }
  | some obj =>
    { tr with
      total := tr.total + nToRead
      pos := tr.pos + nToRead
      buf := tr.buf ++ obj.fileRd tr.pos.toNat nToRead
      nbyte := tr.nbyte - nToRead }

/-- Note how much of a piece has been written. -/
def wrote (tr : Transfer) (nWritten : Nat) : Transfer :=
  let total := tr.total + nWritten
  { tr with
    total := if nWritten < 1 ∧ total < 1 then -1 else total
    pos := tr.pos + nWritten
    buf := tr.buf.drop nWritten
    nbyte := if nWritten = pieceLength tr then tr.nbyte - nWritten else 0 }

/-- Write one piece to a device that has room for so many bytes. -/
def writePiece (room : Nat) (tr : Transfer) : Transfer × Yaffsfs :=
  match fs.handleToObject tr.handle with
  | none => (wrote tr 0, fs)
  | some obj =>
    if (fs.devOf obj).all fs.readOnly then (wrote tr 0, fs)
    else
      let nWritten := min (pieceLength tr) room
      (wrote tr nWritten,
        fs.modify obj fun node => node.wrFile tr.pos.toNat (tr.buf.take nWritten))

/-- End a read or write: let go of the handle and move the position. -/
def finish (tr : Transfer) : Yaffsfs :=
  let fs := fs.putHandle tr.handle
  if ¬tr.isP ∧ (if tr.isWrite then 0 < tr.total else 0 ≤ tr.total) then
    fs.setFd tr.fdId { fs.fd tr.fdId with position := (tr.startPos + tr.total).toNat }
  else fs

/-- Do the next piece of a read or write, and end it if nothing is left. -/
def advance (room : Nat) (tr : Transfer) : Yaffsfs :=
  if tr.nbyte = 0 then fs.finish tr
  else
    let done := if tr.isWrite then fs.writePiece room tr else (fs.readPiece tr, fs)
    let fs := done.2
    if 0 < done.1.nbyte then { fs with flight := fs.flight ++ [done.1] } else fs.finish done.1

/-- Are the bounds of a read or write out of range? -/
def outOfRange (pos : Int) (nbyte : Nat) : Bool :=
  decide (pos < 0 ∨ maxFileSize < pos ∨ maxRwSize < nbyte ∨ maxFileSize < pos + nbyte)

/-- Begin to read. -/
def startRead (handle : Int) (nbyte : Nat) (isPread : Bool) (offset : Int) : Yaffsfs :=
  match fs.handleToFileDes handle, fs.handleToObject handle with
  | some fdId, some file =>
    if ¬(fs.fd fdId).reading ∨ maxRwSize < nbyte then fs
    else
      let startPos : Int := if isPread then offset else (fs.fd fdId).position
      let length : Nat := ((fs.objs file).map FsObj.fileSize).getD 0
      let nbyte := min nbyte (length - startPos).toNat
      let bad := outOfRange startPos nbyte
      (fs.getHandle handle).advance 0
        { isWrite := false
          handle
          fdId
          file
          isP := isPread
          startPos
          pos := startPos
          nbyte := if bad then 0 else nbyte
          total := if bad then -1 else 0
          buf := [] }
  | _, _ => fs

/-- Begin to write. -/
def startWrite (handle : Int) (buf : List UInt8) (isPwrite : Bool) (offset : Int) (room : Nat) :
    Yaffsfs :=
  match fs.handleToFileDes handle, fs.handleToObject handle with
  | some fdId, some file =>
    if ¬(fs.fd fdId).writing ∨ (fs.devOf file).all fs.readOnly then fs
    else
      let length : Nat := ((fs.objs file).map FsObj.fileSize).getD 0
      let startPos : Int :=
        if (fs.fd fdId).append then length else if isPwrite then offset else (fs.fd fdId).position
      let bad := outOfRange startPos buf.length
      (fs.getHandle handle).advance room
        { isWrite := true
          handle
          fdId
          file
          isP := isPwrite
          startPos
          pos := startPos
          nbyte := if bad then 0 else buf.length
          total := if bad then -1 else 0
          buf }
  | _, _ => fs

/-- Go on with a read or write that has given others a turn. -/
def resume (index room : Nat) : Yaffsfs :=
  match fs.flight[index]? with
  | none => fs
  | some tr => { fs with flight := fs.flight.eraseIdx index }.advance room tr

/-! ## Runs -/

/-- What a thread does while it holds the lock. -/
inductive Turn
  | openFile (found : PathTarget) (mode : Nat) (flags : OpenFlags)
  | dup (handle : Int)
  | close (handle : Int)
  | lseek (handle offset : Int) (whence : Whence)
  | resize (obj size : Nat)
  | unlink (obj : Nat)
  | load (obj : Nat) (node : FsObj)
  | mount (dev : Nat) (readOnly : Bool)
  | remount (dev : Nat) (force readOnly : Bool)
  | unmount2 (dev : Nat) (force : Bool)
  | format (dev : Nat) (unmountFlag forceUnmount remount : Bool)
  | read (handle : Int) (nbyte : Nat) (isPread : Bool) (offset : Int)
  | write (handle : Int) (buf : List UInt8) (isPwrite : Bool) (offset : Int) (room : Nat)
  | resume (index room : Nat)

/-- State after a turn. -/
def exec (turn : Turn) (fs : Yaffsfs) : Yaffsfs :=
  match turn with
  | .openFile found mode flags => (fs.yaffsOpen found mode flags).2
  | .dup handle => (fs.yaffsDup handle).2
  | .close handle => (fs.yaffsClose handle).2
  | .lseek handle offset whence => (fs.yaffsLseek handle offset whence).2
  | .resize obj size => fs.modify obj fun node => node.resizeFile size
  | .unlink obj => fs.unlinkObj obj
  | .load obj node => fs.load obj node
  | .mount dev readOnly => (fs.yaffsMount dev readOnly).2
  | .remount dev force readOnly => (fs.yaffsRemount dev force readOnly).2
  | .unmount2 dev force => (fs.yaffsUnmount2 dev force).2
  | .format dev unmountFlag forceUnmount remount =>
    (fs.yaffsFormat dev unmountFlag forceUnmount remount).2
  | .read handle nbyte isPread offset => fs.startRead handle nbyte isPread offset
  | .write handle buf isPwrite offset room => fs.startWrite handle buf isPwrite offset room
  | .resume index room => fs.resume index room

end Yaffsfs

end Yaffs
