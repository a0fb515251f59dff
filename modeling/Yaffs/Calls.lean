import Yaffs.Handles
import Yaffs.Library.Execution

/-!
# Calls of the file system interface

The calls that open and close files and change directories.  Each one looks up its paths, makes its
checks one after the other and leaves the work to the guts layer.  The result is missing where the
look-up of a path does not return.
-/

namespace Yaffs

/-! ## Flags -/

def oWrOnly : Nat := 1
def oRdWr : Nat := 2
def oAppend : Nat := 0x8
def oCreat : Nat := 0x200
def oTrunc : Nat := 0x400
def oExcl : Nat := 0x800
def sIRUsr : Nat := 0x100
def sIWUsr : Nat := 0x80
def shareReadFlag : Nat := 1
def shareWriteFlag : Nat := 2

/-- What is asked of an open file. -/
structure OpenFlags where
  read : Bool
  write : Bool
  readOnly : Bool
  append : Bool
  creat : Bool
  excl : Bool
  trunc : Bool
  shareRead : Bool
  shareWrite : Bool
deriving DecidableEq, Repr

/-- Take the flags of a call apart.  Exclusive creation rules out cutting the file off, and means
nothing without creation. -/
def OpenFlags.of (oflag sharing : Nat) : OpenFlags :=
  let rwflags := oflag &&& (oRdWr ||| oWrOnly)
  let creat := decide (oflag &&& oCreat ≠ 0)
  let excl := creat && decide (oflag &&& oExcl ≠ 0)
  { read := rwflags == oRdWr || rwflags == 0
    write := rwflags == oRdWr || rwflags == oWrOnly
    readOnly := rwflags == 0
    append := decide (oflag &&& oAppend ≠ 0)
    creat
    excl
    trunc := decide (oflag &&& oTrunc ≠ 0) && !excl
    shareRead := decide (sharing &&& shareReadFlag ≠ 0)
    shareWrite := decide (sharing &&& shareWriteFlag ≠ 0) }

namespace Vfs

variable {Store : Type} (P : Pages Store) (fuel : Nat) (vfs : Vfs Store)

/-- A call that has failed. -/
def fail (error : Errno) : Int × Vfs Store := (-1, vfs.setError error)

/-- Outcome of a call that returns zero, or -1 with an error. -/
def report (done : Bool) (error : Errno) : Int × Vfs Store :=
  if done then (0, vfs) else vfs.fail error

/-- Are there too many objects? -/
def tooManyObjects : Bool :=
  decide (vfs.vol.param.maxObjects ≠ 0 ∧
    vfs.vol.param.maxObjects < vfs.vol.nObj - vfs.vol.nDeletedFiles)

/-- What is wrong with the directory of a path. -/
def dirError (found : FoundDir) : Option Errno :=
  if found.dir.isNone ∧ found.notDir then some .enotdir
  else if found.loop then some .eloop
  else if found.dir.isNone then some .enoent
  else none

/-! ## Opening -/

/-- Does an open descriptor of the object stand in the way? -/
def sharingDenied (obj : Nat) (flags : OpenFlags) : Bool :=
  let open' := ((List.range nHandles).map vfs.fd).filter fun fd =>
    decide (0 < fd.handleCount ∧ 0 ≤ fd.inodeId ∧
      (vfs.inode fd.inodeId.toNat).iObj = some obj)
  (flags.read && open'.any fun fd => !fd.shareRead) ||
    (!flags.shareRead && open'.any FileDes.reading) ||
    (flags.write && open'.any fun fd => !fd.shareWrite) ||
    (!flags.shareWrite && open'.any FileDes.writing)

/-- Why an existing object cannot be opened.  A directory has to have a search context. -/
def openDenied (obj : Nat) (isDir : Bool) (dsc : Option Nat) (mode : Nat) (flags : OpenFlags) :
    Option Errno :=
  let error := if isDir ∧ (flags.write ∨ ¬flags.read ∨ ¬flags.readOnly) then some .eisdir else none
  let error := if isDir ∧ dsc.isNone then some Errno.enfile else error
  let error := if error.isNone ∧ flags.excl ∧ flags.creat then some Errno.eexist else error
  let denied := error.isSome || (flags.read && decide (mode &&& sIRUsr = 0)) ||
    (flags.write && decide (mode &&& sIWUsr = 0))
  let error := if error.isNone ∧ flags.write ∧ vfs.vol.param.readOnly then some Errno.erofs else error
  let error := if denied ∧ error.isNone then some Errno.eacces else error
  if error.isNone ∧ vfs.sharingDenied obj flags then some .ebusy else error

/-- Take a free search context. -/
def openDir : Option Nat × Vfs Store :=
  match (List.range nDsc).find? fun index => !vfs.dsc index with
  | none => (none, vfs)
  | some index => (some index, { vfs with dsc := Function.update vfs.dsc index true })

/-- Give up opening a file. -/
def openFailed (handle : Nat) (dsc : Option Nat) (error : Errno) : Int × Vfs Store :=
  (-1, ((vfs.setError error).closeDir dsc).putHandle P handle)

/-- Hook the descriptor of a new handle to an object. -/
def openObject (handle : Nat) (obj : Nat) (isDir : Bool) (dsc : Option Nat) (flags : OpenFlags) :
    Int × Vfs Store :=
  let hooked := vfs.getInodeIdForObject obj
  let vfs := hooked.2
  let vfs := match vfs.handleToFileDes handle with
    | none => vfs
    | some fdId =>
      vfs.setFd fdId
        { vfs.fd fdId with
          inodeId := hooked.1
          reading := flags.read
          writing := flags.write
          append := flags.append
          shareRead := flags.shareRead
          shareWrite := flags.shareWrite
          isDir
          position := 0
          dir := dsc }
  let vfs := vfs.mapVol fun vol => vol.modify obj fun node => { node with myInode := some hooked.1 }
  (handle,
    if ¬isDir ∧ flags.trunc ∧ flags.write then vfs.mapVol fun vol => (vol.resizeFile P obj 0).2
    else vfs)

/-- Open an object that exists. -/
def openExisting (handle : Nat) (obj : Nat) (flags : OpenFlags) : Int × Vfs Store :=
  let isDir := vfs.vol.isType obj .directory
  let opened : Option Nat × Vfs Store := if isDir then vfs.openDir else (none, vfs)
  let vfs := opened.2
  let mode := ((vfs.vol.objs obj).map Node.ystMode).getD 0
  match vfs.openDenied obj isDir opened.1 mode flags with
  | some error => vfs.openFailed P handle opened.1 error
  | none => vfs.openObject P handle obj isDir opened.1 flags

/-- Create the file to be opened. -/
def openNew (handle : Nat) (found : FoundDir) (mode : Nat) (flags : OpenFlags) : Int × Vfs Store :=
  match dirError found, found.dir with
  | some error, _ => vfs.openFailed P handle none error
  | none, none => vfs.openFailed P handle none .enoent
  | none, some dir =>
    if ¬flags.creat then vfs.openFailed P handle none .enoent
    else if vfs.vol.param.readOnly then vfs.openFailed P handle none .erofs
    else if vfs.tooManyObjects then vfs.openFailed P handle none .enfile
    else
      let made := vfs.vol.createFile P dir found.name mode
      let vfs := { vfs with vol := made.2 }
      match made.1 with
      | none => vfs.openFailed P handle none .enospc
      | some obj => vfs.openObject P handle obj false none flags

/-- Open a file, or a directory for reading. -/
def yaffsOpen (path : List Char) (oflag mode sharing : Nat) : Option (Int × Vfs Store) :=
  if ¬checkPath path then some (vfs.fail .enametoolong)
  else
    let flags := OpenFlags.of oflag sharing
    let taken := vfs.newHandleAndFileDes
    let vfs := taken.2
    match taken.1 with
    | none => some (vfs.fail .enfile)
    | some handle =>
      (vfs.vol.findObject P fuel none path 0 true).bind fun exact =>
        (vfs.vol.followLink P fuel exact.obj false).bind fun target =>
          match target.1.filter fun obj => vfs.vol.isType obj .file || vfs.vol.isType obj .directory with
          | some obj => some (vfs.openExisting P handle obj flags)
          | none =>
            (vfs.vol.findDirectory P fuel none path 0).map fun found =>
              vfs.openNew P handle { found with loop := target.2 || found.loop } mode flags

/-- Make a second handle for the descriptor of a handle. -/
def yaffsDup (handle : Int) : Int × Vfs Store :=
  match vfs.handleToFileDes handle with
  | none => vfs.fail .ebadf
  | some fdId =>
    let taken := vfs.newHandle
    let vfs := taken.2
    match taken.1 with
    | none => vfs.fail .enomem
    | some index =>
      let vfs := vfs.setHandle index { vfs.handle index with fdId }
      (index, vfs.setFd fdId { vfs.fd fdId with handleCount := (vfs.fd fdId).handleCount + 1 })

/-- Close a handle. -/
def yaffsClose (handle : Int) : Int × Vfs Store :=
  match vfs.handleToFileDes handle, vfs.handleToObject handle with
  | some fdId, some obj =>
    let vfs :=
      if (vfs.fd fdId).isDir then vfs
      else vfs.mapVol fun vol => (vol.flushFile P obj true).2
    (0, vfs.putHandle P handle)
  | _, _ => vfs.fail .ebadf

/-! ## Unlinking -/

/-- What a path asks to be unlinked: a name in a directory. -/
def unlinkTarget (path : List Char) (isDirectory : Bool) : Option (Except Errno (Nat × List Char)) :=
  if ¬checkPath path then some (.error .enametoolong)
  else
    (vfs.vol.findObject P fuel none path 0 false).bind fun exact =>
      (vfs.vol.findDirectory P fuel none path 0).map fun found =>
        match dirError found, found.dir with
        | some error, _ => .error error
        | none, none => .error .enoent
        | none, some dir =>
          if found.name = ['.'] then .error .einval
          else
            match exact.obj with
            | none => .error .enoent
            | some obj =>
              if vfs.vol.param.readOnly then .error .erofs
              else if ¬isDirectory ∧ vfs.vol.isType obj .directory then .error .eisdir
              else if isDirectory ∧ ¬vfs.vol.isType obj .directory then .error .enotdir
              else if isDirectory ∧ obj = objectIdRoot then .error .ebusy
              else .ok (dir, found.name)

/-- Unlink a file or remove a directory.  A file that cannot be unlinked leaves the last error as it
is. -/
def doUnlink (path : List Char) (isDirectory : Bool) : Option (Int × Vfs Store) :=
  (vfs.unlinkTarget P fuel path isDirectory).map fun target =>
    match target with
    | .error error => vfs.fail error
    | .ok (dir, name) =>
      let done := vfs.vol.unlinker P dir name
      let vfs := { vfs with vol := done.2 }
      if done.1 then (0, vfs) else if isDirectory then vfs.fail .enotempty else (-1, vfs)

/-- Unlink a file. -/
def yaffsUnlink (path : List Char) : Option (Int × Vfs Store) := vfs.doUnlink P fuel path false

/-- Memory for a path without the dividers at its end, if it has any. -/
def altPath (path : List Char) : Bool × Vfs Store :=
  if altDirPath path = path then (true, vfs)
  else
    let memory := P.kmalloc vfs.vol.store
    (memory.1, vfs.mapVol fun vol => { vol with store := memory.2 })

/-- Remove a directory. -/
def yaffsRmdir (path : List Char) : Option (Int × Vfs Store) :=
  if ¬checkPath path then some (vfs.fail .enametoolong)
  else
    let memory := vfs.altPath P path
    if ¬memory.1 then some (memory.2.fail .enomem)
    else memory.2.doUnlink P fuel (altDirPath path) true

/-- Unlink the object of a handle. -/
def yaffsFunlink (handle : Int) : Int × Vfs Store :=
  match vfs.handleToObject handle with
  | none => vfs.fail .ebadf
  | some obj =>
    if vfs.vol.param.readOnly then vfs.fail .erofs
    else if vfs.vol.isNonEmptyDir obj then vfs.fail .enotempty
    else if obj = objectIdRoot then vfs.fail .ebusy
    else
      let done := vfs.vol.unlinkObj P (some obj)
      (if done.1 then 0 else -1, { vfs with vol := done.2 })

/-! ## Creating -/

/-- Make a directory. -/
def yaffsMkdir (path : List Char) (mode : Nat) : Option (Int × Vfs Store) :=
  if ¬checkPath path then some (vfs.fail .enametoolong)
  else
    let memory := vfs.altPath P path
    let vfs := memory.2
    if ¬memory.1 then some (vfs.fail .enomem)
    else
      (vfs.vol.findDirectory P fuel none (altDirPath path) 0).map fun found =>
        match dirError found, found.dir with
        | some error, _ => vfs.fail error
        | none, none => vfs.fail .enoent
        | none, some parent =>
          if vfs.tooManyObjects then vfs.fail .enfile
          else if found.name = [] then vfs.fail .eexist
          else if vfs.vol.param.readOnly then vfs.fail .erofs
          else
            let made := vfs.vol.createDir P parent found.name mode
            let vfs := { vfs with vol := made.2 }
            if made.1.isSome then (0, vfs)
            else if (vfs.vol.findByName P parent found.name).isSome then vfs.fail .eexist
            else vfs.fail .enospc

/-- Make a symbolic link to `oldPath`. -/
def yaffsSymlink (oldPath newPath : List Char) : Option (Int × Vfs Store) :=
  if ¬checkPath newPath ∨ ¬checkPath oldPath then some (vfs.fail .enametoolong)
  else
    (vfs.vol.findDirectory P fuel none newPath 0).bind fun found =>
      match dirError found, found.dir with
      | some error, _ => some (vfs.fail error)
      | none, none => some (vfs.fail .enoent)
      | none, some parent =>
        if found.name = [] then some (vfs.fail .enoent)
        else if vfs.tooManyObjects then some (vfs.fail .enfile)
        else if vfs.vol.param.readOnly then some (vfs.fail .erofs)
        else
          let made := vfs.vol.createSymlink P parent found.name 0 oldPath
          let vfs := { vfs with vol := made.2 }
          if made.1.isSome then some (0, vfs)
          else
            (vfs.vol.findObject P fuel none newPath 0 false).map fun exact =>
              vfs.fail (if exact.obj.isSome then .eexist else .enospc)

/-- Make a hard link to the object of `oldPath`. -/
def yaffsLink (oldPath linkPath : List Char) : Option (Int × Vfs Store) :=
  if ¬checkPath linkPath ∨ ¬checkPath oldPath then some (vfs.fail .enametoolong)
  else
    (vfs.vol.findObject P fuel none oldPath 0 true).bind fun exact =>
      (vfs.vol.findObject P fuel none linkPath 0 false).bind fun link =>
        (vfs.vol.findDirectory P fuel none linkPath 0).map fun found =>
          if (exact.dir.isNone ∧ exact.notDir) ∨ (found.dir.isNone ∧ found.notDir) then
            vfs.fail .enotdir
          else if exact.loop ∨ found.loop then vfs.fail .eloop
          else
            match exact.dir, found.dir, exact.obj with
            | some _, some linkDir, some obj =>
              if vfs.vol.param.readOnly then vfs.fail .erofs
              else if vfs.tooManyObjects then vfs.fail .enfile
              else if link.obj.isSome then vfs.fail .eexist
              else if found.name = [] then vfs.fail .enoent
              else if maxNameLength < found.name.length then vfs.fail .enametoolong
              else
                let made := vfs.vol.linkObj P linkDir found.name obj
                ({ vfs with vol := made.2 } : Vfs Store).report made.1.isSome .enospc
            | _, _, _ => vfs.fail .enoent

/-! ## Renaming -/

/-- What is to be renamed, and to what. -/
structure RenameTarget where
  oldDir : Nat
  /-- Missing if the old directory itself is renamed. -/
  oldName : Option (List Char)
  newDir : Nat
  newName : List Char
deriving DecidableEq, Repr

/-- Does the search from a directory up to the root come across the object? -/
def isBelow (obj : Nat) : Nat → Option Nat → Option Bool
  | 0, _ => none
  | _, none => some false
  | left + 1, some dir =>
    if dir = obj then some true else isBelow obj left (vfs.vol.parentOf dir)

/-- Check a file that is to be renamed to the name of a directory, or the other way round. -/
def renameTypeError (obj : Nat) (newObj : Option Nat) : Option Errno :=
  match newObj with
  | none => none
  | some newObj =>
    let objIsDir := vfs.vol.isType obj .directory
    let newIsDir := vfs.vol.isType newObj .directory
    if ¬objIsDir ∧ newIsDir then some .eisdir
    else if objIsDir ∧ ¬newIsDir then some .enotdir
    else if vfs.vol.isNonEmptyDir newObj then some .enotempty
    else none

/-- What two paths ask to be renamed.  A directory is not moved below itself. -/
def renameTarget (oldPath newPath : List Char) : Option (Except Errno RenameTarget) :=
  (vfs.vol.findDirectory P fuel none oldPath 0).bind fun old =>
    (vfs.vol.findDirectory P fuel none newPath 0).bind fun new =>
      (vfs.vol.findObject P fuel none oldPath 0 false).bind fun oldObj =>
        (vfs.vol.findObject P fuel none newPath 0 false).bind fun newObj =>
          let oldName := if old.dir = oldObj.obj then none else some old.name
          if (old.dir.isNone ∧ old.notDir) ∨ (new.dir.isNone ∧ new.notDir) then
            some (.error .enotdir)
          else if old.loop ∨ new.loop then some (.error .eloop)
          else if old.dir.isSome ∧ oldName = some ['.'] then some (.error .einval)
          else
            match old.dir, new.dir, oldObj.obj with
            | some oldDir, some newDir, some obj =>
              if vfs.vol.param.readOnly then some (.error .erofs)
              else
                match vfs.renameTypeError obj newObj.obj with
                | some error => some (.error error)
                | none =>
                  let below : Option Bool :=
                    if vfs.vol.isType obj .directory then vfs.isBelow obj fuel (some newDir)
                    else some false
                  below.map fun below =>
                    if below then .error .einval
                    else .ok { oldDir, oldName, newDir, newName := new.name }
            | _, _, _ => some (.error .enoent)

/-- Rename an object. -/
def yaffsRename (oldPath newPath : List Char) : Option (Int × Vfs Store) :=
  if ¬checkPath oldPath ∨ ¬checkPath newPath then some (vfs.fail .enametoolong)
  else
    let memory := vfs.altPath P newPath
    let vfs := memory.2
    if ¬memory.1 then some (vfs.fail .enomem)
    else
      (vfs.renameTarget P fuel oldPath (altDirPath newPath)).map fun target =>
        match target with
        | .error error => vfs.fail error
        | .ok target =>
          let done := vfs.vol.renameObj P target.oldDir target.oldName target.newDir target.newName
          (if done.1 then 0 else -1, { vfs with vol := done.2 })

/-! ## Calls -/

/-- A call of the file system interface. -/
inductive Call
  | openFile (path : List Char) (oflag mode sharing : Nat)
  | dup (handle : Int)
  | close (handle : Int)
  | mkdir (path : List Char) (mode : Nat)
  | rmdir (path : List Char)
  | symlink (oldPath newPath : List Char)
  | link (oldPath linkPath : List Char)
  | rename (oldPath newPath : List Char)
  | unlink (path : List Char)
  | funlink (handle : Int)
deriving DecidableEq, Repr

/-- Outcome of a call, if it returns. -/
def call : Call → Option (Int × Vfs Store)
  | .openFile path oflag mode sharing => vfs.yaffsOpen P fuel path oflag mode sharing
  | .dup handle => some (vfs.yaffsDup handle)
  | .close handle => some (vfs.yaffsClose P handle)
  | .mkdir path mode => vfs.yaffsMkdir P fuel path mode
  | .rmdir path => vfs.yaffsRmdir P fuel path
  | .symlink oldPath newPath => vfs.yaffsSymlink P fuel oldPath newPath
  | .link oldPath linkPath => vfs.yaffsLink P fuel oldPath linkPath
  | .rename oldPath newPath => vfs.yaffsRename P fuel oldPath newPath
  | .unlink path => vfs.yaffsUnlink P fuel path
  | .funlink handle => some (vfs.yaffsFunlink P handle)

/-- State after a call.  A call that does not return leaves the state as it is. -/
def exec (call : Call) (vfs : Vfs Store) : Vfs Store :=
  ((vfs.call P fuel call).map Prod.snd).getD vfs

end Vfs

end Yaffs
