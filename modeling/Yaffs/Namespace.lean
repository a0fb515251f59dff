import Yaffs.Objects

/-!
# Names and directories

The part of the guts layer that keeps the objects of a mounted device in directories: creating
objects, linking them, renaming them and deleting them.  What is stored on the pages below is a
parameter, of which nothing is assumed: whether a header can be written, which name a header holds
and what garbage collection comes across may be anything at any time.
-/

namespace Yaffs

/-- Longest name of an object. -/
def maxNameLength : Nat := 255

/-- Longest name that is kept in memory. -/
def shortNameLength : Nat := 15

/-- Longest target of a symbolic link. -/
def maxAliasLength : Nat := 159

/-- Name of the lost and found directory. -/
def lostNFoundName : List Char := "lost+found".toList

/-- Prefix of the name made up for an object without one. -/
def lostNFoundPrefix : List Char := "obj".toList

/-- The fields of `struct yaffs_obj` that make up the directory structure.  A reference to another
object is the other's number. -/
structure Node where
  variantType : ObjType := .unknown
  /-- The name, if it is short. -/
  shortName : List Char := []
  /-- Sixteen-bit sum of the name. -/
  sum : Nat := 0
  ystMode : Nat := 0
  parent : Option Nat := none
  /-- Children of a directory, newest first. -/
  children : List Nat := []
  /-- What a hard link stands for. -/
  equivObj : Option Nat := none
  /-- Hard links to this object, newest first. -/
  hardLinks : List Nat := []
  /-- Target of a symbolic link. -/
  aliasStr : List Char := []
  deleted : Bool := false
  softDel : Bool := false
  unlinked : Bool := false
  fake : Bool := false
  renameAllowed : Bool := false
  unlinkAllowed : Bool := false
  isShadowed : Bool := false
  dirty : Bool := false
  deferedFree : Bool := false
  /-- The inode that holds the object. -/
  myInode : Option Int := none
deriving DecidableEq, Repr

/-- What the directory structure asks of memory and of the pages below.  Where pages may be written
garbage is collected first: the numbers that come back are those of the soft deleted files whose last
page the collector has dropped. -/
structure Pages (Store : Type) where
  /-- Is there memory? -/
  kmalloc : Store → Bool × Store
  /-- Make the first tnode of a new file. -/
  getTnode : Store → Nat → Bool × Store
  /-- Free the tnodes of a file. -/
  freeTnodes : Store → Nat → Store
  /-- Collect garbage if there is reason to. -/
  checkGc : Store → List Nat × Store
  /-- Write the header of an object, with a new name, as a shrink header, shadowing an object. -/
  writeHeader : Store → Nat → Node → Option (List Char) → Bool → Nat → Bool × Store
  /-- The page of the header of an object, zero or less for none. -/
  hdrChunk : Store → Nat → Int
  /-- The name in the header of an object. -/
  headerName : Store → Nat → List Char
  /-- Delete the page of the header. -/
  dropHeader : Store → Nat → Store
  /-- Is part of the file in the cache only? -/
  objCacheDirty : Store → Nat → Bool
  /-- Write the cached part of a file, and drop it from the cache if asked to. -/
  flushFileCache : Store → Nat → Bool → List Nat × Store
  /-- Drop the cached part of a file. -/
  invalidateWholeCache : Store → Nat → Store
  fileSize : Store → Nat → Nat
  nDataChunks : Store → Nat → Int
  /-- Grow or shrink the data of a file. -/
  resizeData : Store → Nat → Nat → List Nat × Store
  /-- Soft delete all pages of a file. -/
  softDelWorker : Store → Nat → Store

/-- Parameters of a mounted device that the directory structure depends on. -/
structure VolumeParam where
  /-- Mount point. -/
  name : List Char := []
  isYaffs2 : Bool := true
  disableSoftDel : Bool := false
  deferedDirUpdate : Bool := false
  readOnly : Bool := false
  /-- Bound for the number of objects, zero for none. -/
  maxObjects : Int := 0
deriving DecidableEq, Repr

/-- A mounted device with its objects. -/
structure Volume (Store : Type) where
  param : VolumeParam := {}
  store : Store
  objs : Nat → Option Node := fun _ => none
  /-- Numbers of the objects in each hash bucket, newest first. -/
  objBucket : Nat → List Nat := fun _ => []
  bucketFinder : Nat := 0
  nObj : Int := 0
  nDeletedFiles : Int := 0
  nUnlinkedFiles : Int := 0
  gcDisable : Bool := false

/-! ## Names -/

/-- The length of a string as the port counts it: one more than the limit if the string is longer. -/
def strnlen (s : List Char) (maxlen : Nat) : Nat := min s.length (maxlen + 1)

/-- A copy of the target of a symbolic link. -/
def cloneStr (str : List Char) : List Char := str.take (strnlen str maxAliasLength)

/-- Sum of the first characters of a name, each times its position. -/
def calcNameSum (name : List Char) : Nat :=
  ((name.take (maxNameLength / 2 - 1)).zipIdx 1).foldl
    (fun sum ch => (sum + (ch.1.toNat &&& 0x1f) * ch.2) % 2 ^ 16) 0

/-- Make up a name from the number of an object that has none. -/
def fixNullName (number : Nat) (name : List Char) (bufferSize : Nat) : List Char :=
  if name = [] then
    (lostNFoundPrefix ++ (if number = 0 then [] else Nat.toDigits 10 number)).take (bufferSize - 1)
  else name

/-- Give an object a name.  Only a short name is kept in memory. -/
def Node.setObjName (number : Nat) (obj : Node) (name : List Char) : Node :=
  if name = [] then
    let shortName := fixNullName number [] shortNameLength
    { obj with shortName, sum := calcNameSum shortName }
  else
    { obj with
      shortName := if name.length ≤ shortNameLength then name else []
      sum := calcNameSum name }

namespace Volume

variable {Store : Type} (P : Pages Store) (vol : Volume Store)

/-- Change the object with a number. -/
def modify (number : Nat) (change : Node → Node) : Volume Store :=
  { vol with objs := Function.update vol.objs number ((vol.objs number).map change) }

/-- The name of an object. -/
def getObjName (number : Nat) (obj : Node) : List Char :=
  let name :=
    if number = objectIdLostNFound then lostNFoundName
    else if obj.shortName ≠ [] then obj.shortName
    else if 0 < P.hdrChunk vol.store number then (P.headerName vol.store number).take maxNameLength
    else []
  fixNullName number name (maxNameLength + 1)

/-- Does a child have the name? -/
def hasName (name : List Char) (number : Nat) : Bool :=
  match vol.objs number with
  | none => false
  | some obj =>
    if number = objectIdLostNFound then name == lostNFoundName
    else (obj.sum == calcNameSum name || decide (P.hdrChunk vol.store number ≤ 0)) &&
      name.take maxNameLength == (vol.getObjName P number obj).take maxNameLength

/-- The newest child of a directory with a name. -/
def findByName (directory : Nat) (name : List Char) : Option Nat :=
  match vol.objs directory with
  | none => none
  | some dir => dir.children.find? (vol.hasName P name)

/-- The object that a hard link stands for, or the object itself. -/
def getEquivalentObj (number : Option Nat) : Option Nat :=
  match number with
  | none => none
  | some number =>
    match vol.objs number with
    | none => none
    | some obj => if obj.variantType = .hardlink then obj.equivObj else some number

/-- Is the object of a type? -/
def isType (number : Nat) (type : ObjType) : Bool :=
  (vol.objs number).any fun obj => decide (obj.variantType = type)

/-- Is the object a directory with children? -/
def isNonEmptyDir (number : Nat) : Bool :=
  (vol.objs number).any fun obj =>
    decide (obj.variantType = .directory) && !obj.children.isEmpty

/-- The directory of an object. -/
def parentOf (number : Nat) : Option Nat := (vol.objs number).bind Node.parent

/-! ## Directories -/

/-- Take an object out of its directory. -/
def removeObjFromDir (number : Nat) : Volume Store :=
  let vol := match vol.parentOf number with
    | some directory => vol.modify directory fun dir =>
        { dir with children := dir.children.erase number }
    | none => vol
  vol.modify number fun obj => { obj with parent := none }

/-- Move an object into a directory.  What comes to the unlinked or the deleted objects can no longer
be renamed. -/
def addObjToDir (directory number : Nat) : Volume Store :=
  let vol := vol.removeObjFromDir number
  let vol := vol.modify directory fun dir => { dir with children := number :: dir.children }
  let vol := vol.modify number fun obj => { obj with parent := some directory }
  if directory = objectIdUnlinked ∨ directory = objectIdDeleted then
    { vol.modify number fun obj => { obj with unlinked := true, renameAllowed := false } with
      nUnlinkedFiles := vol.nUnlinkedFiles + 1 }
  else vol

/-- Write the header of an object after collecting garbage.  The fake directories have none, except
for the root. -/
def updateOhWith (gc : Volume Store → Volume Store) (number : Nat) (name : Option (List Char))
    (isShrink : Bool) (shadows : Nat) : Bool × Volume Store :=
  if (vol.objs number).any Node.fake ∧ number ≠ objectIdRoot then (true, vol)
  else
    let vol := gc vol
    match vol.objs number with
    | none => (false, vol)
    | some obj =>
      let written := P.writeHeader vol.store number obj name isShrink shadows
      let vol := { vol with store := written.2 }
      if written.1 then
        (true, vol.modify number fun obj =>
          { obj with dirty := obj.dirty && P.objCacheDirty vol.store number })
      else (false, vol)

/-- Give an object a name in a directory.  A name that exists there is in the way, unless the object
is unlinked or deleted, the move is forced or the new header shadows an object. -/
def changeObjNameWith (gc : Volume Store → Volume Store) (number : Nat) (newDir : Option Nat)
    (newName : List Char) (force : Bool) (shadows : Nat) : Bool × Volume Store :=
  match newDir.or (vol.parentOf number) with
  | none => (false, vol)
  | some newDir =>
    let unlinkOp := decide (newDir = objectIdUnlinked)
    let delOp := decide (newDir = objectIdDeleted)
    let existingTarget := vol.findByName P newDir newName
    if ¬(unlinkOp ∨ delOp ∨ force ∨ 0 < shadows ∨ existingTarget = none) ∨
        ¬vol.isType newDir .directory then (false, vol)
    else
      let vol := vol.modify number fun obj =>
        { obj.setObjName number newName with dirty := true }
      let vol := vol.addObjToDir newDir number
      let vol :=
        if unlinkOp then vol.modify number fun obj => { obj with unlinked := true } else vol
      vol.updateOhWith P gc number (some newName) delOp shadows

/-! ## Freeing objects -/

/-- Free an object, or leave that to the inode that still holds it. -/
def freeObj (number : Nat) : Volume Store :=
  if (vol.objs number).any fun obj => obj.myInode.isSome then
    vol.modify number fun obj => { obj with deferedFree := true }
  else
    { vol with
      objs := Function.update vol.objs number none
      objBucket := Function.update vol.objBucket (hashFn number)
        ((vol.objBucket (hashFn number)).erase number)
      nObj := vol.nObj - 1 }

/-- Delete an object.  The newer format leaves a header among the deleted objects first, as a record
of the deletion. -/
def genericObjDelWith (gc : Volume Store → Volume Store) (number : Nat) : Volume Store :=
  let vol := { vol with store := P.invalidateWholeCache vol.store number }
  let vol :=
    if vol.param.isYaffs2 ∧ vol.parentOf number ≠ some objectIdDeleted then
      (vol.changeObjNameWith P gc number (some objectIdDeleted) "deleted".toList false 0).2
    else vol
  let vol := vol.removeObjFromDir number
  let vol := { vol with store := P.dropHeader vol.store number }
  vol.freeObj number

/-- Delete a soft deleted file whose last page the collector has dropped.  No garbage is collected
for the record of the deletion. -/
def gcCleanUp (vol : Volume Store) (number : Nat) : Volume Store :=
  match vol.objs number with
  | none => vol
  | some obj =>
    if obj.deleted ∧ obj.softDel ∧ ¬obj.deferedFree then
      let vol := { vol with store := P.freeTnodes vol.store number }
      let vol := vol.genericObjDelWith P id number
      { vol with nDeletedFiles := vol.nDeletedFiles - 1 }
    else vol

/-- Go on after something that may have collected garbage. -/
def sweep (collected : List Nat × Store) : Volume Store :=
  let vol := { vol with store := collected.2 }
  if vol.gcDisable then vol else collected.1.foldl (gcCleanUp P) vol

/-- Collect garbage. -/
def checkGc : Volume Store := if vol.gcDisable then vol else vol.sweep P (P.checkGc vol.store)

/-- Write the header of an object. -/
def updateOh (number : Nat) (name : Option (List Char)) (isShrink : Bool) (shadows : Nat) :
    Bool × Volume Store :=
  vol.updateOhWith P (checkGc P) number name isShrink shadows

/-- Give an object a name in a directory. -/
def changeObjName (number : Nat) (newDir : Option Nat) (newName : List Char) (force : Bool)
    (shadows : Nat) : Bool × Volume Store :=
  vol.changeObjNameWith P (checkGc P) number newDir newName force shadows

/-- Delete an object. -/
def genericObjDel (number : Nat) : Bool × Volume Store :=
  (true, vol.genericObjDelWith P (checkGc P) number)

/-- Note a change of a directory in its header, now or later. -/
def updateParent (directory : Option Nat) : Volume Store :=
  match directory with
  | none => vol
  | some directory =>
    let vol := vol.modify directory fun dir => { dir with dirty := true }
    if vol.param.deferedDirUpdate then vol else (vol.updateOh P directory none false 0).2

/-! ## Deleting -/

/-- Change the size of a file.  Files in the unlinked and deleted directories get no new header. -/
def resizeFile (number newSize : Nat) : Bool × Volume Store :=
  let oldSize := P.fileSize vol.store number
  let vol := vol.sweep P (P.flushFileCache vol.store number true)
  let vol := { vol with store := P.invalidateWholeCache vol.store number }
  let vol := vol.checkGc P
  if ¬vol.isType number .file then (false, vol)
  else if newSize = oldSize then (true, vol)
  else
    let vol := vol.sweep P (P.resizeData vol.store number newSize)
    match vol.parentOf number with
    | none => (true, vol)
    | some parent =>
      if (vol.objs number).any Node.isShadowed ∨ parent = objectIdUnlinked ∨
          parent = objectIdDeleted then (true, vol)
      else (true, (vol.updateOh P number none false 0).2)

/-- Write a file that has changed, with its header. -/
def flushFile (number : Nat) (discardCache : Bool) : Bool × Volume Store :=
  if ¬(vol.objs number).any Node.dirty then (true, vol)
  else
    (vol.sweep P (P.flushFileCache vol.store number discardCache)).updateOh P number none false 0

/-- Soft delete a deleted file, or delete it at once if it has no data. -/
def softDelFile (number : Nat) : Volume Store :=
  match vol.objs number with
  | none => vol
  | some obj =>
    if ¬obj.deleted ∨ obj.variantType ≠ .file ∨ obj.softDel then vol
    else if P.nDataChunks vol.store number ≤ 0 then
      (({ vol with store := P.freeTnodes vol.store number } : Volume Store).genericObjDel P number).2
    else
      ({ vol with store := P.softDelWorker vol.store number } : Volume Store).modify number
        fun obj => { obj with softDel := true }

/-- Count an object as deleted. -/
def markDeleted (number : Nat) : Volume Store :=
  { vol.modify number fun obj => { obj with deleted := true } with
    nDeletedFiles := vol.nDeletedFiles + 1 }

/-- Is the data of a file deleted by cutting it off? -/
def resizesToDelete : Bool := vol.param.disableSoftDel || vol.param.isYaffs2

/-- Unlink a file that still has data: at once, or later if an inode holds it. -/
def unlinkFileIfNeeded (number : Nat) : Bool × Volume Store :=
  if ¬(vol.objs number).any fun obj => obj.myInode.isSome then
    let moved := vol.changeObjName P number (some objectIdDeleted) "deleted".toList false 0
    let vol := moved.2.markDeleted number
    let vol := if vol.resizesToDelete then (vol.resizeFile P number 0).2 else vol
    (moved.1, vol.softDelFile P number)
  else vol.changeObjName P number (some objectIdUnlinked) "unlinked".toList false 0

/-- Delete a file. -/
def delFile (number : Nat) : Bool × Volume Store :=
  let vol := if vol.resizesToDelete then (vol.resizeFile P number 0).2 else vol
  if 0 < P.nDataChunks vol.store number then
    let needed : Bool × Volume Store :=
      if ¬(vol.objs number).any Node.unlinked then vol.unlinkFileIfNeeded P number else (true, vol)
    let vol := needed.2
    -- A file that has been freed by now was marked as deleted before.
    match vol.objs number with
    | none => (true, vol)
    | some obj =>
      if needed.1 ∧ obj.unlinked ∧ ¬obj.deleted then
        (true, (vol.markDeleted number).softDelFile P number)
      else (true, vol)
  else
    ({ vol with store := P.freeTnodes vol.store number } : Volume Store).genericObjDel P number

/-- Delete a directory, if it is empty. -/
def delDir (number : Nat) : Bool × Volume Store :=
  if vol.isNonEmptyDir number then (false, vol) else vol.genericObjDel P number

/-- Delete a symbolic link. -/
def delSymlink (number : Nat) : Bool × Volume Store :=
  (vol.modify number fun obj => { obj with aliasStr := [] }).genericObjDel P number

/-- Take a hard link from the links of its object. -/
def removeHardLink (number : Nat) : Volume Store :=
  match (vol.objs number).bind Node.equivObj with
  | none => vol
  | some equiv => vol.modify equiv fun obj => { obj with hardLinks := obj.hardLinks.erase number }

/-- Delete a hard link. -/
def delLink (number : Nat) : Bool × Volume Store :=
  (vol.removeHardLink number).genericObjDel P number

/-- Delete an object according to its type. -/
def delObj (number : Nat) : Bool × Volume Store :=
  match (vol.objs number).map Node.variantType with
  | some .file => vol.delFile P number
  | some .directory => vol.delDir P number
  | some .symlink => vol.delSymlink P number
  | some .hardlink => vol.delLink P number
  | some .special => vol.genericObjDel P number
  | _ => (false, vol)

/-! ## Creating -/

/-- Look at the next bucket, and remember it if it is the shortest so far. -/
def tryBucket (best : Nat × Nat × Nat) : Nat × Nat × Nat :=
  let finder := (best.2.2 + 1) % nObjectBuckets
  if (vol.objBucket finder).length < best.2.1 then (finder, (vol.objBucket finder).length, finder)
  else (best.1, best.2.1, finder)

/-- A bucket for a new object: the shortest of ten, or the first with at most four objects.  The
search goes on from the place where it ended before. -/
def findNiceBucket : Nat → Nat × Nat × Nat → Nat × Nat × Nat
  | 0, best => best
  | left + 1, best =>
    if 4 < best.2.1 then findNiceBucket left (vol.tryBucket best) else best

/-- The first number of a bucket that is not taken. -/
def freeNumber (taken : List Nat) : Nat → Nat → Nat
  | 0, number => number
  | left + 1, number =>
    if number ∈ taken then freeNumber taken left (number + nObjectBuckets) else number

/-- A number for a new object. -/
def newObjId : Nat × Volume Store :=
  let best := vol.findNiceBucket 10 (999, 999999, vol.bucketFinder)
  let taken := vol.objBucket best.1
  (freeNumber taken taken.length (best.1 + nObjectBuckets), { vol with bucketFinder := best.2.2 })

/-- A clean object.  It is put into the root directory and then to the lost and found objects, as far
as these exist. -/
def allocEmptyObj (number : Nat) : Bool × Volume Store :=
  let memory := P.kmalloc vol.store
  let vol := { vol with store := memory.2 }
  if ¬memory.1 then (false, vol)
  else
    let vol :=
      { vol with
        nObj := vol.nObj + 1
        objs := Function.update vol.objs number
          (some { parent := (vol.objs objectIdRoot).map fun _ => objectIdRoot }) }
    let vol := vol.modify objectIdRoot fun root =>
      if number = objectIdRoot then root else { root with children := number :: root.children }
    if (vol.objs objectIdLostNFound).isSome ∧ number ≠ objectIdLostNFound then
      (true, vol.addObjToDir objectIdLostNFound number)
    else (true, vol)

/-- A new object of a type, with a given number or one that is free. -/
def newObj (number : Option Nat) (type : ObjType) : Option Nat × Volume Store :=
  let named : Nat × Volume Store := match number with
    | some number => (number, vol)
    | none => vol.newObjId
  let number := named.1
  let vol := named.2
  let tnode : Bool × Store :=
    if type = .file then P.getTnode vol.store number else (true, vol.store)
  let vol := { vol with store := tnode.2 }
  if ¬tnode.1 then (none, vol)
  else
    let made := vol.allocEmptyObj P number
    let vol := made.2
    if ¬made.1 then
      (none,
        if type = .file then { vol with store := P.freeTnodes vol.store number } else vol)
    else
      let vol := vol.modify number fun obj =>
        { obj with fake := false, renameAllowed := true, unlinkAllowed := true, variantType := type }
      (some number,
        { vol with
          objBucket := Function.update vol.objBucket (hashFn number)
            (number :: vol.objBucket (hashFn number)) })

/-- Create an object in a directory.  A hard link comes with its object, a symbolic link with its
target. -/
def createObj (type : ObjType) (parent : Nat) (name : List Char) (mode : Nat)
    (equivObj : Option Nat) (aliasStr : List Char) : Option Nat × Volume Store :=
  if (vol.findByName P parent name).isSome then (none, vol)
  else
    let cloned : Bool × Store :=
      if type = .symlink then P.kmalloc vol.store else (true, vol.store)
    let vol := { vol with store := cloned.2 }
    if ¬cloned.1 then (none, vol)
    else
      let made := vol.newObj P none type
      let vol := made.2
      match made.1 with
      | none => (none, vol)
      | some number =>
        let vol := vol.modify number fun obj =>
          { obj.setObjName number name with ystMode := mode, dirty := true }
        let vol := vol.addObjToDir parent number
        let vol := match type, equivObj with
          | .symlink, _ =>
            vol.modify number fun obj => { obj with aliasStr := cloneStr aliasStr }
          | .hardlink, some equiv =>
            (vol.modify number fun obj => { obj with equivObj := some equiv }).modify equiv fun obj =>
              { obj with hardLinks := number :: obj.hardLinks }
          | _, _ => vol
        let written := vol.updateOh P number (some name) false 0
        if written.1 then (some number, written.2.updateParent P (some parent))
        else (none, (written.2.delObj P number).2)

/-- Create a file. -/
def createFile (parent : Nat) (name : List Char) (mode : Nat) : Option Nat × Volume Store :=
  vol.createObj P .file parent name mode none []

/-- Create a directory. -/
def createDir (parent : Nat) (name : List Char) (mode : Nat) : Option Nat × Volume Store :=
  vol.createObj P .directory parent name mode none []

/-- Create a symbolic link. -/
def createSymlink (parent : Nat) (name : List Char) (mode : Nat) (aliasStr : List Char) :
    Option Nat × Volume Store :=
  vol.createObj P .symlink parent name mode none aliasStr

/-- Create a hard link to an object, or to the object it stands for. -/
def linkObj (parent : Nat) (name : List Char) (equivObj : Nat) : Option Nat × Volume Store :=
  match vol.getEquivalentObj (some equivObj) with
  | none => (none, vol)
  | some equiv =>
    let made := vol.createObj P .hardlink parent name 0 (some equiv) []
    (made.1.map fun _ => equiv, made.2)

/-! ## Unlinking and renaming -/

/-- Take the newest hard link of an object away and give the object the name and place of that
link. -/
def unlinkByHardLink (number link : Nat) (linkObj : Node) : Bool × Volume Store :=
  let name := vol.getObjName P link linkObj
  let parent := linkObj.parent
  let vol := vol.modify number fun obj => { obj with hardLinks := obj.hardLinks.erase link }
  let vol := vol.addObjToDir objectIdUnlinked link
  let moved := vol.changeObjName P number parent name false 0
  if moved.1 then moved.2.genericObjDel P link else moved

/-- Unlink an object. -/
def unlinkWorker (number : Nat) : Bool × Volume Store :=
  let vol := vol.updateParent P (vol.parentOf number)
  match vol.objs number with
  | none => (false, vol)
  | some obj =>
    if obj.variantType = .hardlink then vol.delLink P number
    else
      match obj.hardLinks with
      | link :: _ =>
        match vol.objs link with
        | none => (false, vol)
        | some linkObj => vol.unlinkByHardLink P number link linkObj
      | [] =>
        if obj.myInode = none then
          match obj.variantType with
          | .file => vol.delFile P number
          | .directory => vol.delDir P number
          | .symlink => vol.delSymlink P number
          | .special => vol.genericObjDel P number
          | _ => (false, vol)
        else if vol.isNonEmptyDir number then (false, vol)
        else vol.changeObjName P number (some objectIdUnlinked) "unlinked".toList false 0

/-- Unlink an object, if that is allowed. -/
def unlinkObj (number : Option Nat) : Bool × Volume Store :=
  match number with
  | none => (false, vol)
  | some number =>
    if (vol.objs number).any Node.unlinkAllowed then vol.unlinkWorker P number else (false, vol)

/-- Unlink the object with a name. -/
def unlinker (directory : Nat) (name : List Char) : Bool × Volume Store :=
  vol.unlinkObj P (vol.findByName P directory name)

/-- Move an object over an existing target: the object shadows the target, which is unlinked.  No
garbage is collected meanwhile. -/
def replaceTarget (number newDir : Nat) (newName : List Char) (target : Nat) : Volume Store :=
  let vol := { vol with gcDisable := true }
  let vol := (vol.changeObjName P number (some newDir) newName false target).2
  let vol := vol.modify target fun obj => { obj with isShadowed := true }
  let vol := (vol.unlinkObj P (some target)).2
  { vol with gcDisable := false }

/-- Rename an object.  Without an old name the old directory itself is renamed. -/
def renameObj (oldDir : Nat) (oldName : Option (List Char)) (newDir : Nat) (newName : List Char) :
    Bool × Volume Store :=
  if ¬vol.isType oldDir .directory ∨ ¬vol.isType newDir .directory ∨
      maxNameLength < newName.length then (false, vol)
  else
    let found : Option Nat × Option Nat := match oldName with
      | some oldName => (vol.findByName P oldDir oldName, some oldDir)
      | none => (some oldDir, vol.parentOf oldDir)
    match found.1 with
    | none => (false, vol)
    | some number =>
      if ¬(vol.objs number).any Node.renameAllowed then (false, vol)
      else
        let existingTarget := vol.findByName P newDir newName
        if existingTarget.any fun target => vol.isNonEmptyDir target then (false, vol)
        else
          let vol := match existingTarget with
            | some target =>
              if target ≠ number then vol.replaceTarget P number newDir newName target else vol
            | none => vol
          let moved := vol.changeObjName P number (some newDir) newName true 0
          let vol := moved.2.updateParent P found.2
          let vol := if some newDir ≠ found.2 then vol.updateParent P (some newDir) else vol
          (moved.1, vol)

/-! ## The first directories -/

/-- One of the directories that need not be on the flash. -/
def createFakeDir (number mode : Nat) : Bool × Volume Store :=
  let made := vol.newObj P (some number) .directory
  (made.1.isSome, made.2.modify number fun obj =>
    { obj with fake := true, renameAllowed := false, unlinkAllowed := false, ystMode := mode })

/-- Mode bits of a directory. -/
def sIfDir : Nat := 0o040000

/-- Make the directories of unlinked and deleted objects, the root and the lost and found directory.
A device may hide the latter, which is not modelled. -/
def createInitialDir : Bool × Volume Store :=
  let unlinked := vol.createFakeDir P objectIdUnlinked sIfDir
  let deleted := unlinked.2.createFakeDir P objectIdDeleted sIfDir
  let root := deleted.2.createFakeDir P objectIdRoot (0o666 ||| sIfDir)
  let lostNFound := root.2.createFakeDir P objectIdLostNFound (0o666 ||| sIfDir)
  if lostNFound.1 ∧ root.1 ∧ unlinked.1 ∧ deleted.1 then
    (true, lostNFound.2.addObjToDir objectIdRoot objectIdLostNFound)
  else (false, lostNFound.2)

end Volume

end Yaffs
