import Yaffs.DescriptorOpen
import Yaffs.CheckpointStream

/-!
# Descriptors of the VxWorks driver

The driver keeps a position and flags of its own for each of its descriptors, beside those of the
handle it opens below.  It reads and writes the object of a descriptor directly.  Its look-up of a
path and its creation of a file may come to anything; what is opened here are files.
-/

namespace Yaffs

/-- A descriptor of the driver. -/
structure VxFd where
  inUse : Bool := false
  readOnly : Bool := false
  append : Bool := false
  exclusive : Bool := false
  position : Nat := 0
  /-- The handle below. -/
  yfd : Int := 0
  obj : Option Nat := none
deriving DecidableEq, Repr

/-- A volume: a device of the file system and the descriptors of the driver. -/
structure VxVol where
  fs : Yaffsfs := {}
  dev : Nat := 0
  maxFiles : Nat := 20
  pFdList : Nat → VxFd := fun _ => {}

/-- What the driver's look-up of a path comes to. -/
structure VxTarget where
  /-- The object that is there. -/
  obj : Option Nat := none
  /-- The object that creating the file makes. -/
  made : Option Nat := none
deriving DecidableEq, Repr

/-- Is a flag of a call set? -/
def flagSet (flags flag : Nat) : Bool := decide (flags &&& flag ≠ 0)

/-- Do the flags of a call ask for write access? -/
def asksToWrite (flags : Nat) : Bool := flagSet flags (oWrOnly ||| oRdWr)

namespace VxVol

open Dev (intOfU32 u32OfInt)

variable (vol : VxVol)

def setFd (pFd : Nat) (fd : VxFd) : VxVol :=
  { vol with pFdList := Function.update vol.pFdList pFd fd }

/-! ## Opening -/

/-- Take a free descriptor and clear it. -/
def yaffsFdGet : Option Nat × VxVol :=
  match (List.range vol.maxFiles).find? fun i => !(vol.pFdList i).inUse with
  | none => (none, vol)
  | some pFd => (some pFd, vol.setFd pFd { inUse := true })

/-- Give a descriptor back. -/
def yaffsFdFree (pFd : Nat) : VxVol :=
  vol.setFd pFd { vol.pFdList pFd with inUse := false, obj := none, yfd := 0 }

/-- Mount the device if it is not. -/
def yaffsVolMount : VxVol :=
  if vol.fs.isMounted vol.dev then vol
  else { vol with fs := (vol.fs.yaffsMount vol.dev false).2 }

/-- Other descriptors that a file is open through. -/
def otherFds (pFd obj : Nat) : List VxFd :=
  (((List.range vol.maxFiles).filter fun i => decide (i ≠ pFd)).map vol.pFdList).filter fun fd =>
    fd.inUse && decide (fd.obj = some obj)

/-- Is a file that is there not to be opened? -/
def openDenied (pFd obj flags : Nat) : Bool :=
  let others := vol.otherFds pFd obj
  (flagSet flags oExcl && !others.isEmpty) || others.any VxFd.exclusive ||
    (flagSet flags oExcl && flagSet flags oCreat)

/-- The file to be opened: the one that is there, or one that is made. -/
def findFile (pFd : Nat) (target : VxTarget) (flags mode : Nat) : Option (Nat × Yaffsfs) :=
  match target.obj, target.made with
  | some obj, _ =>
    if (vol.fs.objs obj).any (fun node => !node.isDir) ∧ ¬vol.openDenied pFd obj flags then
      some (obj, vol.fs)
    else none
  | none, some obj =>
    if flagSet flags oCreat ∧ vol.fs.objs obj = none then
      some (obj,
        { vol.fs with
          objs := Function.update vol.fs.objs obj
            (some { myDev := vol.dev, ystMode := mode ||| 0o666 }) })
    else none
  | none, none => none

/-- Open the file below and fill in the descriptor.  The comparisons that stand in place of the
assignments of `append` leave it as it has been cleared. -/
def fillFd (pFd obj flags mode : Nat) : Option Nat × VxVol :=
  let opened := vol.fs.yaffsOpen { obj := some obj } mode
    (OpenFlags.of flags (shareReadFlag ||| shareWriteFlag))
  let fd := vol.pFdList pFd
  let readOnly := !asksToWrite flags
  let fs :=
    if flagSet flags oTrunc ∧ ¬readOnly then opened.2.modify obj fun node => node.resizeFile 0
    else opened.2
  let vol := { vol with fs }.setFd pFd
    { fd with
      inUse := true
      readOnly
      exclusive := flagSet flags oExcl
      position := 0
      yfd := if 0 ≤ opened.1 then opened.1 else fd.yfd
      obj := some obj }
  if 0 ≤ opened.1 then (some pFd, vol) else (none, vol.yaffsFdFree pFd)

/-- Open a file. -/
def yaffsOpen (target : VxTarget) (flags mode : Nat) : Option Nat × VxVol :=
  let got := vol.yaffsVolMount.yaffsFdGet
  let vol := got.2
  match got.1 with
  | none => (none, vol)
  | some pFd =>
    match vol.findFile pFd target flags mode with
    | none => (none, vol.yaffsFdFree pFd)
    | some (obj, fs) => { vol with fs }.fillFd pFd obj flags mode

/-! ## Positions -/

/-- Move the position of a descriptor and of the handle below.  The new position is unsigned. -/
def yaffsSeek (pFd newPos : Nat) : Int × VxVol :=
  let fd := vol.pFdList pFd
  let vol := vol.setFd pFd { fd with position := newPos }
  (0,
    if 0 ≤ fd.yfd then { vol with fs := (vol.fs.yaffsLseek fd.yfd newPos .set).2 } else vol)

/-- Seek to the argument. -/
def fioSeek (pFd : Nat) (arg : Int) : Int × VxVol := vol.yaffsSeek pFd (u32OfInt arg)

/-- Seek with the address of a position.  The value at the address is read, but it is the address
that is passed on. -/
def fioSeek64 (pFd : Nat) (arg : Int) (_buf64 : Nat) : Int × VxVol :=
  vol.yaffsSeek pFd (u32OfInt arg)

/-- Report the position. -/
def fioWhere (pFd : Nat) : Int := intOfU32 (vol.pFdList pFd).position

/-! ## Data -/

/-- Read up to so many bytes. -/
def yaffsRead (pFd : Nat) (maxBytes : Int) : (Int × List UInt8) × VxVol :=
  let fd := vol.pFdList pFd
  match fd.obj.bind vol.fs.objs with
  | none => ((-1, []), vol)
  | some node =>
    let pos := intOfU32 fd.position
    let maxRead := if pos < node.fileSize then u32OfInt (node.fileSize - pos) else 0
    let maxBytes := intOfU32 (min (u32OfInt maxBytes) maxRead)
    if 0 < maxBytes then
      ((maxBytes, node.fileRd pos.toNat maxBytes.toNat),
        vol.setFd pFd { fd with position := u32OfInt (pos + maxBytes) })
    else ((0, []), vol)

/-- Write to a device that has room for so many bytes. -/
def yaffsWrite (pFd : Nat) (data : List UInt8) (room : Nat) : Int × VxVol :=
  let fd := vol.pFdList pFd
  match fd.obj with
  | none => (-1, vol)
  | some obj =>
    let length := ((vol.fs.objs obj).map FsObj.fileSize).getD 0
    let pos := if fd.append then intOfU32 length else intOfU32 fd.position
    let nWritten := min data.length room
    let fs := vol.fs.modify obj fun node => node.wrFile pos.toNat (data.take nWritten)
    (nWritten, { vol with fs }.setFd pFd { fd with position := u32OfInt (pos + nWritten) })

end VxVol

/-! ## The file-position model -/

/-- A descriptor of the file-position model: it has a file, a position in it, and what it was opened
for. -/
structure Cursor where
  file : Nat
  position : Nat := 0
  append : Bool := false
  writable : Bool := false
deriving DecidableEq, Repr

namespace Yaffsfs

/-- Size of a file in memory. -/
def sizeOf (fs : Yaffsfs) (file : Nat) : Nat := ((fs.objs file).map FsObj.fileSize).getD 0

/-- The files of one state are in the other as well. -/
def KeepsObjs (fs fs' : Yaffsfs) : Prop := ∀ obj, (fs.objs obj).isSome → (fs'.objs obj).isSome

/-- The files of one state are in the other with the same data. -/
def KeepsFiles (fs fs' : Yaffsfs) : Prop :=
  ∀ obj node, fs.objs obj = some node → ∃ node', fs'.objs obj = some node' ∧
    node'.fileSize = node.fileSize ∧ node'.byte = node.byte

end Yaffsfs

/-- Where a write takes place: at the end of the file if the descriptor appends, else at its
position. -/
def Cursor.writeAt (cursor : Cursor) (fs : Yaffsfs) : Nat :=
  if cursor.append then fs.sizeOf cursor.file else cursor.position

/-- A call of the driver. -/
inductive VxCall
  | yaffsOpen (target : VxTarget) (flags mode : Nat)
  | fioSeek (pFd : Nat) (arg : Int)
  | fioSeek64 (pFd : Nat) (arg : Int) (buf64 : Nat)
  | fioWhere (pFd : Nat)
  | yaffsRead (pFd : Nat) (maxBytes : Int)
  | yaffsWrite (pFd : Nat) (data : List UInt8) (room : Nat)
deriving Repr

/-- What the caller gets: a descriptor or a number, and the bytes read. -/
structure VxAnswer where
  result : Int
  bytes : List UInt8 := []
deriving DecidableEq, Repr

/-- The driver and the model of its descriptors. -/
structure VxRun where
  vol : VxVol
  cursor : Nat → Option Cursor := fun _ => none

namespace VxCall

open Dev (u32OfInt)

variable (call : VxCall)

/-- Answer of a call and the volume after it. -/
def issue (vol : VxVol) : VxAnswer × VxVol :=
  match call with
  | yaffsOpen target flags mode =>
    let opened := vol.yaffsOpen target flags mode
    ({ result := (opened.1.map Int.ofNat).getD (-1) }, opened.2)
  | fioSeek pFd arg => ({ result := (vol.fioSeek pFd arg).1 }, (vol.fioSeek pFd arg).2)
  | fioSeek64 pFd arg buf64 =>
    ({ result := (vol.fioSeek64 pFd arg buf64).1 }, (vol.fioSeek64 pFd arg buf64).2)
  | fioWhere pFd => ({ result := vol.fioWhere pFd }, vol)
  | yaffsRead pFd maxBytes =>
    let done := vol.yaffsRead pFd maxBytes
    ({ result := done.1.1, bytes := done.1.2 }, done.2)
  | yaffsWrite pFd data room =>
    ({ result := (vol.yaffsWrite pFd data room).1 }, (vol.yaffsWrite pFd data room).2)

/-- The descriptors of the model after a call with an answer. -/
def follow (answer : VxAnswer) (fs : Yaffsfs) (cursor : Nat → Option Cursor) :
    Nat → Option Cursor :=
  match call with
  | yaffsOpen target flags _ =>
    if 0 ≤ answer.result then
      Function.update cursor answer.result.toNat ((target.obj.or target.made).map fun file =>
        { file, append := flagSet flags oAppend, writable := asksToWrite flags })
    else cursor
  | fioSeek pFd arg =>
    Function.update cursor pFd ((cursor pFd).map fun c => { c with position := arg.toNat })
  | fioSeek64 pFd _ buf64 =>
    Function.update cursor pFd ((cursor pFd).map fun c => { c with position := buf64 })
  | fioWhere _ => cursor
  | yaffsRead pFd _ =>
    Function.update cursor pFd ((cursor pFd).map fun c =>
      { c with position := c.position + answer.bytes.length })
  | yaffsWrite pFd _ _ =>
    Function.update cursor pFd ((cursor pFd).map fun c =>
      { c with position := c.writeAt fs + answer.result.toNat })

/-- Does the call keep positions below 2^31? -/
def InRange (state : VxRun) : Prop :=
  match call with
  | fioSeek _ arg => 0 ≤ arg ∧ arg < 2 ^ 31
  | fioSeek64 _ _ buf64 => buf64 < 2 ^ 31
  | yaffsRead pFd maxBytes => ∀ c, state.cursor pFd = some c →
    c.position + min (u32OfInt maxBytes) (state.vol.fs.sizeOf c.file - c.position) < 2 ^ 31
  | yaffsWrite pFd data _ => ∀ c, state.cursor pFd = some c →
    c.writeAt state.vol.fs + data.length < 2 ^ 31
  | _ => True

/-- Does the call do what the file-position model says?  A read delivers the bytes at the position,
as many as there are.  A write puts its bytes at the position or the end of the file, unless the
descriptor has been opened without write access. -/
def FollowsModel (state : VxRun) : Prop :=
  let fs := state.vol.fs
  let answer := (call.issue state.vol).1
  let fs' := (call.issue state.vol).2.fs
  match call with
  | yaffsOpen _ flags _ => asksToWrite flags = false → fs.KeepsFiles fs'
  | fioSeek _ _ => fs.KeepsFiles fs'
  | fioSeek64 _ _ _ => fs.KeepsFiles fs'
  | fioWhere pFd => ∀ c, state.cursor pFd = some c → answer.result = c.position
  | yaffsRead pFd maxBytes => ∀ c, state.cursor pFd = some c →
    fs.KeepsFiles fs' ∧ answer.result = answer.bytes.length ∧
      ∃ node, fs.objs c.file = some node ∧
        answer.bytes = node.fileRd c.position answer.bytes.length ∧
        (node.fileSize < 2 ^ 32 →
          answer.bytes.length = min (u32OfInt maxBytes) (node.fileSize - c.position))
  | yaffsWrite pFd data room => ∀ c, state.cursor pFd = some c →
    if c.writable then
      answer.result = (min data.length room : Nat) ∧
        fs'.objs = (fs.modify c.file fun node =>
          node.wrFile (c.writeAt fs) (data.take (min data.length room))).objs
    else fs.KeepsFiles fs'

/-- Is the call free of what the driver does otherwise?  The address of a position is the position,
an appending descriptor already stands at the end of its file, and nothing is written through a
descriptor without write access. -/
def Plain (state : VxRun) : Prop :=
  match call with
  | fioSeek64 _ arg buf64 => u32OfInt arg = buf64
  | yaffsWrite pFd data room => ∀ c, state.cursor pFd = some c →
    (c.append → c.position = state.vol.fs.sizeOf c.file) ∧
      (c.writable = false → min data.length room = 0 ∧ c.position ≤ state.vol.fs.sizeOf c.file)
  | _ => True

end VxCall

namespace VxRun

/-- State after a call. -/
def exec (call : VxCall) (state : VxRun) : VxRun :=
  let issued := call.issue state.vol
  { vol := issued.2
    cursor := call.follow issued.1 state.vol.fs state.cursor }

end VxRun

/-! ## What calls keep -/

section Words

open Dev (intOfU32 u32OfInt)

theorem intOfU32_of_lt {n : Nat} (n_lt : n < 2 ^ 31) : intOfU32 n = n := by
  have n_mod : n % 2 ^ 32 = n := Nat.mod_eq_of_lt (by omega)
  simp only [intOfU32, n_mod, if_pos n_lt]

theorem u32OfInt_natCast {n : Nat} (n_lt : n < 2 ^ 32) : u32OfInt n = n := by
  simp only [u32OfInt]
  omega

end Words

namespace Yaffsfs

open Vfs (handleToPointer)

variable {fs fs' fs'' : Yaffsfs}

theorem KeepsFiles.refl (fs : Yaffsfs) : fs.KeepsFiles fs :=
  fun _ node found => ⟨node, found, rfl, rfl⟩

theorem KeepsFiles.trans (first : fs.KeepsFiles fs') (second : fs'.KeepsFiles fs'') :
    fs.KeepsFiles fs'' := by
  intro obj node found
  obtain ⟨node', found', size_eq, byte_eq⟩ := first obj node found
  obtain ⟨node'', found'', size_eq', byte_eq'⟩ := second obj node' found'
  exact ⟨node'', found'', size_eq'.trans size_eq, byte_eq'.trans byte_eq⟩

theorem KeepsFiles.keepsObjs (kept : fs.KeepsFiles fs') : fs.KeepsObjs fs' := by
  intro obj there
  obtain ⟨node, found⟩ := Option.isSome_iff_exists.mp there
  obtain ⟨node', found', -⟩ := kept obj node found
  exact Option.isSome_iff_exists.mpr ⟨node', found'⟩

theorem KeepsObjs.trans (first : fs.KeepsObjs fs') (second : fs'.KeepsObjs fs'') :
    fs.KeepsObjs fs'' :=
  fun obj there => second obj (first obj there)

theorem keepsFiles_of_objs (same : fs'.objs = fs.objs) : fs.KeepsFiles fs' :=
  fun obj node found => ⟨node, by rw [same]; exact found, rfl, rfl⟩

theorem modify_keepsObjs (fs : Yaffsfs) (obj : Nat) (change : FsObj → FsObj) :
    fs.KeepsObjs (fs.modify obj change) := by
  intro other there
  simp only [modify, Function.update_apply]
  split
  case isTrue same =>
    subst same
    rwa [Option.isSome_map]
  case isFalse => exact there

/-- A change that leaves the data of the object as they are. -/
theorem modify_keepsFiles {obj : Nat} {change : FsObj → FsObj}
    (same : ∀ node, fs.objs obj = some node →
      (change node).fileSize = node.fileSize ∧ (change node).byte = node.byte) :
    fs.KeepsFiles (fs.modify obj change) := by
  intro other node found
  simp only [modify, Function.update_apply]
  split
  case isTrue is_obj =>
    subst is_obj
    exact ⟨change node, by rw [found]; rfl, same node found⟩
  case isFalse => exact ⟨node, found, rfl, rfl⟩

theorem putHandle_takenFor_objs (fs : Yaffsfs) (h f : Nat) :
    ((fs.takenFor h f).putHandle h).objs = fs.objs := by
  simp only [putHandle]
  cases pointed : handleToPointer (h : Int) with
  | none => rfl
  | some index =>
    have index_eq : index = h := by
      simp only [handleToPointer] at pointed
      split at pointed
      · exact (Option.some.inj pointed).symm
      · cases pointed
    subst index_eq
    simp only [takenFor_handle]
    -- The descriptor has no inode yet, so none is released.
    have fd_eq : ((fs.takenFor index f).setHandle index
        { fdId := (f : Int), useCount := 1 - 1 }).fd f = { inodeId := -1, handleCount := 1 } :=
      takenFor_fd index f
    have put_eq : (((fs.takenFor index f).setHandle index
        { fdId := (f : Int), useCount := 1 - 1 }).putFileDes (f : Int)).objs = fs.objs := by
      simp only [putFileDes]
      split
      case isTrue =>
        simp only [Int.toNat_natCast, fd_eq, setFd_fd_self]
        rfl
      case isFalse => rfl
    split
    · split
      · exact put_eq
      · rfl
    · rfl

theorem getInodeIdForObject_objs (fs : Yaffsfs) (obj : Nat) :
    (fs.getInodeIdForObject obj).2.objs = fs.objs := by
  simp only [getInodeIdForObject]
  split <;> rfl

/-- Hooking a descriptor to an object notes the inode, and cuts a file off if this is asked for. -/
theorem openObject_objs (fs : Yaffsfs) (h obj : Nat) (isDir : Bool) (flags : OpenFlags) :
    ∃ index, (fs.openObject h obj isDir flags).2.objs =
      (if ¬isDir ∧ flags.trunc ∧ flags.write then
        (fs.modify obj fun node => { node with myInode := index }).modify obj fun node =>
          node.resizeFile 0
      else fs.modify obj fun node => { node with myInode := index }).objs := by
  refine ⟨some (fs.getInodeIdForObject obj).1.toNat, ?_⟩
  have objs_eq := getInodeIdForObject_objs fs obj
  simp only [openObject]
  generalize fs.getInodeIdForObject obj = hooked at objs_eq
  cases hooked.2.handleToFileDes h with
  | none =>
    dsimp only
    split <;> simp only [modify, objs_eq]
  | some fdId =>
    dsimp only
    split <;> simp only [modify, setFd, objs_eq]

theorem openObject_keepsObjs (fs : Yaffsfs) (h obj : Nat) (isDir : Bool) (flags : OpenFlags) :
    fs.KeepsObjs (fs.openObject h obj isDir flags).2 := by
  obtain ⟨index, objs_eq⟩ := openObject_objs fs h obj isDir flags
  have noted := modify_keepsObjs fs obj fun node => { node with myInode := index }
  intro other there
  rw [objs_eq]
  split
  · exact noted.trans (modify_keepsObjs _ obj _) other there
  · exact noted other there

theorem openObject_keepsFiles (fs : Yaffsfs) (h obj : Nat) (isDir : Bool) {flags : OpenFlags}
    (not_write : flags.write = false) : fs.KeepsFiles (fs.openObject h obj isDir flags).2 := by
  obtain ⟨index, objs_eq⟩ := openObject_objs fs h obj isDir flags
  rw [if_neg (by simp [not_write])] at objs_eq
  have noted : fs.KeepsFiles (fs.modify obj fun node => { node with myInode := index }) :=
    modify_keepsFiles fun _ _ => ⟨rfl, rfl⟩
  exact noted.trans (keepsFiles_of_objs objs_eq)

/-- Objects that are made take nothing away. -/
theorem keepsFiles_of_origin {objs : Nat → Option FsObj} {obj : Nat} {node : FsObj} {P : Prop}
    (origin : objs = fs.objs ∨ fs.objs obj = none ∧ P ∧
      objs = Function.update fs.objs obj (some node)) (same : fs'.objs = objs) :
    fs.KeepsFiles fs' := by
  obtain rfl | ⟨not_there, -, rfl⟩ := origin
  · exact keepsFiles_of_objs same
  · intro other old found
    have other_ne : other ≠ obj := by
      rintro rfl
      rw [not_there] at found
      cases found
    exact ⟨old, by rw [same, Function.update_of_ne other_ne]; exact found, rfl, rfl⟩

/-- Opening keeps all objects, and their data if there is no write access. -/
theorem yaffsOpen_keeps (fs : Yaffsfs) (found : PathTarget) (mode : Nat) (flags : OpenFlags) :
    fs.KeepsObjs (fs.yaffsOpen found mode flags).2 ∧
      (flags.write = false → fs.KeepsFiles (fs.yaffsOpen found mode flags).2) := by
  obtain (same | ⟨h, -, same⟩) | ⟨h, f, -, -, -, -, -, ended⟩ := yaffsOpen_cases fs found mode flags
  · rw [same]
    exact ⟨(KeepsFiles.refl fs).keepsObjs, fun _ => KeepsFiles.refl fs⟩
  · rw [same]
    have kept : fs.KeepsFiles (fs.setHandle h { fdId := -1, useCount := 0 }) :=
      keepsFiles_of_objs rfl
    exact ⟨kept.keepsObjs, fun _ => kept⟩
  obtain failed | ⟨objs, obj, node, isDir, -, origin, hooked⟩ := ended
  · rw [failed]
    have kept := keepsFiles_of_objs (putHandle_takenFor_objs fs h f)
    exact ⟨kept.keepsObjs, fun _ => kept⟩
  · rw [hooked]
    have taken : fs.KeepsFiles { fs.takenFor h f with objs } := keepsFiles_of_origin origin rfl
    exact ⟨taken.keepsObjs.trans (openObject_keepsObjs _ h obj isDir flags), fun not_write =>
      taken.trans (openObject_keepsFiles _ h obj isDir not_write)⟩

theorem yaffsLseek_objs (fs : Yaffsfs) (handle offset : Int) (whence : Whence) :
    (fs.yaffsLseek handle offset whence).2.objs = fs.objs := by
  simp only [yaffsLseek, yaffsLseekOf]
  split
  · split <;> rfl
  · rfl

end Yaffsfs

/-! ## Opening through the driver -/

theorem OpenFlags.of_not_write {flags sharing : Nat} (reads : asksToWrite flags = false) :
    (OpenFlags.of flags sharing).write = false := by
  have masked : flags &&& (oRdWr ||| oWrOnly) = 0 :=
    not_not.mp (of_decide_eq_false reads)
  simp only [OpenFlags.of, masked]
  rfl

namespace VxVol

open Yaffsfs (KeepsFiles KeepsObjs yaffsOpen_keeps modify_keepsObjs keepsFiles_of_objs)

variable {vol : VxVol}

theorem setFd_self (vol : VxVol) (pFd : Nat) (fd : VxFd) :
    (vol.setFd pFd fd).pFdList pFd = fd := Function.update_self ..

theorem setFd_other (vol : VxVol) {pFd i : Nat} (i_ne : i ≠ pFd) (fd : VxFd) :
    (vol.setFd pFd fd).pFdList i = vol.pFdList i := Function.update_of_ne i_ne ..

/-- What opening a file has done.  A descriptor that was free refers to the file of the look-up. -/
structure Opens (target : VxTarget) (flags : Nat) (vol : VxVol) (done : Option Nat × VxVol) :
    Prop where
  keepsObjs : vol.fs.KeepsObjs done.2.fs
  keepsFiles : asksToWrite flags = false → vol.fs.KeepsFiles done.2.fs
  others : ∀ i, (vol.pFdList i).inUse → done.2.pFdList i = vol.pFdList i
  free : ∀ pFd, done.1 = some pFd → (vol.pFdList pFd).inUse = false
  opened : ∀ pFd, done.1 = some pFd → ∃ file, target.obj.or target.made = some file ∧
    (done.2.fs.objs file).isSome ∧ ∃ fd, done.2.pFdList pFd = fd ∧ fd.inUse ∧
      fd.obj = some file ∧ fd.position = 0 ∧ fd.append = false

theorem yaffsFdGet_cases (vol : VxVol) :
    vol.yaffsFdGet = (none, vol) ∨ ∃ pFd, (vol.pFdList pFd).inUse = false ∧
      vol.yaffsFdGet = (some pFd, vol.setFd pFd { inUse := true }) := by
  simp only [yaffsFdGet]
  split
  case h_1 => exact Or.inl rfl
  case h_2 pFd found =>
    exact Or.inr ⟨pFd, by simpa using List.find?_some found, rfl⟩

theorem findFile_cases {pFd flags mode obj : Nat} {target : VxTarget} {fs : Yaffsfs}
    (found : vol.findFile pFd target flags mode = some (obj, fs)) :
    target.obj.or target.made = some obj ∧ (fs.objs obj).isSome ∧ vol.fs.KeepsFiles fs := by
  simp only [findFile] at found
  split at found
  case h_1 there _ obj_eq =>
    split at found
    case isTrue allowed =>
      obtain ⟨rfl, rfl⟩ := Prod.mk.inj (Option.some.inj found)
      exact ⟨by rw [obj_eq]; rfl, Option.isSome_of_any allowed.1, KeepsFiles.refl _⟩
    case isFalse => cases found
  case h_2 made obj_eq made_eq =>
    split at found
    case isTrue allowed =>
      obtain ⟨rfl, rfl⟩ := Prod.mk.inj (Option.some.inj found)
      exact ⟨by rw [obj_eq, made_eq]; rfl, by simp, Yaffsfs.keepsFiles_of_origin
        (Or.inr ⟨allowed.2, trivial, rfl⟩) rfl⟩
    case isFalse => cases found
  case h_3 => cases found

/-- Filling in a descriptor that has just been cleared. -/
theorem fillFd_spec (vol : VxVol) {pFd obj : Nat} (flags mode : Nat)
    (cleared : vol.pFdList pFd = { inUse := true }) (there : (vol.fs.objs obj).isSome) :
    let done := vol.fillFd pFd obj flags mode
    vol.fs.KeepsObjs done.2.fs ∧
      (asksToWrite flags = false → vol.fs.KeepsFiles done.2.fs) ∧
      (∀ i, i ≠ pFd → done.2.pFdList i = vol.pFdList i) ∧
      ∀ p, done.1 = some p → p = pFd ∧ (done.2.fs.objs obj).isSome ∧
        ∃ fd, done.2.pFdList pFd = fd ∧ fd.inUse ∧ fd.obj = some obj ∧ fd.position = 0 ∧
          fd.append = false := by
  have kept := yaffsOpen_keeps vol.fs { obj := some obj } mode
    (OpenFlags.of flags (shareReadFlag ||| shareWriteFlag))
  simp only [fillFd]
  generalize vol.fs.yaffsOpen { obj := some obj } mode
    (OpenFlags.of flags (shareReadFlag ||| shareWriteFlag)) = below at kept
  generalize cut_eq : (if flagSet flags oTrunc = true ∧ ¬(!asksToWrite flags) = true then
    below.2.modify obj fun node => node.resizeFile 0 else below.2) = cut
  have keepsObjs : vol.fs.KeepsObjs cut := by
    rw [← cut_eq]
    split
    · exact kept.1.trans (modify_keepsObjs below.2 obj _)
    · exact kept.1
  have keepsFiles : asksToWrite flags = false → vol.fs.KeepsFiles cut := by
    intro reads
    rw [← cut_eq, if_neg (by simp [reads])]
    exact kept.2 (OpenFlags.of_not_write reads)
  split
  case isTrue =>
    refine ⟨keepsObjs, keepsFiles, fun i i_ne => setFd_other _ i_ne _, fun p p_eq => ?_⟩
    refine ⟨(Option.some.inj p_eq).symm, keepsObjs obj there, _, setFd_self .., rfl, rfl, rfl, ?_⟩
    dsimp only
    rw [cleared]
  case isFalse =>
    refine ⟨keepsObjs, keepsFiles, fun i i_ne => ?_, fun p p_eq => by cases p_eq⟩
    simp only [yaffsFdFree]
    rw [setFd_other _ i_ne, setFd_other _ i_ne]

theorem yaffsVolMount_objs (vol : VxVol) : vol.yaffsVolMount.fs.objs = vol.fs.objs := by
  simp only [yaffsVolMount]
  split
  case isTrue => rfl
  case isFalse =>
    simp only [Yaffsfs.yaffsMount]
    split <;> rfl

theorem yaffsVolMount_pFdList (vol : VxVol) : vol.yaffsVolMount.pFdList = vol.pFdList := by
  simp only [yaffsVolMount]
  split <;> rfl

theorem yaffsOpen_opens (vol : VxVol) (target : VxTarget) (flags mode : Nat) :
    Opens target flags vol (vol.yaffsOpen target flags mode) := by
  have mounted : vol.fs.KeepsFiles vol.yaffsVolMount.fs :=
    keepsFiles_of_objs vol.yaffsVolMount_objs
  have list_eq := vol.yaffsVolMount_pFdList
  simp only [yaffsOpen]
  generalize vol.yaffsVolMount = now at mounted list_eq
  obtain got | ⟨pFd, free, got⟩ := now.yaffsFdGet_cases
  · rw [got]
    exact ⟨mounted.keepsObjs, fun _ => mounted, fun i _ => congrFun list_eq i, nofun, nofun⟩
  rw [got]
  dsimp only
  rw [list_eq] at free
  have busy_ne : ∀ i, (vol.pFdList i).inUse → i ≠ pFd := by
    rintro i busy rfl
    rw [free] at busy
    cases busy
  split
  case h_1 =>
    refine ⟨mounted.keepsObjs, fun _ => mounted, fun i busy => ?_, nofun, nofun⟩
    simp only [yaffsFdFree]
    rw [setFd_other _ (busy_ne i busy), setFd_other _ (busy_ne i busy), list_eq]
  case h_2 obj fs found =>
    obtain ⟨target_eq, there, found_kept⟩ := findFile_cases found
    have kept : vol.fs.KeepsFiles fs := mounted.trans found_kept
    obtain ⟨keepsObjs, keepsFiles, others, opened⟩ :=
      fillFd_spec { now.setFd pFd { inUse := true } with fs } flags mode
        (setFd_self now pFd _) there
    refine ⟨kept.keepsObjs.trans keepsObjs, fun reads => kept.trans (keepsFiles reads),
      fun i busy => ?_, fun p p_eq => ?_, fun p p_eq => ?_⟩
    · rw [others i (busy_ne i busy)]
      exact (setFd_other now (busy_ne i busy) _).trans (congrFun list_eq i)
    · rw [(opened p p_eq).1]
      exact free
    · obtain ⟨rfl, still, rest⟩ := opened p p_eq
      exact ⟨obj, target_eq, still, rest⟩

end VxVol

/-! ## Agreement with the model -/

/-- A descriptor of the driver stands for one of the model. -/
structure StandsFor (vol : VxVol) (pFd : Nat) (cursor : Cursor) : Prop where
  inUse : (vol.pFdList pFd).inUse
  obj : (vol.pFdList pFd).obj = some cursor.file
  position : (vol.pFdList pFd).position = cursor.position
  range : cursor.position < 2 ^ 31
  append : (vol.pFdList pFd).append = false
  there : (vol.fs.objs cursor.file).isSome

namespace StandsFor

variable {vol vol' : VxVol} {pFd : Nat} {cursor : Cursor}

theorem of_kept (stands : StandsFor vol pFd cursor) (kept : vol.fs.KeepsObjs vol'.fs)
    (same : vol'.pFdList pFd = vol.pFdList pFd) : StandsFor vol' pFd cursor where
  inUse := by rw [same]; exact stands.inUse
  obj := by rw [same]; exact stands.obj
  position := by rw [same]; exact stands.position
  range := stands.range
  append := by rw [same]; exact stands.append
  there := kept cursor.file stands.there

/-- Moving the position of both. -/
theorem moved (stands : StandsFor vol pFd cursor) (kept : vol.fs.KeepsObjs vol'.fs) {pos : Nat}
    (same : vol'.pFdList pFd = { vol.pFdList pFd with position := pos }) (pos_lt : pos < 2 ^ 31) :
    StandsFor vol' pFd { cursor with position := pos } where
  inUse := by rw [same]; exact stands.inUse
  obj := by rw [same]; exact stands.obj
  position := by rw [same]
  range := pos_lt
  append := by rw [same]; exact stands.append
  there := kept cursor.file stands.there

theorem pos_eq (stands : StandsFor vol pFd cursor) :
    Dev.intOfU32 (vol.pFdList pFd).position = cursor.position := by
  rw [stands.position]
  exact intOfU32_of_lt stands.range

end StandsFor

namespace VxVol

open Dev (intOfU32 u32OfInt)
open Yaffsfs (KeepsFiles keepsFiles_of_objs modify_keepsObjs modify_keepsFiles yaffsLseek_objs)

variable {vol : VxVol} {pFd : Nat} {cursor : Cursor}

theorem yaffsSeek_keeps (vol : VxVol) (pFd newPos : Nat) :
    vol.fs.KeepsFiles (vol.yaffsSeek pFd newPos).2.fs := by
  simp only [yaffsSeek]
  split
  · exact keepsFiles_of_objs (yaffsLseek_objs ..)
  · exact KeepsFiles.refl _

theorem yaffsSeek_pFdList (vol : VxVol) (pFd newPos : Nat) :
    (vol.yaffsSeek pFd newPos).2.pFdList =
      Function.update vol.pFdList pFd { vol.pFdList pFd with position := newPos } := by
  simp only [yaffsSeek]
  split <;> rfl

theorem setFd_eq_self (vol : VxVol) (pFd : Nat) : vol.setFd pFd (vol.pFdList pFd) = vol := by
  rw [setFd, Function.update_eq_self]

/-- Reading changes the descriptor at most. -/
theorem yaffsRead_sets (vol : VxVol) (pFd : Nat) (maxBytes : Int) :
    ∃ fd, (vol.yaffsRead pFd maxBytes).2 = vol.setFd pFd fd := by
  simp only [yaffsRead]
  cases (vol.pFdList pFd).obj.bind vol.fs.objs with
  | none => exact ⟨_, (vol.setFd_eq_self pFd).symm⟩
  | some node =>
    dsimp only
    generalize intOfU32 (min (u32OfInt maxBytes) (if intOfU32 (vol.pFdList pFd).position <
      node.fileSize then u32OfInt (node.fileSize - intOfU32 (vol.pFdList pFd).position) else 0)) = n
    split
    · exact ⟨_, rfl⟩
    · exact ⟨_, (vol.setFd_eq_self pFd).symm⟩

theorem yaffsRead_fs (vol : VxVol) (pFd : Nat) (maxBytes : Int) :
    (vol.yaffsRead pFd maxBytes).2.fs = vol.fs := by
  obtain ⟨fd, after_eq⟩ := vol.yaffsRead_sets pFd maxBytes
  rw [after_eq]
  rfl

theorem yaffsRead_others (vol : VxVol) (pFd : Nat) (maxBytes : Int) (i : Nat) (i_ne : i ≠ pFd) :
    (vol.yaffsRead pFd maxBytes).2.pFdList i = vol.pFdList i := by
  obtain ⟨fd, after_eq⟩ := vol.yaffsRead_sets pFd maxBytes
  rw [after_eq]
  exact setFd_other vol i_ne fd

theorem yaffsWrite_keepsObjs (vol : VxVol) (pFd : Nat) (data : List UInt8) (room : Nat) :
    vol.fs.KeepsObjs (vol.yaffsWrite pFd data room).2.fs := by
  simp only [yaffsWrite]
  cases (vol.pFdList pFd).obj with
  | none => exact (KeepsFiles.refl _).keepsObjs
  | some obj => exact modify_keepsObjs vol.fs obj _

theorem yaffsWrite_others (vol : VxVol) (pFd : Nat) (data : List UInt8) (room i : Nat)
    (i_ne : i ≠ pFd) : (vol.yaffsWrite pFd data room).2.pFdList i = vol.pFdList i := by
  simp only [yaffsWrite]
  split
  · rfl
  · exact setFd_other _ i_ne _

/-- A read delivers what is there, and moves the position by it. -/
theorem yaffsRead_spec (stands : StandsFor vol pFd cursor) {node : FsObj} (maxBytes : Int)
    (found : vol.fs.objs cursor.file = some node)
    (in_range : cursor.position +
      min (u32OfInt maxBytes) (node.fileSize - cursor.position) < 2 ^ 31) :
    ∃ n : Nat, vol.yaffsRead pFd maxBytes = (((n : Int), node.fileRd cursor.position n),
        vol.setFd pFd { vol.pFdList pFd with position := cursor.position + n }) ∧
      n ≤ min (u32OfInt maxBytes) (node.fileSize - cursor.position) ∧
      (node.fileSize < 2 ^ 32 →
        n = min (u32OfInt maxBytes) (node.fileSize - cursor.position)) := by
  have obj_eq : (vol.pFdList pFd).obj.bind vol.fs.objs = some node := by
    rw [stands.obj]
    exact found
  let rest := node.fileSize - cursor.position
  have maxRead_eq : (if (cursor.position : Int) < node.fileSize then
      u32OfInt (node.fileSize - cursor.position) else 0) = rest % 2 ^ 32 := by
    simp only [u32OfInt, rest]
    split <;> omega
  have n_lt : cursor.position + min (u32OfInt maxBytes) (rest % 2 ^ 32) < 2 ^ 31 := by
    have rest_le : rest % 2 ^ 32 ≤ rest := Nat.mod_le ..
    omega
  refine ⟨min (u32OfInt maxBytes) (rest % 2 ^ 32), ?_, ?_, fun size_lt => ?_⟩
  · simp only [yaffsRead, obj_eq, stands.pos_eq, maxRead_eq]
    rw [intOfU32_of_lt (by omega)]
    split
    case isTrue =>
      rw [Int.toNat_natCast, Int.toNat_natCast, ← Nat.cast_add, u32OfInt_natCast (by omega)]
    case isFalse none_left =>
      have n_eq : min (u32OfInt maxBytes) (rest % 2 ^ 32) = 0 := by omega
      have same : { vol.pFdList pFd with position := cursor.position + 0 } = vol.pFdList pFd := by
        rw [Nat.add_zero, ← stands.position]
      rw [n_eq, same, setFd_eq_self]
      rfl
  · exact min_le_min_left _ (Nat.mod_le ..)
  · rw [Nat.mod_eq_of_lt (by omega)]

/-- A write puts its bytes at the position of the descriptor. -/
theorem yaffsWrite_spec (stands : StandsFor vol pFd cursor) (data : List UInt8) (room : Nat)
    (in_range : cursor.position + data.length < 2 ^ 31) :
    vol.yaffsWrite pFd data room = (((min data.length room : Nat) : Int),
      { vol with
        fs := vol.fs.modify cursor.file fun node =>
          node.wrFile cursor.position (data.take (min data.length room)) }.setFd pFd
        { vol.pFdList pFd with position := cursor.position + min data.length room }) := by
  have pos_eq := stands.pos_eq
  simp only [yaffsWrite, stands.obj, stands.append, pos_eq]
  have n_le : min data.length room ≤ data.length := min_le_left ..
  rw [if_neg Bool.false_ne_true, Int.toNat_natCast, ← Nat.cast_add,
    u32OfInt_natCast (by omega)]

end VxVol

theorem FsObj.fileRd_length (node : FsObj) (pos n : Nat) : (node.fileRd pos n).length = n := by
  simp only [fileRd, List.length_map, List.length_range]

/-- Writing no byte inside a file leaves its data as they are. -/
theorem FsObj.wrFile_nil (node : FsObj) {pos : Nat} (pos_le : pos ≤ node.fileSize) :
    (node.wrFile pos []).fileSize = node.fileSize ∧ (node.wrFile pos []).byte = node.byte := by
  simp only [wrFile, List.length_nil, Nat.add_zero]
  refine ⟨max_eq_left pos_le, funext fun i => ?_⟩
  split
  case isTrue i_lt => rw [if_pos (by omega)]
  case isFalse => rfl

namespace VxRun

open Yaffsfs (KeepsFiles modify_keepsObjs modify_keepsFiles)

/-- All descriptors of the driver stand for those of the model. -/
def Agree (state : VxRun) : Prop :=
  ∀ pFd cursor, state.cursor pFd = some cursor → StandsFor state.vol pFd cursor

/-- A call that touches one descriptor. -/
theorem Agree.of_one {state : VxRun} {vol' : VxVol} {pFd : Nat} {change : Cursor → Cursor}
    (agree : state.Agree) (kept : state.vol.fs.KeepsObjs vol'.fs)
    (others : ∀ i, i ≠ pFd → vol'.pFdList i = state.vol.pFdList i)
    (self : ∀ c, state.cursor pFd = some c → StandsFor vol' pFd (change c)) :
    Agree
      { vol := vol'
        cursor := Function.update state.cursor pFd ((state.cursor pFd).map change) } := by
  intro i cursor found
  dsimp only at found ⊢
  rw [Function.update_apply] at found
  split at found
  case isTrue same =>
    subst same
    obtain ⟨c, c_eq, rfl⟩ := Option.map_eq_some_iff.mp found
    exact self c c_eq
  case isFalse i_ne => exact (agree i cursor found).of_kept kept (others i i_ne)

theorem sizeOf_eq {fs : Yaffsfs} {file : Nat} {node : FsObj} (found : fs.objs file = some node) :
    fs.sizeOf file = node.fileSize := by
  rw [Yaffsfs.sizeOf, found]
  rfl

/-- Where a plain write takes place is the position. -/
theorem writeAt_eq {cursor : Cursor} {fs : Yaffsfs}
    (at_end : cursor.append → cursor.position = fs.sizeOf cursor.file) :
    cursor.writeAt fs = cursor.position := by
  simp only [Cursor.writeAt]
  split
  case isTrue appends => exact (at_end appends).symm
  case isFalse => rfl

theorem exec_agree (call : VxCall) (state : VxRun) (guard : call.InRange state ∧ call.Plain state)
    (agree : state.Agree) : (exec call state).Agree := by
  obtain ⟨in_range, plain⟩ := guard
  cases call with
  | yaffsOpen target flags mode =>
    have opens := state.vol.yaffsOpen_opens target flags mode
    dsimp only [exec, VxCall.issue, VxCall.follow]
    generalize state.vol.yaffsOpen target flags mode = done at opens
    obtain ⟨result, vol'⟩ := done
    have unchanged : ∀ i cursor, state.cursor i = some cursor → StandsFor vol' i cursor :=
      fun i cursor found =>
        (agree i cursor found).of_kept opens.keepsObjs (opens.others i (agree i cursor found).inUse)
    cases result with
    | none =>
      intro i cursor found
      rw [Option.map_none, Option.getD_none, if_neg (by decide)] at found
      exact unchanged i cursor found
    | some pFd =>
      obtain ⟨file, target_eq, there, fd, fd_eq, inUse, obj_eq, position_eq, append_eq⟩ :=
        opens.opened pFd rfl
      intro i cursor found
      simp only [Option.map_some, Option.getD_some, Int.ofNat_eq_natCast, Int.natCast_nonneg,
        if_true, Int.toNat_natCast, target_eq, Function.update_apply] at found
      split at found
      case isTrue same =>
        subst same
        cases found
        exact ⟨by rw [fd_eq]; exact inUse, by rw [fd_eq]; exact obj_eq,
          by rw [fd_eq]; exact position_eq, Nat.two_pow_pos 31, by rw [fd_eq]; exact
            append_eq, there⟩
      case isFalse => exact unchanged i cursor found
  | fioSeek pFd arg =>
    obtain ⟨arg_nonneg, arg_lt⟩ : 0 ≤ arg ∧ arg < 2 ^ 31 := in_range
    have arg_eq : Dev.u32OfInt arg = arg.toNat := by
      simp only [Dev.u32OfInt]
      omega
    have list_eq := state.vol.yaffsSeek_pFdList pFd arg.toNat
    have kept := (state.vol.yaffsSeek_keeps pFd arg.toNat).keepsObjs
    simp only [exec, VxCall.issue, VxCall.follow, VxVol.fioSeek, arg_eq]
    refine agree.of_one kept (fun i i_ne => ?_) fun c c_eq =>
      (agree pFd c c_eq).moved kept ?_ (by omega)
    · rw [list_eq, Function.update_of_ne i_ne]
    · rw [list_eq, Function.update_self]
  | fioSeek64 pFd arg buf64 =>
    have arg_eq : Dev.u32OfInt arg = buf64 := plain
    have list_eq := state.vol.yaffsSeek_pFdList pFd buf64
    have kept := (state.vol.yaffsSeek_keeps pFd buf64).keepsObjs
    simp only [exec, VxCall.issue, VxCall.follow, VxVol.fioSeek64, arg_eq]
    refine agree.of_one kept (fun i i_ne => ?_) fun c c_eq =>
      (agree pFd c c_eq).moved kept ?_ in_range
    · rw [list_eq, Function.update_of_ne i_ne]
    · rw [list_eq, Function.update_self]
  | fioWhere pFd => exact agree
  | yaffsRead pFd maxBytes =>
    simp only [exec, VxCall.issue, VxCall.follow]
    refine agree.of_one (Yaffsfs.keepsFiles_of_objs (by rw [VxVol.yaffsRead_fs])).keepsObjs
      (state.vol.yaffsRead_others pFd maxBytes) fun c c_eq => ?_
    have stands := agree pFd c c_eq
    obtain ⟨node, found⟩ := Option.isSome_iff_exists.mp stands.there
    have range : c.position + min (Dev.u32OfInt maxBytes)
      (node.fileSize - c.position) < 2 ^ 31 := by
      rw [← sizeOf_eq found]
      exact in_range c c_eq
    obtain ⟨n, read_eq, n_le, -⟩ := VxVol.yaffsRead_spec stands maxBytes found range
    rw [read_eq]
    dsimp only
    rw [FsObj.fileRd_length]
    let fd := { state.vol.pFdList pFd with position := c.position + n }
    have kept : state.vol.fs.KeepsObjs (state.vol.setFd pFd fd).fs := fun _ there => there
    exact stands.moved kept (VxVol.setFd_self ..) (by omega)
  | yaffsWrite pFd data room =>
    simp only [exec, VxCall.issue, VxCall.follow]
    refine agree.of_one (state.vol.yaffsWrite_keepsObjs pFd data room)
      (state.vol.yaffsWrite_others pFd data room) fun c c_eq => ?_
    have stands := agree pFd c c_eq
    have at_eq := writeAt_eq (plain c c_eq).1
    have range : c.position + data.length < 2 ^ 31 := by
      rw [← at_eq]
      exact in_range c c_eq
    have n_le : min data.length room ≤ data.length := min_le_left ..
    rw [VxVol.yaffsWrite_spec stands data room range]
    dsimp only
    rw [at_eq, Int.toNat_natCast]
    exact stands.moved (modify_keepsObjs _ c.file _) (VxVol.setFd_self ..) (by omega)

theorem follows_of_agree {call : VxCall} {state : VxRun}
    (guard : call.InRange state ∧ call.Plain state) (agree : state.Agree) :
    call.FollowsModel state := by
  obtain ⟨in_range, plain⟩ := guard
  cases call with
  | yaffsOpen target flags mode => exact (state.vol.yaffsOpen_opens target flags mode).keepsFiles
  | fioSeek pFd arg => exact state.vol.yaffsSeek_keeps pFd _
  | fioSeek64 pFd arg buf64 => exact state.vol.yaffsSeek_keeps pFd _
  | fioWhere pFd => exact fun c c_eq => (agree pFd c c_eq).pos_eq
  | yaffsRead pFd maxBytes =>
    intro c c_eq
    have stands := agree pFd c c_eq
    obtain ⟨node, found⟩ := Option.isSome_iff_exists.mp stands.there
    have range : c.position + min (Dev.u32OfInt maxBytes)
      (node.fileSize - c.position) < 2 ^ 31 := by
      rw [← sizeOf_eq found]
      exact in_range c c_eq
    obtain ⟨n, read_eq, -, all_read⟩ := VxVol.yaffsRead_spec stands maxBytes found range
    simp only [VxCall.issue, read_eq, FsObj.fileRd_length]
    exact ⟨KeepsFiles.refl _, trivial, node, found, rfl, all_read⟩
  | yaffsWrite pFd data room =>
    intro c c_eq
    have stands := agree pFd c c_eq
    obtain ⟨at_end, no_byte⟩ := plain c c_eq
    have at_eq := writeAt_eq at_end
    have range : c.position + data.length < 2 ^ 31 := by
      rw [← at_eq]
      exact in_range c c_eq
    simp only [VxCall.issue, VxVol.yaffsWrite_spec stands data room range, at_eq]
    split
    case isTrue => exact ⟨trivial, rfl⟩
    case isFalse reads =>
      obtain ⟨none_written, inside⟩ := no_byte (Bool.not_eq_true _ ▸ reads)
      rw [none_written, List.take_zero]
      refine modify_keepsFiles fun node found => node.wrFile_nil ?_
      rwa [sizeOf_eq found] at inside

/-- As long as the calls are plain, every one of them does what the file-position model says. -/
theorem follows_model {calls : List VxCall} {call : VxCall} {vol : VxVol}
    (guarded : Execution.Guarded exec (fun call state => call.InRange state ∧ call.Plain state)
      (calls ++ [call]) { vol }) :
    call.FollowsModel (Execution.run exec calls { vol }) := by
  obtain ⟨before, guard⟩ := Execution.guarded_at guarded
  have start : Agree { vol } := nofun
  exact follows_of_agree guard
    (Execution.run_invariant (fun call state => exec_agree call state) before start)

/-- A mounted device with a file of one byte. -/
def oneByte : VxRun where
  vol :=
    { fs :=
        { isMounted := fun dev => dev == 0
          objs := fun obj => if obj = 0 then some { myDev := 0, fileSize := 1, byte := fun _ => 7 }
            else none } }

/-- Open the file of `oneByte`. -/
def openByte (flags : Nat) : VxCall := .yaffsOpen { obj := some 0 } flags 0

theorem follows_model_written :
    Execution.Guarded exec (fun call state => call.InRange state ∧ call.Plain state)
      ([openByte oRdWr, .yaffsWrite 0 [1, 2] 5] ++ [.fioWhere 0]) oneByte ∧
    (VxCall.fioWhere 0).FollowsModel
      (Execution.run exec [openByte oRdWr, .yaffsWrite 0 [1, 2] 5] oneByte) := by
  have guarded : Execution.Guarded exec
      (fun call state => call.InRange state ∧ call.Plain state)
      ([openByte oRdWr, .yaffsWrite 0 [1, 2] 5] ++ [.fioWhere 0]) oneByte := by
    have opened : (exec (openByte oRdWr) oneByte).cursor 0 =
        some { file := 0, writable := true } := by decide +kernel
    refine ⟨⟨trivial, trivial⟩, ⟨fun c c_eq => ?_, fun c c_eq => ?_⟩, ⟨trivial, trivial⟩, trivial⟩
    · obtain rfl := Option.some.inj (opened.symm.trans c_eq)
      decide
    · obtain rfl := Option.some.inj (opened.symm.trans c_eq)
      exact ⟨nofun, nofun⟩
  exact ⟨guarded, follows_model guarded⟩

/-- The driver writes through a descriptor without write access, appends at the position, and seeks
to the address of a position. -/
theorem departs_from_model :
    (Execution.Guarded exec VxCall.InRange ([openByte 0] ++ [.yaffsWrite 0 [9] 5]) oneByte ∧
      ¬(VxCall.yaffsWrite 0 [9] 5).FollowsModel (Execution.run exec [openByte 0] oneByte)) ∧
    (Execution.Guarded exec VxCall.InRange
        ([openByte (oWrOnly ||| oAppend)] ++ [.yaffsWrite 0 [9] 5]) oneByte ∧
      ¬(VxCall.yaffsWrite 0 [9] 5).FollowsModel
        (Execution.run exec [openByte (oWrOnly ||| oAppend)] oneByte)) ∧
    (Execution.Guarded exec VxCall.InRange ([openByte 0, .fioSeek64 0 1000 1] ++ [.fioWhere 0])
        oneByte ∧
      ¬(VxCall.fioWhere 0).FollowsModel
        (Execution.run exec [openByte 0, .fioSeek64 0 1000 1] oneByte)) := by
  refine ⟨⟨⟨trivial, fun c c_eq => ?_, trivial⟩, fun follows => ?_⟩,
    ⟨⟨trivial, fun c c_eq => ?_, trivial⟩, fun follows => ?_⟩,
    ⟨trivial, (by decide : 1 < 2 ^ 31), trivial, trivial⟩, fun follows => ?_⟩
  · have opened : (exec (openByte 0) oneByte).cursor 0 = some { file := 0 } := by decide +kernel
    obtain rfl := Option.some.inj (opened.symm.trans c_eq)
    decide
  · obtain ⟨node', found', -, byte_eq⟩ := follows { file := 0 } (by decide +kernel) 0 _ rfl
    have written : (((VxCall.yaffsWrite 0 [9] 5).issue
        (Execution.run exec [openByte 0] oneByte).vol).2.fs.objs 0).map (fun node => node.byte 0) =
          some 9 := by decide +kernel
    rw [found'] at written
    have byte_nine : node'.byte 0 = 9 := Option.some.inj written
    rw [byte_eq] at byte_nine
    revert byte_nine
    decide +kernel
  · have opened : (exec (openByte (oWrOnly ||| oAppend)) oneByte).cursor 0 =
        some { file := 0, append := true, writable := true } := by decide +kernel
    obtain rfl := Option.some.inj (opened.symm.trans c_eq)
    decide +kernel
  · have appended := (follows { file := 0, append := true, writable := true }
      (by decide +kernel)).2
    have sizes := congrArg (fun objs => (objs 0).map FsObj.fileSize) appended
    revert sizes
    decide +kernel
  · have where_eq := follows { file := 0, position := 1 } (by decide +kernel)
    revert where_eq
    decide +kernel

end VxRun

end Yaffs
