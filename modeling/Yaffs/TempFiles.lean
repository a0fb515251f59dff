import Yaffs.TempCalls

/-!
# Temporary buffers of the file system calls

Headers, the collector, files, attributes and the scan.  A call leaves the buffers as it found them
exactly if no header of a lazily loaded object and no page read for inband tags only has failed it.
-/

namespace Yaffs

open Borrowing TempCall

namespace TempConfig

variable (cfg : TempConfig)

/-! ## Headers and the collector -/

/-- Write a new header of an object, after a turn of the collector. -/
def updateOhWith (checkGc : TempCall Unit) : TempCall Bool := do
  let fake ← condition
  if fake then return true else do
    checkGc
    cfg.checkObjDetailsLoaded
    let buffer ← getTempBuffer
    let prevChunk ← condition
    onlyIf prevChunk do
      let _ ← cfg.rdChunkTagsNand true
      return ()
    let written ← cfg.writeNewChunk
    releaseTempBuffer buffer
    onlyIf (written && prevChunk) cfg.chunkDel
    return written

/-- Change the name or the directory of an object. -/
def changeObjNameWith (checkGc : TempCall Unit) : TempCall Unit := do
  cfg.findByName
  let allowed ← condition
  onlyIf allowed do
    cfg.addObjToDir
    let _ ← cfg.updateOhWith checkGc
    return ()

/-- Delete an object, on a device of the second kind with a record of its deletion. -/
def genericObjDelWith (checkGc : TempCall Unit) : TempCall Unit := do
  let elsewhere ← condition
  onlyIf (cfg.isYaffs2 && elsewhere) (cfg.changeObjNameWith checkGc)
  cfg.removeObjFromDir
  cfg.chunkDel

/-- Copy a page out of the block that is collected, or drop it. -/
def gcProcessChunk : TempCall Bool := do
  let _ ← cfg.rdChunkTagsNand true
  let live ← condition
  let moved ← (if live then cfg.writeNewChunk else pure true)
  let isData ← condition
  onlyIf (live && moved && isData) do
    let _ ← cfg.putChunkInFile 0
    return ()
  onlyIf moved cfg.chunkDel
  return moved

/-- Collect a block.  Meanwhile `gc_disable` is set, and a check in the functions that are called
returns at once. -/
def gcBlock : TempCall Unit := do
  let noChunks ← condition
  if noChunks then cfg.blockBecameDirty else do
    let buffer ← getTempBuffer
    rounds cfg.chunksPerBlock do
      let used ← condition
      let ok ← (if used then cfg.gcProcessChunk else pure true)
      let going ← condition
      return ok && going
    releaseTempBuffer buffer
  let cleanUps ← choose
  rounds cleanUps do
    cfg.genericObjDelWith (pure ())
    return true

/-- Collect garbage if there is need for it, in at most two turns. -/
def checkGc : TempCall Unit := do
  let disabled ← condition
  onlyIf (!disabled) <| rounds 2 do
    let needed ← condition
    if needed then do
      let found ← condition
      onlyIf found cfg.gcBlock
      condition
    else
      return false

/-- Write a new header of an object. -/
def updateOh : TempCall Bool := cfg.updateOhWith cfg.checkGc

variable {cfg} {entry : TempPool}

theorem settles_updateOhWith {checkGc : TempCall Unit} (checks : Settles (Owing entry) checkGc) :
    Settles (Owing entry) (cfg.updateOhWith checkGc) := by
  refine settles_condition.bind fun _ => .ite (.pure _) <| checks.bind fun _ =>
    settles_checkObjDetailsLoaded.bind fun _ => .borrow lends_getTempBuffer fun buffer => ?_
  refine .after settles_condition fun _ =>
    .after (.onlyIf ((settles_rdChunkTagsNand true).bind fun _ => .pure _)) fun _ =>
    .after settles_writeNewChunk fun _ => clears_releaseTempBuffer.bind fun _ => ?_
  exact settles_chunkDel.onlyIf.bind fun _ => .pure _

theorem settles_changeObjNameWith {checkGc : TempCall Unit}
    (checks : Settles (Owing entry) checkGc) :
    Settles (Owing entry) (cfg.changeObjNameWith checkGc) :=
  settles_findByName.bind fun _ => settles_condition.bind fun _ => .onlyIf <|
    settles_addObjToDir.bind fun _ => (settles_updateOhWith checks).bind fun _ => .pure _

theorem settles_genericObjDelWith {checkGc : TempCall Unit}
    (checks : Settles (Owing entry) checkGc) :
    Settles (Owing entry) (cfg.genericObjDelWith checkGc) :=
  settles_condition.bind fun _ => (settles_changeObjNameWith checks).onlyIf.bind fun _ =>
    settles_removeObjFromDir.bind fun _ => settles_chunkDel

theorem settles_gcProcessChunk : Settles (Owing entry) cfg.gcProcessChunk := by
  refine (settles_rdChunkTagsNand true).bind fun _ => settles_condition.bind fun _ =>
    .bind (settles_writeNewChunk.ite (.pure _)) fun _ => settles_condition.bind fun _ => ?_
  exact .bind (.onlyIf ((settles_putChunkInFile 0).bind fun _ => .pure _)) fun _ =>
    settles_chunkDel.onlyIf.bind fun _ => .pure _

theorem settles_gcBlock : Settles (Owing entry) cfg.gcBlock := by
  have cleanUp : Settles (Owing entry) (do
      let cleanUps ← choose
      rounds cleanUps do
        cfg.genericObjDelWith (pure ())
        return true) :=
    settles_choose.bind fun _ =>
      .rounds ((settles_genericObjDelWith (.pure ())).bind fun _ => .pure _) _
  have copy : Settles (Owing entry) (do
      let used ← condition
      let ok ← (if used then cfg.gcProcessChunk else pure true)
      let going ← condition
      return ok && going) :=
    settles_condition.bind fun _ => .bind (settles_gcProcessChunk.ite (.pure _)) fun _ =>
      settles_condition.bind fun _ => .pure _
  exact settles_condition.bind fun _ => .ite (settles_blockBecameDirty.bind fun _ => cleanUp)
    (.borrow lends_getTempBuffer fun _ => .after (.rounds copy _) fun _ =>
      clears_releaseTempBuffer.bind fun _ => cleanUp)

theorem settles_checkGc : Settles (Owing entry) cfg.checkGc := by
  refine settles_condition.bind fun _ => .onlyIf (.rounds ?_ 2)
  exact settles_condition.bind fun _ => .ite (settles_condition.bind fun _ =>
    settles_gcBlock.onlyIf.bind fun _ => settles_condition) (.pure _)

theorem settles_updateOh : Settles (Owing entry) cfg.updateOh := settles_updateOhWith settles_checkGc

/-! ## Files -/

variable (cfg) in
/-- Write one page of a file.  A page without a place in the file counts as written. -/
def wrDataObj : TempCall Bool := do
  cfg.checkGc
  let prevChunk ← cfg.findChunkInFile
  let placed ← (if prevChunk then pure true else cfg.putChunkInFile 0)
  if placed then do
    let written ← cfg.writeNewChunk
    onlyIf written do
      let _ ← cfg.putChunkInFile 0
      return ()
    onlyIf (written && prevChunk) cfg.chunkDel
    return written
  else
    return true

variable (cfg) in
/-- Write a cached page back if it is dirty. -/
def flushSingleCache : TempCall Unit := do
  let dirty ← condition
  onlyIf dirty do
    let _ ← cfg.wrDataObj
    return ()

variable (cfg) in
/-- Write all cached pages of a file back. -/
def flushFileCache : TempCall Unit :=
  rounds cfg.nCaches do
    let ofFile ← condition
    onlyIf ofFile cfg.flushSingleCache
    return true

variable (cfg) in
/-- Find room in the cache. -/
def grabChunkCache : TempCall Unit := do
  let allUsed ← condition
  onlyIf allUsed cfg.flushSingleCache

variable (cfg) in
/-- Read the part of a file that lies in one page. -/
def rdPiece : TempCall Unit := do
  let cached ← condition
  let whole ← condition
  if cached || !whole || cfg.inbandTags then
    if 0 < cfg.nCaches then
      onlyIf (!cached) do
        cfg.grabChunkCache
        cfg.rdDataObj
    else do
      let localBuffer ← getTempBuffer
      cfg.rdDataObj
      releaseTempBuffer localBuffer
  else
    cfg.rdDataObj

variable (cfg) in
/-- Read from a file. -/
def fileRd : TempCall Unit := do
  let pieces ← choose
  rounds pieces do
    cfg.rdPiece
    return true

variable (cfg) in
/-- Write the part of a file that lies in one page: is the write to go on? -/
def wrPiece : TempCall Bool := do
  let whole ← condition
  if !whole || !cfg.cacheBypassAligned || cfg.inbandTags then
    if 0 < cfg.nCaches then do
      let cached ← condition
      let space ← condition
      onlyIf (!cached && space) do
        cfg.grabChunkCache
        cfg.rdDataObj
      -- A clean page is dropped from the cache when there is no space.
      let usable ← condition
      let writeThrough ← condition
      if usable && writeThrough then cfg.wrDataObj else return usable
    else do
      let localBuffer ← getTempBuffer
      cfg.rdDataObj
      let written ← cfg.wrDataObj
      releaseTempBuffer localBuffer
      return written
  else
    cfg.wrDataObj

variable (cfg) in
/-- Write to a file that reaches as far as the write begins. -/
def doFileWr : TempCall Unit := do
  let pieces ← choose
  rounds pieces cfg.wrPiece

variable (cfg) in
/-- Delete the pages of a file from a size on. -/
def pruneChunks : TempCall Unit := do
  let pages ← choose
  rounds pages do
    let found ← cfg.findChunkInFile
    onlyIf found cfg.chunkDel
    return true

variable (cfg) in
/-- Make a file smaller.  A page that is cut is written again. -/
def resizeFileDown : TempCall Unit := do
  cfg.pruneChunks
  let cut ← condition
  onlyIf cut do
    let localBuffer ← getTempBuffer
    cfg.rdDataObj
    let _ ← cfg.wrDataObj
    releaseTempBuffer localBuffer

variable (cfg) in
/-- Fill a small hole with zeros, or write a header that tells of a large one. -/
def handleHole : TempCall Unit := do
  let grows ← condition
  onlyIf (cfg.isYaffs2 && grows) do
    let smallHole ← condition
    onlyIf smallHole do
      let localBuffer ← getTempBuffer
      let pieces ← choose
      rounds pieces do
        cfg.doFileWr
        condition
      releaseTempBuffer localBuffer
      let filled ← condition
      onlyIf (!filled) cfg.resizeFileDown
    let header ← condition
    onlyIf header do
      let _ ← cfg.updateOh
      return ()

variable (cfg) in
/-- Change the size of a file. -/
def resizeFile : TempCall Unit := do
  cfg.flushFileCache
  cfg.checkGc
  let differs ← condition
  onlyIf differs do
    let grows ← condition
    if grows then cfg.handleHole else cfg.resizeFileDown
    let header ← condition
    onlyIf header do
      let _ ← cfg.updateOh
      return ()

variable (cfg) in
/-- Write to a file. -/
def wrFile : TempCall Unit := do
  cfg.handleHole
  cfg.doFileWr

variable (cfg) in
/-- Write back what is cached of a file, and its header. -/
def flushFile : TempCall Unit := do
  let dirty ← condition
  onlyIf dirty do
    cfg.flushFileCache
    let header ← condition
    onlyIf header do
      let _ ← cfg.updateOh
      return ()

/-- Write a header and leave it at that. -/
theorem settles_header : Settles (Owing entry) (do
    let _ ← cfg.updateOh
    return ()) :=
  settles_updateOh.bind fun _ => .pure _

theorem settles_wrDataObj : Settles (Owing entry) cfg.wrDataObj := by
  have put : Settles (Owing entry) (do let _ ← cfg.putChunkInFile 0; return ()) :=
    (settles_putChunkInFile 0).bind fun _ => .pure _
  refine settles_checkGc.bind fun _ => settles_findChunkInFile.bind fun _ =>
    .bind (.ite (.pure _) (settles_putChunkInFile 0)) fun _ => .ite ?_ (.pure _)
  exact settles_writeNewChunk.bind fun _ => put.onlyIf.bind fun _ =>
    settles_chunkDel.onlyIf.bind fun _ => .pure _

theorem settles_flushSingleCache : Settles (Owing entry) cfg.flushSingleCache :=
  settles_condition.bind fun _ => .onlyIf (settles_wrDataObj.bind fun _ => .pure _)

theorem settles_flushFileCache : Settles (Owing entry) cfg.flushFileCache :=
  .rounds (settles_condition.bind fun _ => settles_flushSingleCache.onlyIf.bind fun _ => .pure _) _

theorem settles_grabChunkCache : Settles (Owing entry) cfg.grabChunkCache :=
  settles_condition.bind fun _ => settles_flushSingleCache.onlyIf

/-- Find room in the cache and load a page. -/
theorem settles_load : Settles (Owing entry) (do
    cfg.grabChunkCache
    cfg.rdDataObj) :=
  settles_grabChunkCache.bind fun _ => settles_rdDataObj

theorem settles_rdPiece : Settles (Owing entry) cfg.rdPiece := by
  refine settles_condition.bind fun _ => settles_condition.bind fun _ =>
    .ite (.ite settles_load.onlyIf ?_) settles_rdDataObj
  exact .borrow lends_getTempBuffer fun _ => .after settles_rdDataObj fun _ => clears_releaseTempBuffer

theorem settles_fileRd : Settles (Owing entry) cfg.fileRd :=
  settles_choose.bind fun _ => .rounds (settles_rdPiece.bind fun _ => .pure _) _

theorem settles_wrPiece : Settles (Owing entry) cfg.wrPiece := by
  refine settles_condition.bind fun _ => .ite (.ite ?cache ?buffer) settles_wrDataObj
  case cache =>
    exact settles_condition.bind fun _ => settles_condition.bind fun _ =>
      settles_load.onlyIf.bind fun _ => settles_condition.bind fun _ =>
      settles_condition.bind fun _ => settles_wrDataObj.ite (.pure _)
  case buffer =>
    exact .borrow lends_getTempBuffer fun _ => .after settles_rdDataObj fun _ =>
      .after settles_wrDataObj fun _ => clears_releaseTempBuffer.bind fun _ => .pure _

theorem settles_doFileWr : Settles (Owing entry) cfg.doFileWr :=
  settles_choose.bind fun _ => settles_wrPiece.rounds _

theorem settles_pruneChunks : Settles (Owing entry) cfg.pruneChunks :=
  settles_choose.bind fun _ => .rounds (settles_findChunkInFile.bind fun _ =>
    settles_chunkDel.onlyIf.bind fun _ => .pure _) _

theorem settles_resizeFileDown : Settles (Owing entry) cfg.resizeFileDown := by
  refine settles_pruneChunks.bind fun _ => settles_condition.bind fun _ => .onlyIf ?_
  exact .borrow lends_getTempBuffer fun _ => .after settles_rdDataObj fun _ =>
    .after settles_wrDataObj fun _ => clears_releaseTempBuffer

theorem settles_handleHole : Settles (Owing entry) cfg.handleHole := by
  have fill : Settles (Owing entry) (do
      cfg.doFileWr
      condition) :=
    settles_doFileWr.bind fun _ => settles_condition
  refine settles_condition.bind fun _ => .onlyIf <| settles_condition.bind fun _ =>
    .bind (.onlyIf ?small) fun _ => settles_condition.bind fun _ => settles_header.onlyIf
  exact .borrow lends_getTempBuffer fun _ => .after settles_choose fun _ =>
    .after (fill.rounds _) fun _ => clears_releaseTempBuffer.bind fun _ =>
      settles_condition.bind fun _ => settles_resizeFileDown.onlyIf

theorem settles_resizeFile : Settles (Owing entry) cfg.resizeFile := by
  have header : Settles (Owing entry) (do
      let header ← condition
      onlyIf header do
        let _ ← cfg.updateOh
        return ()) :=
    settles_condition.bind fun _ => settles_header.onlyIf
  exact settles_flushFileCache.bind fun _ => settles_checkGc.bind fun _ =>
    settles_condition.bind fun _ => .onlyIf <| settles_condition.bind fun _ =>
      .ite (settles_handleHole.bind fun _ => header) (settles_resizeFileDown.bind fun _ => header)

theorem settles_wrFile : Settles (Owing entry) cfg.wrFile :=
  settles_handleHole.bind fun _ => settles_doFileWr

theorem settles_flushFile : Settles (Owing entry) cfg.flushFile :=
  settles_condition.bind fun _ => .onlyIf <| settles_flushFileCache.bind fun _ =>
    settles_condition.bind fun _ => settles_header.onlyIf

/-! ## Attributes -/

variable (cfg) in
/-- Look an attribute up in the header of an object. -/
def doXattribFetch : TempCall Unit := do
  let search ← condition
  onlyIf search do
    let buffer ← getTempBuffer
    let _ ← cfg.rdChunkTagsNand true
    releaseTempBuffer buffer

variable (cfg) in
/-- Change an attribute with a new header. -/
def doXattribMod : TempCall Unit := do
  let _ ← cfg.updateOh
  return ()

theorem settles_doXattribFetch : Settles (Owing entry) cfg.doXattribFetch :=
  settles_condition.bind fun _ => settles_peek.onlyIf

/-! ## The scan -/

variable (cfg) in
/-- Change the type of an object. -/
def retypeObj : TempCall Unit := do
  let isFile ← condition
  if isFile then cfg.resizeFile else do
    let children ← choose
    rounds children do
      cfg.addObjToDir
      return true

variable (cfg) in
/-- Enter a data page that the scan has found. -/
def scanDataChunk : TempCall Bool := do
  let created ← condition
  let inside ← condition
  if created && inside then cfg.putChunkInFile (-1) else do
    onlyIf created cfg.chunkDel
    return created

variable (cfg) in
/-- Enter an object header that the scan has found. -/
def scanHeaderChunk : TempCall Bool := do
  let readHeader ← condition
  onlyIf readHeader do
    let _ ← cfg.rdChunkTagsNand true
    return ()
  let created ← condition
  if created then do
    let duplicate ← condition
    onlyIf duplicate cfg.chunkDel
    let badType ← condition
    onlyIf badType cfg.retypeObj
    let shadows ← condition
    onlyIf shadows cfg.addObjToDir
    let load ← condition
    onlyIf load cfg.addObjToDir
    condition
  else
    return false

variable (cfg) in
/-- Scan one page. -/
def scanChunk (summaryAvailable : Bool) : TempCall Bool := do
  let inSummary ← condition
  onlyIf (!(summaryAvailable && inSummary)) do
    let _ ← cfg.rdChunkTagsNand false
    return ()
  let good ← condition
  let isData ← condition
  if good then
    if isData then cfg.scanDataChunk else cfg.scanHeaderChunk
  else
    return true

variable (cfg) in
/-- Scan one block: is the scan to go on? -/
def scanBlock : TempCall Bool := do
  let summaryAvailable ← cfg.summaryRead
  rounds cfg.chunksPerBlock do
    let ok ← cfg.scanChunk summaryAvailable
    let unfinished ← condition
    return ok && unfinished
  let dirty ← condition
  onlyIf dirty cfg.blockBecameDirty
  condition

variable (cfg) in
/-- Mount a device of the second kind without a checkpoint.  One buffer serves the whole scan. -/
def scanBackwards : TempCall Unit := do
  let chunkData ← getTempBuffer
  let blocks ← choose
  rounds blocks do
    cfg.queryInitBlockState
    return true
  let toScan ← choose
  rounds toScan cfg.scanBlock
  releaseTempBuffer chunkData

theorem settles_retypeObj : Settles (Owing entry) cfg.retypeObj :=
  settles_condition.bind fun _ => settles_resizeFile.ite <| settles_choose.bind fun _ =>
    .rounds (settles_addObjToDir.bind fun _ => .pure _) _

theorem settles_scanDataChunk : Settles (Owing entry) cfg.scanDataChunk :=
  settles_condition.bind fun _ => settles_condition.bind fun _ =>
    (settles_putChunkInFile (-1)).ite (settles_chunkDel.onlyIf.bind fun _ => .pure _)

theorem settles_scanHeaderChunk : Settles (Owing entry) cfg.scanHeaderChunk := by
  refine settles_condition.bind fun _ => .bind (.onlyIf ((settles_rdChunkTagsNand true).bind
    fun _ => .pure _)) fun _ => settles_condition.bind fun _ => .ite ?_ (.pure _)
  exact settles_condition.bind fun _ => settles_chunkDel.onlyIf.bind fun _ =>
    settles_condition.bind fun _ => settles_retypeObj.onlyIf.bind fun _ =>
    settles_condition.bind fun _ => settles_addObjToDir.onlyIf.bind fun _ =>
    settles_condition.bind fun _ => settles_addObjToDir.onlyIf.bind fun _ => settles_condition

theorem settles_scanChunk (summaryAvailable : Bool) :
    Settles (Owing entry) (cfg.scanChunk summaryAvailable) :=
  settles_condition.bind fun _ => .bind (.onlyIf ((settles_rdChunkTagsNand false).bind
    fun _ => .pure _)) fun _ => settles_condition.bind fun _ => settles_condition.bind fun _ =>
      .ite (settles_scanDataChunk.ite settles_scanHeaderChunk) (.pure _)

theorem settles_scanBlock : Settles (Owing entry) cfg.scanBlock := by
  refine settles_summaryRead.bind fun summaryAvailable => .bind (.rounds ?_ _) fun _ =>
    settles_condition.bind fun _ => settles_blockBecameDirty.onlyIf.bind fun _ => settles_condition
  exact (settles_scanChunk summaryAvailable).bind fun _ => settles_condition.bind fun _ => .pure _

theorem settles_scanBackwards : Settles (Owing entry) cfg.scanBackwards :=
  .borrow lends_getTempBuffer fun _ => .after settles_choose fun _ =>
    .after (.rounds (settles_queryInitBlockState.bind fun _ => .pure _) _) fun _ =>
    .after settles_choose fun _ => .after (settles_scanBlock.rounds _) fun _ => clears_releaseTempBuffer

end TempConfig

/-! ## Calls -/

/-- A call that takes temporary buffers. -/
inductive TempOp
  | fileRd
  | wrFile
  | resizeFile
  | flushFile
  | updateOh
  | changeObjName
  | findByName
  | getObjName
  | checkObjDetailsLoaded
  | doXattribFetch
  | doXattribMod
  | checkGc
  | genericObjDel
  | scanBackwards
  | summaryRead
  | summaryWrite
  | chunkDel
  | retireBlock
deriving DecidableEq

/-- The function that is called. -/
def TempOp.body (cfg : TempConfig) : TempOp → TempCall Unit
  | fileRd => cfg.fileRd
  | wrFile => cfg.wrFile
  | resizeFile => cfg.resizeFile
  | flushFile => cfg.flushFile
  | updateOh => do
    let _ ← cfg.updateOh
    return ()
  | changeObjName => cfg.changeObjNameWith cfg.checkGc
  | findByName => cfg.findByName
  | getObjName => cfg.getObjName
  | checkObjDetailsLoaded => cfg.checkObjDetailsLoaded
  | doXattribFetch => cfg.doXattribFetch
  | doXattribMod => cfg.doXattribMod
  | checkGc => cfg.checkGc
  | genericObjDel => cfg.genericObjDelWith cfg.checkGc
  | scanBackwards => cfg.scanBackwards
  | summaryRead => do
    let _ ← cfg.summaryRead
    return ()
  | summaryWrite => TempConfig.summaryWrite
  | chunkDel => cfg.chunkDel
  | retireBlock => TempConfig.retireBlock

open TempConfig in
theorem TempOp.settles_body (cfg : TempConfig) {entry : TempPool} (op : TempOp) :
    Settles (Owing entry) (op.body cfg) := by
  cases op with
  | fileRd => exact settles_fileRd
  | wrFile => exact settles_wrFile
  | resizeFile => exact settles_resizeFile
  | flushFile => exact settles_flushFile
  | updateOh => exact settles_header
  | changeObjName => exact settles_changeObjNameWith settles_checkGc
  | findByName => exact settles_findByName
  | getObjName => exact settles_getObjName
  | checkObjDetailsLoaded => exact settles_checkObjDetailsLoaded
  | doXattribFetch => exact settles_doXattribFetch
  | doXattribMod => exact settles_header
  | checkGc => exact settles_checkGc
  | genericObjDel => exact settles_genericObjDelWith settles_checkGc
  | scanBackwards => exact settles_scanBackwards
  | summaryRead => exact settles_summaryRead.bind fun _ => .pure _
  | summaryWrite => exact settles_summaryWrite
  | chunkDel => exact settles_chunkDel
  | retireBlock => exact settles_retireBlock

/-- State after a call that begins with the given buffers in use. -/
def TempOp.call (cfg : TempConfig) (op : TempOp) (entry : TempPool) (choices : Nat → Nat) : TempState :=
  (op.body cfg { toTempPool := entry, entry, choices }).2

/-- The buffers are as they were, and none has been handed out twice. -/
structure TempState.Restored (entry : TempPool) (after : TempState) : Prop where
  tempInUse : after.tempInUse = entry.tempInUse
  inUse : after.inUse = entry.inUse
  once : after.doubled = false

namespace TempOp

variable (cfg : TempConfig) (op : TempOp) (entry : TempPool) (choices : Nat → Nat)

/-- At the end of a call all is released but what was lost. -/
theorem owing_call : Owing entry [] (op.call cfg entry choices) := by
  refine op.settles_body cfg [] _ ⟨rfl, [], ?_⟩
  exact
    { held := .refl _
      apart := List.nodup_nil
      fresh := nofun
      taken := fun _ outside => outside.elim nofun id
      flagged := fun _ used => .inr used
      counted := (Int.add_zero _).symm
      explained := rfl
      once := rfl }

/-- A call restores the buffers exactly if no read has failed that its caller returns from early. -/
theorem restored_iff :
    (op.call cfg entry choices).Restored entry ↔
      ∀ answer ∈ (op.call cfg entry choices).answers, ¬answer.Loses := by
  obtain ⟨same, lost, owing⟩ := owing_call cfg op entry choices
  have counted := owing.counted
  rw [same, List.nil_append] at counted
  have explained : lost.length = 0 ↔ ∀ answer ∈ (op.call cfg entry choices).answers, ¬answer.Loses := by
    rw [owing.explained, List.countP_eq_zero]
    simp
  rw [← explained]
  constructor
  · intro restored
    have unchanged := restored.tempInUse
    omega
  · intro none
    obtain rfl := List.length_eq_zero_iff.mp none
    have counted : (op.call cfg entry choices).tempInUse = entry.tempInUse := by omega
    refine ⟨counted, ?_, owing.once⟩
    funext index
    have taken := owing.taken (.managed index)
    have flagged := owing.flagged index
    simp only [List.append_nil, List.not_mem_nil, false_or, same] at taken flagged
    exact Bool.eq_iff_iff.mpr ⟨flagged, taken⟩

/-- A device of the second kind with inband tags and the tags handler of the file system. -/
def inbandConfig : TempConfig where
  tagger := .marshall
  isYaffs2 := true
  inbandTags := true
  summaries := true
  chunksPerBlock := 64
  chunkGrpSize := 1
  nCaches := 10
  cacheBypassAligned := false
  alwaysCheckErased := true
  traceErase := false
  traceVerify := false
  traceVerifyFull := false
  traceVerifyNand := false

/-- The header of a lazily loaded object cannot be read, and the first page of a block cannot be read
for its tags: each time the call keeps a buffer. -/
theorem not_restored_failed_reads :
    ¬(checkObjDetailsLoaded.call inbandConfig {} fun index => if index = 0 then 1 else 0).Restored {} ∧
      ¬(scanBackwards.call inbandConfig {} fun index => if index ≤ 1 then 1 else 0).Restored {} := by
  constructor
  · intro restored
    exact absurd restored.tempInUse (by decide +kernel)
  · intro restored
    exact absurd restored.tempInUse (by decide +kernel)

end TempOp

end Yaffs
