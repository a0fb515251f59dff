import Yaffs.TempBuffers

/-!
# Calls that take temporary buffers

Page reads and writes, blocks, and the functions above them, each with what it takes, releases and
calls.  Erasing and marking blocks needs no buffer and is left out.
-/

namespace Yaffs

open Borrowing TempCall

/-- The functions that read and write pages with their tags. -/
inductive TagsHandler
  /-- Installed for a device of the first kind. -/
  | compat
  /-- Installed for a device of the second kind. -/
  | marshall
  /-- Supplied with the driver of the board. -/
  | board
deriving DecidableEq

/-- Settings that decide which functions take buffers. -/
structure TempConfig where
  tagger : TagsHandler
  isYaffs2 : Bool
  inbandTags : Bool
  summaries : Bool
  chunksPerBlock : Nat
  chunkGrpSize : Nat
  nCaches : Nat
  cacheBypassAligned : Bool
  alwaysCheckErased : Bool
  /-- Flags of the trace mask. -/
  traceErase : Bool
  traceVerify : Bool
  traceVerifyFull : Bool
  traceVerifyNand : Bool

namespace TempConfig

variable (cfg : TempConfig)

/-- Neither kind of verification is asked for. -/
def skipVerification : Bool := !(cfg.traceVerify || cfg.traceVerifyFull)

/-! ## Pages -/

/-- Have the driver read a page.  With inband tags and no data buffer of the caller, the page is read
into a temporary one, which is not released when the read fails. -/
def tagsMarshallRead (data : Bool) : TempCall Bool :=
  if cfg.inbandTags && !data then do
    let buffer ← getTempBuffer
    let ok ← condition
    note (.driver true ok)
    if ok then do
      releaseTempBuffer buffer
      -- The result of the ECC check.
      condition
    else
      return false
  else do
    let ok ← condition
    note (.driver false ok)
    if ok then condition else return false

/-- The read function of the board. -/
def boardReadChunk (data : Bool) : TempCall Bool :=
  if cfg.inbandTags && !data then do
    let buffer ← getTempBuffer
    let ok ← condition
    releaseTempBuffer buffer
    return ok
  else
    condition

/-- Read a page, with its data or for its tags only. -/
def rdChunkTagsNand (data : Bool) : TempCall Bool :=
  match cfg.tagger with
  | .compat => condition
  | .marshall => cfg.tagsMarshallRead data
  | .board => cfg.boardReadChunk data

/-- State of a block, from the tags of its first page. -/
def queryInitBlockState : TempCall Unit := do
  let good ← condition
  if good then do
    let _ ← cfg.rdChunkTagsNand false
    return ()
  else
    return ()

/-- Write a page.  No handler needs a buffer for it. -/
def writeChunkTags : TempCall Bool := condition

/-- Write the summary of a block.  Its pages lie behind those it covers, so that they are not entered
in a summary themselves. -/
def summaryWrite : TempCall Unit := do
  let buffer ← getTempBuffer
  let pages ← choose
  rounds pages writeChunkTags
  releaseTempBuffer buffer

/-- Enter a page in the summary, and write the summary after the last. -/
def summaryAdd : TempCall Unit := do
  let last ← condition
  onlyIf (cfg.summaries && last) summaryWrite

/-- Write a page with its tags. -/
def wrChunkTagsNand : TempCall Bool := do
  let ok ← writeChunkTags
  cfg.summaryAdd
  return ok

/-- Read the summary of a block. -/
def summaryRead : TempCall Bool := do
  let buffer ← getTempBuffer
  let pages ← choose
  rounds pages do
    let ok ← cfg.rdChunkTagsNand true
    let good ← condition
    return ok && good
  releaseTempBuffer buffer
  condition

/-- Is a page erased? -/
def checkChunkErased : TempCall Bool := do
  let data ← getTempBuffer
  let ok ← cfg.rdChunkTagsNand true
  let unused ← condition
  releaseTempBuffer data
  return ok && unused

/-- Does a page hold what was written? -/
def verifyChunkWritten : TempCall Bool := do
  let buffer ← getTempBuffer
  let ok ← cfg.rdChunkTagsNand true
  let same ← condition
  releaseTempBuffer buffer
  return ok && same

variable {cfg} {entry : TempPool}

theorem settles_tagsMarshallRead (data : Bool) :
    Settles (Owing entry) (cfg.tagsMarshallRead data) := by
  refine .ite (.borrow lends_getTempBuffer fun buffer => .after settles_condition fun ok => ?_)
    (settles_condition.bind fun ok => .bind (settles_note (by simp [ReadAnswer.Loses]))
      fun _ => settles_condition.ite (.pure _))
  cases ok with
  | true =>
    exact .after (settles_note (by simp [ReadAnswer.Loses])) fun _ =>
      clears_releaseTempBuffer.bind fun _ => settles_condition
  | false => exact .bind (clears_note ⟨rfl, rfl⟩) fun _ => .pure _

theorem settles_boardReadChunk (data : Bool) : Settles (Owing entry) (cfg.boardReadChunk data) :=
  .ite (.borrow lends_getTempBuffer fun _ => .after settles_condition fun _ =>
    clears_releaseTempBuffer.bind fun _ => .pure _) settles_condition

theorem settles_rdChunkTagsNand (data : Bool) :
    Settles (Owing entry) (cfg.rdChunkTagsNand data) := by
  rw [rdChunkTagsNand]
  cases cfg.tagger with
  | compat => exact settles_condition
  | marshall => exact settles_tagsMarshallRead data
  | board => exact settles_boardReadChunk data

theorem settles_queryInitBlockState : Settles (Owing entry) cfg.queryInitBlockState :=
  settles_condition.bind fun _ =>
    .ite ((settles_rdChunkTagsNand false).bind fun _ => .pure _) (.pure _)

theorem settles_summaryWrite : Settles (Owing entry) summaryWrite :=
  .borrow lends_getTempBuffer fun _ => .after settles_choose fun pages =>
    .after (.rounds settles_condition pages) fun _ => clears_releaseTempBuffer

theorem settles_wrChunkTagsNand : Settles (Owing entry) cfg.wrChunkTagsNand :=
  settles_condition.bind fun _ =>
    .bind (settles_condition.bind fun _ => settles_summaryWrite.onlyIf) fun _ => .pure _

theorem settles_summaryRead : Settles (Owing entry) cfg.summaryRead := by
  refine .borrow lends_getTempBuffer fun _ => .after settles_choose fun pages =>
    .after (.rounds ?page pages) fun _ => clears_releaseTempBuffer.bind fun _ => settles_condition
  exact (settles_rdChunkTagsNand true).bind fun _ => settles_condition.bind fun _ => .pure _

/-- Read a page into a buffer, look at it and release the buffer. -/
theorem clears_look {buffer : TempBuffer} {look : Bool → Bool → Bool} :
    Clears (Owing entry) buffer (do
      let ok ← cfg.rdChunkTagsNand true
      let good ← condition
      releaseTempBuffer buffer
      return look ok good) :=
  .after (settles_rdChunkTagsNand true) fun _ => .after settles_condition fun _ =>
    clears_releaseTempBuffer.bind fun _ => .pure _

theorem settles_checkChunkErased : Settles (Owing entry) cfg.checkChunkErased :=
  .borrow lends_getTempBuffer fun _ => clears_look

theorem settles_verifyChunkWritten : Settles (Owing entry) cfg.verifyChunkWritten :=
  .borrow lends_getTempBuffer fun _ => clears_look

/-! ## Blocks -/

/-- Take a block out of use for good.  When it cannot be marked bad, it is erased and a marker is
written to its first page. -/
def retireBlock : TempCall Unit := do
  let marked ← condition
  if marked then return () else do
    let erased ← condition
    if erased then do
      let buffer ← getTempBuffer
      let _ ← writeChunkTags
      releaseTempBuffer buffer
    else
      return ()

variable (cfg) in
/-- Erase a block without pages in use, or retire it. -/
def blockBecameDirty : TempCall Unit := do
  let needsRetiring ← condition
  let erased ← condition
  if !needsRetiring && erased then
    onlyIf (cfg.traceErase || !cfg.skipVerification) <|
      rounds cfg.chunksPerBlock do
        let _ ← cfg.checkChunkErased
        return true
  else
    retireBlock

variable (cfg) in
/-- Delete a page. -/
def chunkDel : TempCall Unit := do
  let valid ← condition
  onlyIf valid do
    let collecting ← condition
    onlyIf (!cfg.isYaffs2 && !collecting) do
      let _ ← cfg.wrChunkTagsNand
      return ()
    let dirty ← condition
    onlyIf dirty cfg.blockBecameDirty

variable (cfg) in
/-- One attempt to write a new page: is another one to be made? -/
def tryChunk : TempCall Bool := do
  let allocated ← condition
  if allocated then do
    let skipErasedCheck ← condition
    let check := cfg.alwaysCheckErased || !skipErasedCheck
    let erased ← (if check then cfg.checkChunkErased else pure true)
    if erased then do
      let wrote ← cfg.wrChunkTagsNand
      let verified ← (if check then cfg.verifyChunkWritten else pure wrote)
      if verified then return false else do
        cfg.chunkDel
        return true
    else do
      cfg.chunkDel
      return true
  else
    return false

variable (cfg) in
/-- Write a new page: is there one? -/
def writeNewChunk : TempCall Bool := do
  let attempts ← choose
  rounds attempts cfg.tryChunk
  condition

theorem settles_retireBlock : Settles (Owing entry) retireBlock := by
  refine settles_condition.bind fun _ => .ite (.pure _) (settles_condition.bind fun _ => .ite ?_ (.pure _))
  exact .borrow lends_getTempBuffer fun _ => .after settles_condition fun _ => clears_releaseTempBuffer

theorem settles_blockBecameDirty : Settles (Owing entry) cfg.blockBecameDirty := by
  refine settles_condition.bind fun _ => settles_condition.bind fun _ => .ite (.onlyIf ?_) settles_retireBlock
  exact .rounds (settles_checkChunkErased.bind fun _ => .pure _) _

theorem settles_chunkDel : Settles (Owing entry) cfg.chunkDel :=
  settles_condition.bind fun _ => .onlyIf <| settles_condition.bind fun _ =>
    .bind (.onlyIf (settles_wrChunkTagsNand.bind fun _ => .pure _)) fun _ =>
      settles_condition.bind fun _ => settles_blockBecameDirty.onlyIf

theorem settles_tryChunk : Settles (Owing entry) cfg.tryChunk := by
  have again : Settles (Owing entry) (do cfg.chunkDel; return true) :=
    settles_chunkDel.bind fun _ => .pure _
  refine settles_condition.bind fun _ => .ite ?allocated (.pure _)
  refine settles_condition.bind fun _ => .bind (settles_checkChunkErased.ite (.pure _)) fun _ =>
    .ite ?erased again
  exact settles_wrChunkTagsNand.bind fun _ =>
    .bind (settles_verifyChunkWritten.ite (.pure _)) fun _ => .ite (.pure _) again

theorem settles_writeNewChunk : Settles (Owing entry) cfg.writeNewChunk :=
  settles_choose.bind fun attempts => .bind (settles_tryChunk.rounds attempts) fun _ => settles_condition

/-! ## Pages of a file -/

variable (cfg) in
/-- Look for a page among those that a tnode entry stands for. -/
def findChunkInGroup : TempCall Bool := do
  rounds cfg.chunkGrpSize do
    let used ← condition
    if used && cfg.chunkGrpSize ≠ 1 then do
      let _ ← cfg.rdChunkTagsNand false
      let tagsMatch ← condition
      return !tagsMatch
    else
      return !used
  condition

variable (cfg) in
/-- Find a page of a file, to read or to delete it. -/
def findChunkInFile : TempCall Bool := do
  let tnode ← condition
  if tnode then cfg.findChunkInGroup else return false

variable (cfg) in
/-- Enter a page in a file.  `inScan` is positive while scanning forward, negative while scanning
backward and zero otherwise. -/
def putChunkInFile (inScan : Int) : TempCall Bool := do
  let isFile ← condition
  if isFile then do
    let tnode ← condition
    let existing ← condition
    if tnode && existing && inScan ≠ 0 then do
      onlyIf (0 < inScan) do
        let _ ← cfg.rdChunkTagsNand false
        let _ ← cfg.findChunkInFile
        return ()
      cfg.chunkDel
      return true
    else
      return tnode
  else do
    cfg.chunkDel
    return true

variable (cfg) in
/-- Read a page of a file. -/
def rdDataObj : TempCall Unit := do
  let found ← cfg.findChunkInFile
  onlyIf found do
    let _ ← cfg.rdChunkTagsNand true
    return ()

theorem settles_findChunkInGroup : Settles (Owing entry) cfg.findChunkInGroup := by
  refine .bind (.rounds ?_ _) fun _ => settles_condition
  exact settles_condition.bind fun _ => .ite
    ((settles_rdChunkTagsNand false).bind fun _ => settles_condition.bind fun _ => .pure _) (.pure _)

theorem settles_findChunkInFile : Settles (Owing entry) cfg.findChunkInFile :=
  settles_condition.bind fun _ => settles_findChunkInGroup.ite (.pure _)

theorem settles_putChunkInFile (inScan : Int) : Settles (Owing entry) (cfg.putChunkInFile inScan) := by
  have deletes : Settles (Owing entry) (do cfg.chunkDel; return true) :=
    settles_chunkDel.bind fun _ => .pure _
  refine settles_condition.bind fun _ => .ite (settles_condition.bind fun _ =>
    settles_condition.bind fun _ => .ite (.bind (.onlyIf ?_) fun _ => deletes) (.pure _)) deletes
  exact (settles_rdChunkTagsNand false).bind fun _ => settles_findChunkInFile.bind fun _ => .pure _

theorem settles_rdDataObj : Settles (Owing entry) cfg.rdDataObj :=
  settles_findChunkInFile.bind fun _ => .onlyIf ((settles_rdChunkTagsNand true).bind fun _ => .pure _)

/-! ## Objects -/

variable (cfg) in
/-- Load what the scan left out of an object.  When its header cannot be read, the buffer is not
released. -/
def checkObjDetailsLoaded : TempCall Unit := do
  let lazyLoaded ← condition
  onlyIf lazyLoaded do
    let buf ← getTempBuffer
    let ok ← cfg.rdChunkTagsNand true
    note (.header ok)
    if ok then releaseTempBuffer buf else return ()

variable (cfg) in
/-- Name of an object. -/
def getObjName : TempCall Unit := do
  cfg.checkObjDetailsLoaded
  let readHeader ← condition
  onlyIf readHeader do
    let buffer ← getTempBuffer
    let _ ← cfg.rdChunkTagsNand true
    releaseTempBuffer buffer

variable (cfg) in
/-- Look for a name among the objects of a directory. -/
def findByName : TempCall Unit := do
  let children ← choose
  rounds children do
    cfg.checkObjDetailsLoaded
    let sumMatches ← condition
    onlyIf sumMatches cfg.getObjName
    let differs ← condition
    return differs

variable (cfg) in
/-- Verify an object against its header, and a file against its pages. -/
def verifyObj : TempCall Unit := do
  let chunkValid ← condition
  onlyIf (chunkValid && cfg.traceVerifyNand) do
    let buffer ← getTempBuffer
    let _ ← cfg.rdChunkTagsNand true
    releaseTempBuffer buffer
  let lastChunk ← choose
  onlyIf cfg.traceVerifyNand <| rounds lastChunk do
    let _ ← cfg.rdChunkTagsNand false
    return true

variable (cfg) in
/-- Verify all objects of a directory. -/
def verifyObjInDir : TempCall Unit := do
  let children ← choose
  onlyIf (!cfg.skipVerification) <| rounds children do
    cfg.verifyObj
    return true

variable (cfg) in
/-- Verify a directory. -/
def verifyDir : TempCall Unit := do
  let children ← choose
  onlyIf cfg.traceVerifyFull <| rounds children do
    cfg.verifyObjInDir
    return true

variable (cfg) in
/-- Take an object out of its directory. -/
def removeObjFromDir : TempCall Unit := do
  cfg.verifyObjInDir
  cfg.verifyDir
  cfg.verifyDir

variable (cfg) in
/-- Move an object to a directory. -/
def addObjToDir : TempCall Unit := do
  cfg.verifyDir
  cfg.removeObjFromDir
  cfg.verifyDir
  cfg.verifyObjInDir

theorem settles_checkObjDetailsLoaded : Settles (Owing entry) cfg.checkObjDetailsLoaded := by
  refine settles_condition.bind fun _ => .onlyIf <| .borrow lends_getTempBuffer fun buf =>
    .after (settles_rdChunkTagsNand true) fun ok => ?_
  cases ok with
  | true => exact .after (settles_note (by simp [ReadAnswer.Loses])) fun _ => clears_releaseTempBuffer
  | false => exact .bind (clears_note rfl) fun _ => .pure _

/-- Read a page into a buffer for a moment. -/
theorem settles_peek : Settles (Owing entry) (do
    let buffer ← getTempBuffer
    let _ ← cfg.rdChunkTagsNand true
    releaseTempBuffer buffer) :=
  .borrow lends_getTempBuffer fun _ => .after (settles_rdChunkTagsNand true) fun _ =>
    clears_releaseTempBuffer

theorem settles_getObjName : Settles (Owing entry) cfg.getObjName :=
  settles_checkObjDetailsLoaded.bind fun _ => settles_condition.bind fun _ => settles_peek.onlyIf

theorem settles_findByName : Settles (Owing entry) cfg.findByName := by
  refine settles_choose.bind fun children => .rounds ?_ children
  exact settles_checkObjDetailsLoaded.bind fun _ => settles_condition.bind fun _ =>
    settles_getObjName.onlyIf.bind fun _ => settles_condition.bind fun _ => .pure _

theorem settles_verifyObj : Settles (Owing entry) cfg.verifyObj :=
  settles_condition.bind fun _ => settles_peek.onlyIf.bind fun _ => settles_choose.bind fun _ =>
    .onlyIf (.rounds ((settles_rdChunkTagsNand false).bind fun _ => .pure _) _)

theorem settles_verifyObjInDir : Settles (Owing entry) cfg.verifyObjInDir :=
  settles_choose.bind fun _ => .onlyIf (.rounds (settles_verifyObj.bind fun _ => .pure _) _)

theorem settles_verifyDir : Settles (Owing entry) cfg.verifyDir :=
  settles_choose.bind fun _ => .onlyIf (.rounds (settles_verifyObjInDir.bind fun _ => .pure _) _)

theorem settles_removeObjFromDir : Settles (Owing entry) cfg.removeObjFromDir :=
  settles_verifyObjInDir.bind fun _ => settles_verifyDir.bind fun _ => settles_verifyDir

theorem settles_addObjToDir : Settles (Owing entry) cfg.addObjToDir :=
  settles_verifyDir.bind fun _ => settles_removeObjFromDir.bind fun _ =>
    settles_verifyDir.bind fun _ => settles_verifyObjInDir

end TempConfig

end Yaffs
