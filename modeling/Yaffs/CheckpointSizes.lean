import Yaffs.CheckpointPages

/-!
# The size of a checkpoint

How many pages and blocks a stream of so many bytes takes.  The writer flushes a page as soon as it
is full, and once more when the stream is closed, whether there is anything left in the buffer or
not.
-/

namespace Yaffs

namespace Dev

variable {Flash : Type} (T : Tagger Flash)

/-! ## Opening the stream -/

/-- The device with an empty record of the pages it programs. -/
def recorded (dev : Dev Flash) : Dev (Flash × List Written) :=
  { dev with flash := (dev.flash, []) }

/-- Erasing programs no page, and never has fewer erased blocks. -/
theorem checkptErase_record (dev : Dev (Flash × List Written)) :
    (dev.checkptErase T.recording).flash.2 = dev.flash.2 ∧
      dev.nErasedBlocks ≤ (dev.checkptErase T.recording).nErasedBlocks := by
  have block (dev : Dev (Flash × List Written)) (block : Nat) :
      (dev.checkptEraseBlock T.recording block).flash.2 = dev.flash.2 ∧
        dev.nErasedBlocks ≤ (dev.checkptEraseBlock T.recording block).nErasedBlocks := by
    simp only [checkptEraseBlock]
    split
    case isFalse => exact ⟨rfl, le_refl _⟩
    case isTrue =>
      split
      · exact ⟨rfl, (lt_add_one dev.nErasedBlocks).le⟩
      · exact ⟨rfl, le_refl _⟩
  have all (blocks : List Nat) : ∀ dev : Dev (Flash × List Written),
      (dev.checkptEraseBlocks T.recording blocks).flash.2 = dev.flash.2 ∧
        dev.nErasedBlocks ≤ (dev.checkptEraseBlocks T.recording blocks).nErasedBlocks := by
    induction blocks with
    | nil => exact fun dev => ⟨rfl, le_refl _⟩
    | cons first rest ih =>
      intro dev
      rw [checkptEraseBlocks_cons]
      obtain ⟨record, erased⟩ := ih (dev.checkptEraseBlock T.recording first)
      exact ⟨record.trans (block dev first).1, (block dev first).2.trans erased⟩
  rw [checkptErase_eq]
  exact all dev.blockList dev

/-- The geometry of a device: there are data behind the header of a page, and pages in a block. -/
structure Geometry (dev : Dev Flash) : Prop where
  header : checkptChunkHdrSize < dev.dataBytesPerChunk
  total : dev.dataBytesPerChunk ≤ dev.param.totalBytesPerChunk
  positive : 0 < dev.param.chunksPerBlock
  /-- The numbers of pages are kept in an `int`. -/
  bounded : (dev.internalEndBlock + 1) * dev.param.chunksPerBlock < 2 ^ 31

/-- The device with an empty first page, before the old checkpoint is erased. -/
def started (dev : Dev Flash) : Dev Flash :=
  { dev with checkptOpenWrite := true }.checkptRewind.clearCheckptBuffer.checkptInitChunkHdr

variable {T}

/-- Opening starts the first page and erases the old checkpoint, if there is space. -/
theorem checkptOpen_erases {Flash : Type} {T : Tagger Flash} (dev : Dev Flash)
    (opens : (dev.checkptOpen T true).1 = true) :
    0 < dev.nErasedBlocks - dev.param.nReservedBlocks ∧
      (dev.checkptOpen T true).2 = dev.started.checkptErase T := by
  by_cases space : ({ dev with checkptOpenWrite := true } : Dev Flash).checkptSpaceOk
  · refine ⟨of_decide_eq_true space, ?_⟩
    simp [checkptOpen, space, started]
  · have refused : (dev.checkptOpen T true).1 = false := by
      simp [checkptOpen, space]
    rw [refused] at opens
    cases opens

/-- Opening leaves the layout of the device as it is. -/
theorem checkptOpen_layout {Flash : Type} {T : Tagger Flash} (dev : Dev Flash)
    (opens : (dev.checkptOpen T true).1 = true) :
    (dev.checkptOpen T true).2.param = dev.param ∧
      (dev.checkptOpen T true).2.dataBytesPerChunk = dev.dataBytesPerChunk ∧
      (dev.checkptOpen T true).2.internalStartBlock = dev.internalStartBlock ∧
      (dev.checkptOpen T true).2.internalEndBlock = dev.internalEndBlock := by
  obtain ⟨-, opened⟩ := checkptOpen_erases dev opens
  obtain ⟨flash, log, blockInfo, nErased, nFree, eq⟩ := dev.started.checkptErase_frame T
  rw [opened, eq]
  exact ⟨rfl, rfl, rfl, rfl⟩

/-- A stream that has been opened for writing. -/
theorem ready_of_open {dev : Dev (Flash × List Written)} (geometry : Geometry dev)
    (record : dev.flash.2 = []) (opens : (dev.checkptOpen T.recording true).1 = true) :
    NewStream (dev.checkptOpen T.recording true).2 := by
  obtain ⟨space, opened⟩ := checkptOpen_erases dev opens
  obtain ⟨erase_record, more⟩ := checkptErase_record T dev.started
  obtain ⟨flash, log, blockInfo, nErased, nFree, eq⟩ := dev.started.checkptErase_frame T.recording
  rw [opened]
  refine
    { header := by rw [eq]; exact geometry.header
      positive := by rw [eq]; exact geometry.positive
      space := ?_
      writing := by rw [eq]; rfl
      buffer := ?_
      pageSeq := by rw [eq]; rfl
      curBlock := by rw [eq]; rfl
      nextBlock := by rw [eq]; rfl
      byteOffs := by rw [eq]; rfl
      blocks := by rw [eq]
      record := erase_record.trans record }
  · have reserved : (dev.started.checkptErase T.recording).param = dev.param := by
      rw [eq]
      rfl
    have erased : dev.nErasedBlocks ≤ (dev.started.checkptErase T.recording).nErasedBlocks := more
    rw [reserved]
    omega
  · rw [eq]
    exact ⟨_, rfl, word_store_header checkpointVersion 0 [0, 0] _⟩

/-! ## Writing and closing -/

variable (T) in
/-- Write memory to the stream, one call after the other. -/
def wrCalls (calls : List ((Dev Flash → Nat → UInt8) × Nat)) (dev : Dev Flash) : Dev Flash :=
  calls.foldl (fun dev call => (dev.checkptWr T call.1 call.2).2) dev

/-- Number of bytes that calls write. -/
def callBytes {Data : Type} (calls : List (Data × Nat)) : Nat := (calls.map Prod.snd).sum

variable {opened : Dev (Flash × List Written)}

theorem feed_concat (bytes : List UInt8) (byte : UInt8) (dev : Dev Flash) :
    feed T (bytes ++ [byte]) dev = ((feed T bytes dev).checkptWrByte T byte).2 := by
  rw [feed, List.foldl_append]
  rfl

/-- The stream goes on as long as there is room for its pages. -/
theorem filling_of_room (ready : NewStream opened) {bytes : List UInt8}
    (enough : bytes.length / opened.payload ≤ opened.room) :
    Filling opened (feed T.recording bytes opened) bytes := by
  rcases filling_or_lost (T := T) ready bytes with filling | lost
  · exact filling
  · exact absurd lost.bytes (not_lt.mpr enough)

theorem wrByte_of_room (ready : NewStream opened) {bytes : List UInt8} (byte : UInt8)
    (enough : (bytes.length + 1) / opened.payload ≤ opened.room) :
    ((feed T.recording bytes opened).checkptWrByte T.recording byte).1 = true := by
  have filling : Filling opened (feed T.recording bytes opened) bytes :=
    filling_of_room ready ((Nat.div_le_div_right (Nat.le_succ _)).trans enough)
  rcases filling.wrByte ready byte with ⟨done, -⟩ | ⟨-, lost⟩
  · exact done
  · have beyond := lost.bytes
    rw [List.length_append, List.length_singleton] at beyond
    omega

theorem wrLoop_fed (ready : NewStream opened) (data : Dev (Flash × List Written) → Nat → UInt8)
    (left : Nat) : ∀ (written : Nat) (bytes : List UInt8),
      (bytes.length + left) / opened.payload ≤ opened.room →
      ∃ more : List UInt8, more.length = left ∧
        (checkptWrLoop T.recording data left written (feed T.recording bytes opened)).2 =
          feed T.recording (bytes ++ more) opened := by
  induction left with
  | zero =>
    intro written bytes _
    exact ⟨[], rfl, by rw [List.append_nil]; rfl⟩
  | succ left ih =>
    intro written bytes enough
    let byte := data (feed T.recording bytes opened) written
    have fits : (bytes.length + 1) / opened.payload ≤ opened.room :=
      (Nat.div_le_div_right (by omega)).trans enough
    have length : (bytes ++ [byte]).length = bytes.length + 1 := by
      rw [List.length_append, List.length_singleton]
    have enough' : ((bytes ++ [byte]).length + left) / opened.payload ≤ opened.room := by
      rw [length, Nat.add_assoc, Nat.add_comm 1 left]
      exact enough
    obtain ⟨more, more_length, eq⟩ := ih (written + 1) (bytes ++ [byte]) enough'
    refine ⟨byte :: more, by rw [List.length_cons, more_length], ?_⟩
    simp only [checkptWrLoop]
    rw [if_pos (wrByte_of_room ready byte fits), ← feed_concat, eq, List.append_assoc]
    rfl

/-- As long as there is room, all bytes of all calls go to the stream. -/
theorem wrCalls_fed (ready : NewStream opened)
    (calls : List ((Dev (Flash × List Written) → Nat → UInt8) × Nat)) :
    ∀ bytes : List UInt8, (bytes.length + callBytes calls) / opened.payload ≤ opened.room →
      ∃ more : List UInt8, more.length = callBytes calls ∧
        wrCalls T.recording calls (feed T.recording bytes opened) =
          feed T.recording (bytes ++ more) opened := by
  induction calls with
  | nil => exact fun bytes _ => ⟨[], rfl, by rw [List.append_nil]; rfl⟩
  | cons call calls ih =>
    intro bytes enough
    have total : callBytes (call :: calls) = call.2 + callBytes calls := List.sum_cons
    rw [total] at enough
    have fits : (bytes.length + call.2) / opened.payload ≤ opened.room :=
      (Nat.div_le_div_right (by omega)).trans enough
    obtain ⟨first, first_length, first_eq⟩ := wrLoop_fed (T := T) ready call.1 call.2 0 bytes fits
    have filling : Filling opened (feed T.recording bytes opened) bytes :=
      filling_of_room ready ((Nat.div_le_div_right (by omega)).trans fits)
    have wrote : ((feed T.recording bytes opened).checkptWr T.recording call.1 call.2).2 =
        feed T.recording (bytes ++ first) opened := by
      obtain ⟨buffer, buffer_eq, -⟩ := filling.buffer
      obtain ⟨next, progress⟩ := filling.progress
      have writing := progress.writing.trans ready.writing
      simp only [checkptWr, buffer_eq, writing]
      exact first_eq
    have enough' : ((bytes ++ first).length + callBytes calls) / opened.payload ≤ opened.room := by
      rw [List.length_append, first_length, Nat.add_assoc]
      exact enough
    obtain ⟨more, more_length, eq⟩ := ih (bytes ++ first) enough'
    refine ⟨first ++ more, by rw [List.length_append, first_length, more_length, total], ?_⟩
    rw [← List.append_assoc, ← eq, ← wrote]
    rfl

/-- What the device knows of a stream that it has written and closed. -/
structure Saved (opened closed : Dev (Flash × List Written)) (bytes : List UInt8) (pages : Nat) :
    Prop where
  param : closed.param = opened.param
  data : closed.dataBytesPerChunk = opened.dataBytesPerChunk
  startBlock : closed.internalStartBlock = opened.internalStartBlock
  endBlock : closed.internalEndBlock = opened.internalEndBlock
  offset : closed.chunkOffset = opened.chunkOffset
  swap : closed.swapEndian = opened.swapEndian
  buffer : closed.checkptBuffer.isSome
  count : closed.flash.2.length = pages
  numbered : ∀ i written, closed.flash.2.reverse[i]? = some written →
    written.tags.chunkId = i + 1
  sequence : ∀ written ∈ closed.flash.2, written.tags.seqNumber = sequenceCheckpointData
  chain : opened.Chain closed.flash.2
  carried : Carried opened closed bytes
  blocks : closed.blocksInCheckpt = pages ⌈/⌉ opened.param.chunksPerBlock

/-- Closing flushes the buffer. -/
theorem checkptClose_eq {Flash : Type} {T : Tagger Flash} {dev : Dev Flash}
    (writing : dev.checkptOpenWrite = true) (behind : checkptChunkHdrSize ≤ dev.checkptByteOffs) :
    let flushed := (dev.checkptFlushBuffer T).2
    dev.checkptClose T = (flushed.checkptBuffer.isSome,
      { flushed with
        nFreeChunks := flushed.nFreeChunks - flushed.blocksInCheckpt * flushed.param.chunksPerBlock
        nErasedBlocks := flushed.nErasedBlocks - flushed.blocksInCheckpt }) := by
  have unflushed : dev.checkptByteOffs ≠ checkptChunkHdrSizeSize := by
    rw [checkptChunkHdrSize] at behind
    rw [checkptChunkHdrSizeSize]
    omega
  have finish : dev.checkptFinish T = (dev.checkptFlushBuffer T).2 := by
    rw [checkptFinish, if_pos writing, if_pos unflushed]
  simp only [checkptClose, finish]

/-- Closing writes one page more, if there is room for it. -/
theorem Filling.close {dev : Dev (Flash × List Written)} {bytes : List UInt8}
    (filling : Filling opened dev bytes) (ready : NewStream opened) :
    (dev.checkptClose T.recording).1 = true ∧
      Saved opened (dev.checkptClose T.recording).2 bytes
        (min (bytes.length / opened.payload + 1) opened.room) := by
  obtain ⟨next, progress⟩ := filling.progress
  obtain ⟨buffer, buffer_eq, holds⟩ := filling.buffer
  have writing := progress.writing.trans ready.writing
  have closes := checkptClose_eq (T := T.recording) writing (by
    rw [filling.byteOffs]
    exact Nat.le_add_right _ _)
  rw [closes]
  obtain ⟨has_room, at_page, next', done, after, data, flash, -⟩ | ⟨full, failed⟩ :=
    progress.flush (T := T) ready.positive ready.space
  · rw [done, Nat.min_eq_left has_room]
    obtain ⟨fresh, fresh_eq, -⟩ := afterPage_buffer (T := T) (data.trans buffer_eq)
    have some_buffer : (afterPage T at_page).checkptBuffer.isSome = true := by
      rw [fresh_eq]
      rfl
    refine ⟨some_buffer, after.param, after.data, after.startBlock, after.endBlock, after.offset,
      after.swap, some_buffer, after.count, after.numbered, after.sequence, after.chain,
        ?_, after.taken⟩
    refine filling.carried.page flash (data.trans buffer_eq) ?_
    rw [progress.count]
    exact holds
  · rw [failed, full, Nat.min_eq_right (Nat.le_succ _)]
    have some_buffer : dev.checkptBuffer.isSome = true := by
      rw [buffer_eq]
      rfl
    exact ⟨some_buffer, progress.param, progress.data, progress.startBlock, progress.endBlock,
      progress.offset, progress.swap, some_buffer, progress.count, progress.numbered,
      progress.sequence, progress.chain, filling.carried, progress.taken⟩

end Dev

end Yaffs
