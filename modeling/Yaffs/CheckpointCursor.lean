import Yaffs.CheckpointErasure
import Yaffs.CheckpointRules
import Yaffs.Chunks
import Yaffs.Library.Execution
import Yaffs.RamFlash

/-!
# The cursor of the checkpoint writer

A save that opens the stream writes to blocks it has taken over itself.  A save that is refused
closes the stream all the same, with the cursor that an earlier use of the stream has left behind.
-/

namespace Yaffs

namespace Dev

open Growth

variable {Flash : Type} (T : Tagger Flash) (dev : Dev Flash)

/-! ## Single actions -/

/-- Looking for an erased block ends in one at or after the hint, or gives the cursor up. -/
theorem checkptFindErasedBlock_cases :
    dev.checkptFindErasedBlock = { dev with checkptNextBlock := -1, checkptCurBlock := -1 } ∨
    ∃ block : Nat, 0 ≤ dev.checkptNextBlock ∧ dev.checkptNextBlock ≤ block ∧
      block ≤ dev.internalEndBlock ∧ dev.blockState block = .empty ∧
      dev.checkptFindErasedBlock =
        { dev with checkptNextBlock := block + 1, checkptCurBlock := block } := by
  simp only [checkptFindErasedBlock]
  split
  case h_1 block found =>
    refine .inr ⟨block, ?_⟩
    split at found
    case isTrue bounds =>
      have block_mem := List.mem_of_find?_eq_some found
      have block_empty := List.find?_some found
      simp only [List.mem_range'_1] at block_mem
      simp only [decide_eq_true_eq] at block_empty
      exact ⟨bounds.1, by omega, by omega, block_empty, rfl⟩
    case isFalse => cases found
  case h_2 => exact .inl rfl

/-- A flush does nothing more when there is no block under the cursor.  Else it takes the block over
if the cursor is at its first page, programs the page under the cursor and advances. -/
theorem checkptFlushBuffer_cases :
    dev.checkptEnterBlock.checkptCurBlock < 0 ∧
      (dev.checkptFlushBuffer T).2 = dev.checkptEnterBlock ∨
    0 ≤ dev.checkptEnterBlock.checkptCurBlock ∧
      ∃ flash checkptBuffer checkptByteOffs,
        (dev.checkptFlushBuffer T).2 =
          { dev.checkptEnterBlock.checkptTakeBlock.checkptAdvance with
            flash, checkptBuffer, checkptByteOffs
            log := dev.checkptEnterBlock.checkptTakeBlock.programEntry .checkpt
              dev.checkptEnterBlock.checkptTakeBlock.checkptChunk dev.checkptEnterBlock.checkptTags ::
                dev.checkptEnterBlock.checkptTakeBlock.log } := by
  by_cases none_left : dev.checkptEnterBlock.checkptCurBlock < 0
  · exact .inl ⟨none_left, by simp only [checkptFlushBuffer, if_pos none_left]⟩
  · refine .inr ⟨by omega, ?_⟩
    simp only [checkptFlushBuffer, if_neg none_left]
    exact ⟨_, _, _, rfl⟩

/-- The erasure before the flash is changed: nothing to do, or all checkpoint blocks erased. -/
theorem checkptInvalidate_cases :
    dev.isCheckpointed = false ∧ dev.blocksInCheckpt = 0 ∧ dev.checkptInvalidate T = dev ∨
      dev.checkptInvalidate T = { dev with isCheckpointed := false }.checkptErase T := by
  by_cases present : dev.isCheckpointed = true ∨ 0 < dev.blocksInCheckpt
  · exact .inr (by simp only [checkptInvalidate, if_pos present]; rfl)
  · have absent : dev.isCheckpointed = false ∧ dev.blocksInCheckpt = 0 := by
      rw [not_or] at present
      exact ⟨by simpa using present.1, by omega⟩
    exact .inl ⟨absent.1, absent.2, by simp only [checkptInvalidate, if_neg present]⟩

end Dev

/-! ## Pages a save may program -/

/-- If the entry programs a page, then it is a page of a block of the device which is in the
checkpoint state by now and was in an allowed state at the start. -/
def Event.ProgramsOwn {Flash : Type} (start : Dev Flash) (allowed : BlockState → Prop)
    (event : Event) : Prop :=
  ∀ chunk, event.op = .program chunk →
    ∃ block ∈ start.blocks, ∃ page : Nat, page < start.param.chunksPerBlock ∧
      chunk = block * start.param.chunksPerBlock + page ∧
      allowed (start.blockState block) ∧ event.blockState block = .checkpoint

/-- Erased, or left over from a checkpoint that was never completed. -/
def BlockState.IsSpare (state : BlockState) : Prop := state = .empty ∨ state = .checkpoint

namespace Dev

open Growth

variable {Flash : Type} (T : Tagger Flash)

/-- The page under the cursor may be programmed: the cursor is nowhere, in a block taken over, or
before the first page of an erased block of the device. -/
def CursorFits (start dev : Dev Flash) : Prop :=
  dev.checkptCurBlock < 0 ∨
    ∃ block ∈ start.blocks, ∃ page : Nat, page < start.param.chunksPerBlock ∧
      dev.checkptCurBlock = block ∧ dev.checkptCurChunk = page ∧
      (start.blockState block).IsSpare ∧ (page = 0 ∨ dev.blockState block = .checkpoint)

/-- A device on the way through a save that started in `start`: no page was programmed that may not
be, and every block that can be taken over now could be at the start. -/
structure Prepared (start dev : Dev Flash) : Prop where
  param : dev.param = start.param
  startBlock : dev.internalStartBlock = start.internalStartBlock
  endBlock : dev.internalEndBlock = start.internalEndBlock
  log : Grows (Event.ProgramsOwn start BlockState.IsSpare) start.log dev.log
  spare : ∀ block, (dev.blockState block).IsSpare → (start.blockState block).IsSpare

/-- The device while a save writes to the stream it has opened: the cursor fits, and will next go to
an erased block of the device. -/
structure OwnCursor (start dev : Dev Flash) : Prop extends Prepared start dev where
  next : dev.checkptNextBlock < 0 ∨ start.internalStartBlock ≤ dev.checkptNextBlock
  cursor : CursorFits start dev

variable {T} {start dev : Dev Flash}

/-- Programming the page under a fitting cursor adds an entry that is allowed. -/
theorem CursorFits.entry (param : dev.param = start.param) (fits : CursorFits start dev)
    (inside : 0 ≤ dev.checkptCurBlock) (tags : ExtTags) :
    (dev.checkptTakeBlock.programEntry .checkpt
      dev.checkptTakeBlock.checkptChunk tags).ProgramsOwn start BlockState.IsSpare := by
  rcases fits with outside | ⟨block, block_mem, page, page_lt, cur, chunk, spare, taken⟩
  · omega
  intro programmed op_eq
  have programmed_eq : dev.checkptTakeBlock.checkptChunk = programmed := by
    simpa [Dev.programEntry, Dev.entry] using op_eq
  refine ⟨block, block_mem, page, page_lt, ?_, spare, ?_⟩
  · rw [← programmed_eq]
    simp only [checkptChunk, checkptTakeBlock]
    split
    · change dev.checkptCurBlock * dev.param.chunksPerBlock + dev.checkptCurChunk = _
      rw [cur, chunk, param]
    · rw [cur, chunk, param]
  · change dev.checkptTakeBlock.blockState block = .checkpoint
    simp only [checkptTakeBlock]
    split
    · change (dev.setBlockState dev.checkptCurBlock.toNat .checkpoint).blockState block = _
      rw [cur]
      simp
    case isFalse later =>
      rcases taken with first | taken
      · exact absurd (by rw [chunk, first]; rfl) later
      · exact taken

namespace OwnCursor

theorem putByte (own : OwnCursor start dev) (byte : UInt8) :
    OwnCursor start (dev.checkptPutByte byte) :=
  { own with }

/-- The cursor goes from nowhere to an erased block of the device only. -/
theorem enterBlock (own : OwnCursor start dev) (pages : 0 < start.param.chunksPerBlock) :
    OwnCursor start dev.checkptEnterBlock := by
  simp only [checkptEnterBlock]
  split
  case isFalse => exact own
  case isTrue =>
    rcases dev.checkptFindErasedBlock_cases with eq | ⟨block, hint, le_block, le_end, empty, eq⟩
    · rw [eq]
      exact { own with next := .inl (by simp), cursor := .inl (by simp) }
    · rw [eq]
      have from_start : start.internalStartBlock ≤ block := by
        rcases own.next with negative | le
        · omega
        · omega
      have block_mem : block ∈ start.blocks := by
        rw [mem_blocks]
        exact ⟨from_start, own.endBlock ▸ le_end⟩
      exact
        { own with
          next := .inr (by simp only; omega)
          cursor := .inr ⟨block, block_mem, 0, pages, rfl, rfl, own.spare block (.inl empty), .inl rfl⟩ }

/-- Programming the page under the cursor keeps the cursor in the block that was taken over. -/
theorem program (own : OwnCursor start dev) (inside : 0 ≤ dev.checkptCurBlock) (tags : ExtTags)
    (flash : Flash) (checkptBuffer : Option Buf) (checkptByteOffs : Nat) :
    OwnCursor start
      { dev.checkptTakeBlock.checkptAdvance with
        flash, checkptBuffer, checkptByteOffs
        log := dev.checkptTakeBlock.programEntry .checkpt dev.checkptTakeBlock.checkptChunk tags ::
          dev.checkptTakeBlock.log } := by
  have entry := CursorFits.entry own.param own.cursor inside tags
  rcases own.cursor with outside | ⟨block, block_mem, page, page_lt, cur, chunk, spare, taken⟩
  · omega
  have state : ∀ other, dev.checkptTakeBlock.blockState other =
      if other = block ∧ page = 0 then .checkpoint else dev.blockState other := by
    intro other
    simp only [checkptTakeBlock, chunk, cur, Int.natCast_eq_zero, Int.toNat_natCast]
    split
    case isTrue first =>
      change (dev.setBlockState block .checkpoint).blockState other = _
      simp [first]
    case isFalse later => simp [later]
  have in_checkpoint : dev.checkptTakeBlock.blockState block = .checkpoint := by
    rw [state]
    rcases taken with first | taken
    · simp [first]
    · simp [taken]
  have frame : dev.checkptTakeBlock.param = dev.param ∧
      dev.checkptTakeBlock.internalStartBlock = dev.internalStartBlock ∧
      dev.checkptTakeBlock.internalEndBlock = dev.internalEndBlock ∧
      dev.checkptTakeBlock.log = dev.log ∧
      dev.checkptTakeBlock.checkptNextBlock = dev.checkptNextBlock ∧
      dev.checkptTakeBlock.checkptCurBlock = dev.checkptCurBlock ∧
      dev.checkptTakeBlock.checkptCurChunk = dev.checkptCurChunk := by
    simp only [checkptTakeBlock]
    split <;> exact ⟨rfl, rfl, rfl, rfl, rfl, rfl, rfl⟩
  obtain ⟨param_eq, start_eq, end_eq, log_eq, next_eq, cur_eq, chunk_eq⟩ := frame
  refine ⟨⟨?param, ?startBlock, ?endBlock, ?log, ?spare⟩, ?next, ?cursor⟩
  case param => exact param_eq.trans own.param
  case startBlock => exact start_eq.trans own.startBlock
  case endBlock => exact end_eq.trans own.endBlock
  case log =>
    rw [log_eq]
    exact own.log.trans (Grows.cons _ entry)
  case spare =>
    intro other other_spare
    change (dev.checkptTakeBlock.blockState other).IsSpare at other_spare
    rw [state] at other_spare
    split at other_spare
    case isTrue taken_over => exact taken_over.1 ▸ spare
    case isFalse => exact own.spare other other_spare
  case next => exact next_eq ▸ own.next
  case cursor =>
    by_cases full : (dev.param.chunksPerBlock : Int) ≤ dev.checkptCurChunk + 1
    · exact .inl (by simp [checkptAdvance, param_eq, chunk_eq, full])
    · have still_open : ¬((dev.param.chunksPerBlock : Int) ≤ page + 1) := by rwa [chunk] at full
      refine .inr ⟨block, block_mem, page + 1, ?_, ?_, ?_, spare, .inr in_checkpoint⟩
      · rw [own.param] at still_open
        omega
      · simp [checkptAdvance, param_eq, chunk_eq, chunk, still_open, cur_eq, cur]
      · simp [checkptAdvance, param_eq, chunk_eq, chunk, still_open]

theorem flush (own : OwnCursor start dev) (pages : 0 < start.param.chunksPerBlock) :
    OwnCursor start (dev.checkptFlushBuffer T).2 := by
  have entered := own.enterBlock pages
  rcases dev.checkptFlushBuffer_cases T with ⟨_, eq⟩ | ⟨inside, _, _, _, eq⟩
  · rw [eq]
    exact entered
  · rw [eq]
    exact entered.program inside _ _ _ _

theorem rule (pages : 0 < start.param.chunksPerBlock) :
    WriterInvariant T (OwnCursor start) where
  putByte _ byte own := own.putByte byte
  flush _ own := own.flush pages

end OwnCursor

/-- The erasure makes no entry that programs a page. -/
theorem programsOwn_of_isCheckptErasure (allowed : BlockState → Prop) {event : Event}
    (erasure : event.IsCheckptErasure) : event.ProgramsOwn start allowed := by
  obtain ⟨_, block, erased | marked⟩ := erasure
  · intro chunk programmed
    rw [erased] at programmed
    cases programmed
  · intro chunk programmed
    rw [marked] at programmed
    cases programmed

theorem Prepared.refl (start : Dev Flash) : Prepared start start :=
  ⟨rfl, rfl, rfl, Grows.refl _, fun _ spare => spare⟩

theorem Prepared.erase (prepared : Prepared start dev) : Prepared start (dev.checkptErase T) := by
  obtain ⟨added, log_eq, erasures, _⟩ := dev.checkptErase_log T
  have states := fun block => (dev.checkptErase_blockState T block).1
  obtain ⟨flash, log, blockInfo, nErased, nFree, eq⟩ := dev.checkptErase_frame T
  constructor
  case param => rw [eq]; exact prepared.param
  case startBlock => rw [eq]; exact prepared.startBlock
  case endBlock => rw [eq]; exact prepared.endBlock
  case log =>
    exact prepared.log.trans
      ⟨added, log_eq, fun event event_mem =>
        programsOwn_of_isCheckptErasure _ (erasures event event_mem)⟩
  case spare =>
    intro block spare
    rcases states block with same | ⟨was_checkpoint, _⟩
    · exact prepared.spare block (same ▸ spare)
    · exact prepared.spare block (.inr was_checkpoint)

theorem Prepared.invalidate (prepared : Prepared start dev) :
    Prepared start (dev.checkptInvalidate T) := by
  rcases dev.checkptInvalidate_cases T with ⟨_, _, eq⟩ | eq
  · rw [eq]
    exact prepared
  · rw [eq]
    exact Prepared.erase { prepared with }

/-! ## A save that opens the stream -/

theorem Prepared.open (prepared : Prepared start dev) (space : dev.checkptSpaceOk = true) :
    (dev.checkptOpen T true).1 = true ∧ OwnCursor start (dev.checkptOpen T true).2 := by
  have space' : ({ dev with checkptOpenWrite := true } : Dev Flash).checkptSpaceOk = true := space
  simp only [checkptOpen, space', if_true, not_true, and_false, if_false, true_and]
  let opened :=
    ({ dev with checkptOpenWrite := true } : Dev Flash).checkptRewind.clearCheckptBuffer
      |>.checkptInitChunkHdr
  have erased : Prepared start (opened.checkptErase T) := Prepared.erase { prepared with }
  obtain ⟨_, _, _, _, _, eq⟩ := opened.checkptErase_frame T
  refine { erased with next := .inr ?_, cursor := .inl ?_ }
  · change start.internalStartBlock ≤ (opened.checkptErase T).checkptNextBlock
    rw [eq]
    change (start.internalStartBlock : Int) ≤ dev.internalStartBlock
    rw [prepared.startBlock]
  · change (opened.checkptErase T).checkptCurBlock < 0
    rw [eq]
    change (-1 : Int) < 0
    decide

/-- Closing the stream makes no entry that is not allowed, if the last flush makes none. -/
theorem Prepared.close (prepared : Prepared start dev)
    (flushed : dev.checkptOpenWrite = true → dev.checkptByteOffs ≠ checkptChunkHdrSizeSize →
      Grows (Event.ProgramsOwn start BlockState.IsSpare) start.log
        (dev.checkptFlushBuffer T).2.log) :
    Grows (Event.ProgramsOwn start BlockState.IsSpare) start.log (dev.checkptClose T).2.log := by
  simp only [checkptClose, checkptFinish]
  split
  case isTrue writing =>
    split
    case isTrue unflushed => exact flushed writing unflushed
    case isFalse => exact prepared.log
  case isFalse =>
    split
    case h_1 found _ =>
      have adopted : ∀ (blocks : List Int) (dev : Dev Flash),
          (blocks.foldl checkptAdoptBlock dev).log = dev.log := by
        intro blocks
        induction blocks with
        | nil => intro dev; rfl
        | cons block blocks ih =>
          intro dev
          rw [List.foldl_cons, ih]
          simp only [checkptAdoptBlock]
          split <;> rfl
      simp only [adopted]
      exact prepared.log
    case h_2 => exact prepared.log

/-! ## Saves -/

/-- Closing the stream as it was left behind writes nothing, or takes over an erased block. -/
def CursorIdle (dev : Dev Flash) : Prop :=
  dev.checkptOpenWrite = false ∨ dev.checkptByteOffs = checkptChunkHdrSizeSize ∨
    dev.checkptEnterBlock.checkptCurBlock < 0 ∨
    dev.checkptEnterBlock.checkptCurChunk = 0 ∧
      ∃ block ∈ dev.blocks, dev.checkptEnterBlock.checkptCurBlock = block ∧
        dev.blockState block = .empty

variable (T) in
/-- The device on which the stream of a save is closed when the save is refused. -/
def refusedSave (dev : Dev Flash) : Dev Flash :=
  { dev.checkptInvalidate T with
    checkptOpenWrite :=
      (dev.checkptInvalidate T).checkptOpenWrite || (dev.checkptInvalidate T).checkptRequired }

variable (T) in
/-- There is nothing to save, or the stream is opened, or the cursor is idle. -/
def SaveFits (dev : Dev Flash) : Prop :=
  dev.isCheckpointed = true ∨
    (dev.checkptInvalidate T).checkptRequired = true ∧
      (dev.checkptInvalidate T).checkptSpaceOk = true ∨
    CursorIdle (dev.refusedSave T)

/-- The flush of an idle cursor is allowed. -/
theorem Prepared.flush_idle (prepared : Prepared start dev) (pages : 0 < start.param.chunksPerBlock)
    (idle : CursorIdle dev) (writing : dev.checkptOpenWrite = true)
    (unflushed : dev.checkptByteOffs ≠ checkptChunkHdrSizeSize) :
    Grows (Event.ProgramsOwn start BlockState.IsSpare) start.log
      (dev.checkptFlushBuffer T).2.log := by
  have entered : dev.checkptEnterBlock.param = dev.param ∧
      dev.checkptEnterBlock.log = dev.log ∧
      dev.checkptEnterBlock.checkptTakeBlock.log = dev.checkptEnterBlock.log := by
    refine ⟨?_, ?_, ?_⟩
    · simp only [checkptEnterBlock]
      split
      · rcases dev.checkptFindErasedBlock_cases with eq | ⟨_, _, _, _, _, eq⟩ <;> rw [eq]
      · rfl
    · simp only [checkptEnterBlock]
      split
      · rcases dev.checkptFindErasedBlock_cases with eq | ⟨_, _, _, _, _, eq⟩ <;> rw [eq]
      · rfl
    · simp only [checkptTakeBlock]
      split <;> rfl
  obtain ⟨param_eq, log_eq, taken_log⟩ := entered
  rcases dev.checkptFlushBuffer_cases T with ⟨_, eq⟩ | ⟨inside, _, _, _, eq⟩
  · rw [eq, log_eq]
    exact prepared.log
  · rcases idle with reading | flushed | outside | ⟨first, block, block_mem, cur, empty⟩
    · rw [reading] at writing
      cases writing
    · exact absurd flushed unflushed
    · omega
    · have own_block : block ∈ start.blocks := by
        rw [mem_blocks] at block_mem ⊢
        rw [← prepared.startBlock, ← prepared.endBlock]
        exact block_mem
      have fits : CursorFits start dev.checkptEnterBlock :=
        .inr ⟨block, own_block, 0, pages, cur, first, prepared.spare block (.inl empty), .inl rfl⟩
      rw [eq]
      change Grows _ _ (_ :: dev.checkptEnterBlock.checkptTakeBlock.log)
      rw [taken_log, log_eq]
      exact prepared.log.trans
        (Grows.cons _ (CursorFits.entry (param_eq.trans prepared.param) fits inside _))

variable (T) in
/-- A save that is required and has space opens the stream; any other is refused, and all that the
attempt leaves in the device is the flag for writing. -/
theorem checkptOpening_cases (dev : Dev Flash) :
    dev.checkptRequired = true ∧ dev.checkptSpaceOk = true ∨
      (if dev.checkptRequired then dev.checkptOpen T true else (false, dev)) =
        (false, { dev with checkptOpenWrite := dev.checkptOpenWrite || dev.checkptRequired }) := by
  by_cases required : dev.checkptRequired = true
  · by_cases space : dev.checkptSpaceOk = true
    · exact .inl ⟨required, space⟩
    · have refused : ¬({ dev with checkptOpenWrite := true } : Dev Flash).checkptSpaceOk = true :=
        space
      refine .inr ?_
      simp only [checkptOpen, required, Bool.or_true, if_true, true_and]
      rw [if_pos refused]
  · refine .inr ?_
    rw [if_neg required]
    simp [required]

variable (T) in
/-- A save whose cursor does not go astray programs only pages of blocks that it has taken over. -/
theorem checkpointSave_programsOwn (start : Dev Flash)
    (buckets : List (List (List (List UInt8)))) (pages : 0 < start.param.chunksPerBlock)
    (fits : SaveFits T start) :
    Grows (Event.ProgramsOwn start BlockState.IsSpare) start.log
      (start.checkpointSave T buckets).log := by
  simp only [checkpointSave]
  split
  case isTrue => exact Grows.refl _
  case isFalse stale =>
    have ready : Prepared start (start.checkptInvalidate T) := (Prepared.refl start).invalidate
    have of_opened (opened : (start.checkptInvalidate T).checkptRequired = true ∧
        (start.checkptInvalidate T).checkptSpaceOk = true) :
        Grows (Event.ProgramsOwn start BlockState.IsSpare) start.log
          ((start.checkptInvalidate T).wrCheckptData T buckets).log := by
      obtain ⟨success, own⟩ := ready.open (T := T) opened.2
      have written := (OwnCursor.rule (T := T) pages).wrParts buckets own
      simp only [wrCheckptData, opened.1, if_true, andThen, success]
      exact written.toPrepared.close fun _ _ => (written.flush pages).log
    rcases fits with saved | opened | idle
    · exact absurd saved stale
    · exact of_opened opened
    · rcases checkptOpening_cases T (start.checkptInvalidate T) with opened | refused
      · exact of_opened opened
      · simp only [wrCheckptData, refused, andThen, Bool.false_eq_true, if_false]
        have prepared : Prepared start (start.refusedSave T) := { ready with }
        exact prepared.close fun writing unflushed =>
          prepared.flush_idle pages idle writing unflushed

end Dev

/-! ## Histories -/

/-- A step in the history of a device. -/
inductive HistoryStep (Flash : Type)
  /-- A checkpoint save, with the object records of each hash bucket. -/
  | save (buckets : List (List (List (List UInt8))))
  /-- A mount, a file operation, an invalidation, or any other change of the device at all. -/
  | other (change : Dev Flash → Dev Flash)

namespace HistoryStep

open Growth Execution

variable {Flash : Type} (T : Tagger Flash)

/-- Carry out one step. -/
def exec : HistoryStep Flash → Dev Flash → Dev Flash
  | save buckets, dev => dev.checkpointSave T buckets
  | other change, dev => change dev

/-- No save closes the stream with a cursor that has gone astray. -/
def Fits : HistoryStep Flash → Dev Flash → Prop
  | save _, dev => 0 < dev.param.chunksPerBlock ∧ dev.SaveFits T
  | other _, _ => True

/-- Write one page of a file. -/
def writePage : HistoryStep RamFlash :=
  other fun dev => (dev.writeNewChunk (ramTagger 2) (fun _ => 0)
    { objId := 257, chunkId := 1, nBytes := 1024 } true).2

/-- A save, and writes that reuse the block of the checkpoint and use up the space for the next. -/
def saveThenFill : List (HistoryStep RamFlash) := save [] :: List.replicate 10 writePage

end HistoryStep

end Yaffs
