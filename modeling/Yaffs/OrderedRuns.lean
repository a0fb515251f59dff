import Yaffs.WriteOrder
import Yaffs.Invalidation
import Yaffs.Scan

/-!
# Ordered runs

Collecting a block and saving a checkpoint go forward too, and so does a run of any operations.  The
pages that a scan found lie behind the position that the device is mounted at.
-/

namespace Yaffs

open Growth

/-! ## Collection -/

namespace Fs

open Dev

variable {Flash : Type} (T : Tagger Flash) {fs : Fs Flash}

theorem forward_putChunkInFile (fs : Fs Flash) (isYaffs2 : fs.dev.param.isYaffs2 = true)
    (number inodeChunk nandChunk : Nat) :
    Forward fs.dev (fs.putChunkInFile T number inodeChunk nandChunk).2.dev := by
  simp only [Fs.putChunkInFile]
  split
  case h_1 => exact ForwardFrom.refl fs.dev
  case h_2 obj _ =>
    have found : Steady fs.dev (fs.dev.addFindTnode0 obj.file inodeChunk none).2.2 :=
      steady_tnodesOnly (fs.dev.addFindTnode0_only obj.file inodeChunk none)
    split
    · exact (steady_chunkDel T fs.dev isYaffs2 _ true).forward
    · split
      · exact found.forward
      · split <;> exact found.forward

theorem forward_gcMove (fs : Fs Flash) (isYaffs2 : fs.dev.param.isYaffs2 = true) (obj : Obj)
    (tags : ExtTags) (newChunk : Nat) : Forward fs.dev (fs.gcMove T obj tags newChunk).dev := by
  simp only [Fs.gcMove]
  split
  · exact ForwardFrom.refl fs.dev
  · exact fs.forward_putChunkInFile T isYaffs2 _ _ _

theorem steady_dropSoftDeleted (fs : Fs Flash) (block : Nat) (obj : Obj) :
    Steady fs.dev (fs.dropSoftDeleted block obj).dev := by
  simp only [Fs.dropSoftDeleted]
  split <;> exact ⟨rfl, rfl, rfl, rfl, .refl _⟩

/-- A page that is collected is written anew at the position. -/
theorem forward_gcProcessChunk (balanced : fs.Balanced) (isYaffs2 : fs.dev.param.isYaffs2 = true)
    (block oldChunk : Nat) : Forward fs.dev (fs.gcProcessChunk T block oldChunk).2.dev := by
  have read := steady_rdChunkTagsNand T fs.dev oldChunk
  have read_balanced : (fs.dev.rdChunkTagsNand T oldChunk).2.books.Balanced :=
    (fs.dev.books_rdChunkTagsNand T oldChunk).symm ▸ balanced.books
  simp only [Fs.gcProcessChunk]
  generalize fs.dev.rdChunkTagsNand T oldChunk = page at *
  have format : page.2.param.isYaffs2 = true := by rw [read.param, isYaffs2]
  split
  case h_1 => exact (read.trans (steady_chunkDel T page.2 format oldChunk true)).forward
  case h_2 obj _ =>
    split
    case isTrue =>
      have dropped := read.trans (steady_dropSoftDeleted { fs with dev := page.2 } block obj)
      have format' := dropped.param ▸ isYaffs2
      exact (dropped.trans (steady_chunkDel T _ format' oldChunk false)).forward
    case isFalse =>
      let copy := gcCopy page.2.swapEndian obj page.1.2.1 page.1.2.2
      have written : Forward fs.dev (page.2.writeNewChunk T copy.1 copy.2 true).2 :=
        read.forward.trans (forward_writeNewChunk T read_balanced format copy.1 copy.2 true)
      have format' := written.param ▸ isYaffs2
      split
      case h_1 => exact written
      case h_2 newChunk _ =>
        have moved := written.trans (forward_gcMove T
          { fs with dev := (page.2.writeNewChunk T copy.1 copy.2 true).2 } format' obj copy.2 newChunk)
        have format'' := moved.param ▸ isYaffs2
        exact moved.steady (steady_chunkDel T _ format'' oldChunk true)

theorem forward_gcPage (balanced : fs.Balanced) (isYaffs2 : fs.dev.param.isYaffs2 = true)
    (block : Nat) : Forward fs.dev (fs.gcPage T block).2.dev := by
  have stepped (after : Fs Flash) (forward : Forward fs.dev after.dev) :
      Forward fs.dev (after.mapDev fun dev => { dev with gcChunk := dev.gcChunk + 1 }).dev :=
    forward.steady ⟨rfl, rfl, rfl, rfl, .refl _⟩
  simp only [Fs.gcPage]
  refine stepped _ ?_
  split
  · exact forward_gcProcessChunk T balanced isYaffs2 block _
  · exact ForwardFrom.refl fs.dev

theorem forward_gcCopyLoop (balanced : fs.Balanced) (isYaffs2 : fs.dev.param.isYaffs2 = true)
    {block : Nat} (block_mem : block ∈ fs.dev.blocks) (left copies : Nat) :
    Forward fs.dev (gcCopyLoop T block left copies fs).2.dev := by
  induction left generalizing copies fs with
  | zero => exact ForwardFrom.refl fs.dev
  | succ left ih =>
    simp only [Fs.gcCopyLoop]
    split
    case isTrue => exact ForwardFrom.refl fs.dev
    case isFalse going_on =>
      simp only [not_or, not_le, ne_eq, not_not] at going_on
      obtain ⟨stepped, moves⟩ := balanced.gcPage T block_mem going_on.2.1 going_on.1
      have forward := forward_gcPage T balanced isYaffs2 block
      have still_mem : block ∈ (fs.gcPage T block).2.dev.books.blocks := moves.blocks ▸ block_mem
      split
      · exact forward.trans (ih stepped (forward.param ▸ isYaffs2) still_mem _)
      · exact forward

theorem steady_summaryGc (dev : Dev Flash) (block : Nat) : Steady dev (dev.summaryGc block) := by
  simp only [summaryGc]
  split
  · exact .refl dev
  · refine .foldl (fun dev page => ?_) _ dev
    simp only [dropSummaryPage]
    split
    · exact ⟨rfl, rfl, rfl, rfl, .refl _⟩
    · exact .refl dev

theorem steady_gcStart (dev : Dev Flash) (block : Nat) : Steady dev (gcStart dev block) := by
  have collecting : Steady dev
      (if dev.blockState block = .full then dev.setBlockState block .collecting else dev) := by
    split
    · exact steady_modifyBlockInfo dev block _
    · exact .refl dev
  simp only [gcStart]
  refine collecting.trans (Steady.trans ?_ (steady_summaryGc _ block))
  exact (steady_modifyBlockInfo _ block fun info => { info with hasShrinkHdr := false }).trans
    ⟨rfl, rfl, rfl, rfl, .refl _⟩

/-- A collection ends with no file to be deleted, as the new format never soft deletes. -/
theorem steady_gcFinish (balanced : fs.Balanced) (block : Nat) :
    Steady fs.dev (fs.gcFinish T block).dev := by
  simp only [Fs.gcFinish]
  split
  · exact ⟨rfl, rfl, rfl, rfl, .refl _⟩
  · have no_files : fs.dev.gcCleanupList = [] := balanced.books.gcCleanupList
    rw [no_files]
    exact ⟨rfl, rfl, rfl, rfl, .refl _⟩

theorem forward_gcBlock (balanced : fs.Balanced) (isYaffs2 : fs.dev.param.isYaffs2 = true)
    {block : Nat} (block_mem : block ∈ fs.dev.blocks) (held : Sheet.Held (fs.dev.blockState block))
    (wholeBlock : Bool) : Forward fs.dev (fs.gcBlock T block wholeBlock).2.dev := by
  obtain ⟨started, blocks, collecting⟩ := gcStart_books balanced.books block_mem held
  have started_balanced : (fs.mapDev fun dev => gcStart dev block).Balanced := balanced.mapDev started
  have started_mem : block ∈ (gcStart fs.dev block).blocks := blocks ▸ block_mem
  have start := steady_gcStart fs.dev block
  have not_checkpoint : fs.dev.blockState block ≠ .checkpoint := by
    rcases held with full | collecting
    · simp [full]
    · simp [collecting]
  simp only [Fs.gcBlock]
  split
  case isTrue unused =>
    have no_chunks : ¬(gcStart fs.dev block).stillSomeChunks block = true :=
      unused.resolve_left (by simp [not_checkpoint])
    have unmarked : ∀ page < (gcStart fs.dev block).param.chunksPerBlock,
        (gcStart fs.dev block).chunkBits block page = false := by
      simpa [stillSomeChunks] using no_chunks
    have empty : ((gcStart fs.dev block).blockInfo block).pagesInUse = 0 :=
      (started.sheet block started_mem).counted.trans (Sheet.marked_eq_zero_iff.mpr unmarked)
    obtain ⟨dirty, _⟩ := blockBecameDirty_books T started started_mem (.inr collecting) empty
    have erased := start.trans (steady_blockBecameDirty T (gcStart fs.dev block) block)
    have erased_balanced : ((fs.mapDev fun dev => gcStart dev block).mapDev fun dev =>
        dev.blockBecameDirty T block).Balanced := started_balanced.mapDev dirty
    exact (erased.trans (steady_gcFinish T erased_balanced block)).forward
  case isFalse =>
    have copied := start.forward.trans (forward_gcCopyLoop T started_balanced
      (start.param ▸ isYaffs2) started_mem
      (fs.mapDev fun dev => gcStart dev block).dev.param.chunksPerBlock
      (if wholeBlock then (fs.mapDev fun dev => gcStart dev block).dev.param.chunksPerBlock else 5))
    obtain ⟨copied_balanced, _⟩ := started_balanced.gcCopyLoop T started_mem
      (fs.mapDev fun dev => gcStart dev block).dev.param.chunksPerBlock
      (if wholeBlock then (fs.mapDev fun dev => gcStart dev block).dev.param.chunksPerBlock else 5)
    exact copied.steady (steady_gcFinish T copied_balanced block)

theorem steady_chooseGcBlock (balanced : fs.Balanced) (aggressive background : Bool) :
    Steady fs.dev (fs.chooseGcBlock aggressive background).dev := by
  have turn (dev : Dev Flash) (chosen : Nat × Dev Flash) (quiet : Quiet dev chosen.2)
      (choice : dev.Choice chosen) :
      Steady dev { chosen.2 with gcBlock := chosen.1, gcChunk := 0, gcCleanupList := [] } :=
    (Steady.of_retargeted quiet choice.toRetargeted).trans ⟨rfl, rfl, rfl, rfl, .refl _⟩
  have first : Steady fs.dev (fs.chooseRefreshBlock aggressive).dev ∧
      (fs.chooseRefreshBlock aggressive).Balanced := by
    simp only [Fs.chooseRefreshBlock]
    split
    · have choice := findRefreshBlock_choice balanced.books
      exact ⟨turn _ _ fs.dev.quiet_findRefreshBlock choice, balanced.mapDev
        (retarget_gcBlock choice.balanced ((choice.target _).mpr choice.chosen)).balanced⟩
    · exact ⟨.refl fs.dev, balanced⟩
  obtain ⟨refreshed, refreshed_balanced⟩ := first
  simp only [Fs.chooseGcBlock]
  split
  · exact refreshed.trans (turn _ _ (quiet_findGcBlock _ aggressive background)
      (findGcBlock_choice refreshed_balanced.books aggressive background))
  · exact refreshed

theorem steady_gcMode (fs : Fs Flash) (background : Bool) :
    Steady fs.dev (fs.gcMode background).2.dev := by
  have required : Steady fs.dev fs.dev.calcCheckptBlocksRequired.2 :=
    .of_books fs.dev.quiet_calcCheckptBlocksRequired fs.dev.books_calcCheckptBlocksRequired
  simp only [Fs.gcMode]
  split
  · exact required
  · split
    · exact required
    · split <;> exact required.trans ⟨rfl, rfl, rfl, rfl, .refl _⟩

theorem forward_gcTurn (balanced : fs.Balanced) (isYaffs2 : fs.dev.param.isYaffs2 = true)
    (background : Bool) (turn : GcTurn) : Forward fs.dev (fs.gcTurn T background turn).2.dev := by
  have mode_balanced := balanced.gcMode background
  have mode_steady := fs.steady_gcMode background
  simp only [Fs.gcTurn]
  generalize fs.gcMode background = mode at *
  have skipped : (mode.2.mapDev fun dev => { dev with gcSkip := 5 }).Balanced :=
    mode_balanced.of_books rfl
  have skip_steady : Steady fs.dev (mode.2.mapDev fun dev => { dev with gcSkip := 5 }).dev :=
    mode_steady.trans ⟨rfl, rfl, rfl, rfl, .refl _⟩
  split
  · exact mode_steady.forward
  · have chosen := skipped.chooseGcBlock (decide (mode.1 = .aggressive)) background
    have choose_steady := skip_steady.trans
      (steady_chooseGcBlock skipped (decide (mode.1 = .aggressive)) background)
    generalize (mode.2.mapDev fun dev => { dev with gcSkip := 5 }).chooseGcBlock
      (decide (mode.1 = .aggressive)) background = choice at *
    have target : choice.dev.books.Target choice.dev.gcBlock := chosen.books.gcBlock
    split
    case isTrue positive =>
      obtain ⟨block_mem, held⟩ := target (Nat.pos_iff_ne_zero.mp positive)
      exact choose_steady.forward.trans (forward_gcBlock T chosen (choose_steady.param ▸ isYaffs2)
        block_mem held (decide (mode.1 = .aggressive)))
    case isFalse => exact choose_steady.forward

theorem forward_checkGc (balanced : fs.Balanced) (isYaffs2 : fs.dev.param.isYaffs2 = true)
    (background : Bool) : Forward fs.dev (fs.checkGc T background).2.dev := by
  have first := forward_gcTurn T balanced isYaffs2 background {}
  have first_balanced := balanced.gcTurn T background {}
  simp only [Fs.checkGc]
  split
  · exact ForwardFrom.refl fs.dev
  · simp only
    split
    · exact first.trans (forward_gcTurn T first_balanced (first.param ▸ isYaffs2) _ _)
    · exact first

end Fs

/-! ## Saving a checkpoint -/

namespace Dev

variable {Flash : Type} (T : Tagger Flash) {start dev : Dev Flash}

theorem Steady.flush (steady : Steady start dev) : Steady start (dev.checkptFlushBuffer T).2 := by
  have entered : Steady start dev.checkptEnterBlock := by
    simp only [checkptEnterBlock]
    split
    · rcases dev.checkptFindErasedBlock_cases with eq | ⟨_, _, _, _, _, eq⟩
      all_goals
        rw [eq]
        exact steady.trans ⟨rfl, rfl, rfl, rfl, .refl _⟩
    · exact steady
  have taken : Steady start dev.checkptEnterBlock.checkptTakeBlock := by
    simp only [checkptTakeBlock]
    split
    · exact entered.trans ⟨rfl, rfl, rfl, rfl, .refl _⟩
    · exact entered
  rcases dev.checkptFlushBuffer_cases T with ⟨_, eq⟩ | ⟨_, _, _, _, eq⟩
  · rw [eq]
    exact entered
  · rw [eq]
    exact taken.trans ⟨rfl, rfl, rfl, rfl, .cons _ rfl⟩

theorem steadyRule (start : Dev Flash) : WriterInvariant T (Steady start) where
  putByte _ _ steady := steady.trans ⟨rfl, rfl, rfl, rfl, .refl _⟩
  flush _ steady := steady.flush T

/-- A save writes no data or header page, whether it succeeds, fails or is refused. -/
theorem steady_checkpointSave (dev : Dev Flash) (buckets : List (List (List (List UInt8)))) :
    Steady dev (dev.checkpointSave T buckets) := by
  have adopted (blocks : List Int) (dev : Dev Flash) :
      Steady dev (blocks.foldl checkptAdoptBlock dev) := by
    refine .foldl (fun dev block => ?_) blocks dev
    simp only [checkptAdoptBlock]
    split
    · exact ⟨rfl, rfl, rfl, rfl, .refl _⟩
    · exact .refl dev
  have finished (dev : Dev Flash) : Steady dev (dev.checkptFinish T) := by
    simp only [checkptFinish]
    split
    · split
      · exact (Steady.refl dev).flush T
      · exact .refl dev
    · split
      · exact adopted _ dev
      · exact .refl dev
  have opened (dev : Dev Flash) : Steady dev (dev.checkptOpen T true).2 := by
    simp only [checkptOpen, if_true]
    split
    · exact ⟨rfl, rfl, rfl, rfl, .refl _⟩
    · let opened :=
        ({ dev with checkptOpenWrite := true } : Dev Flash).checkptRewind.clearCheckptBuffer
          |>.checkptInitChunkHdr
      have prepared : Steady dev opened := ⟨rfl, rfl, rfl, rfl, .refl _⟩
      exact prepared.trans (steady_checkptErase T opened)
  have closed (dev : Dev Flash) : Steady dev (dev.checkptClose T).2 :=
    (finished dev).trans ⟨rfl, rfl, rfl, rfl, .refl _⟩
  simp only [checkpointSave]
  split
  · exact .refl dev
  · have invalidated := dev.steady_checkptInvalidate T
    have opening : Steady dev
        (if (dev.checkptInvalidate T).checkptRequired then
          (dev.checkptInvalidate T).checkptOpen T true
        else (false, dev.checkptInvalidate T)).2 := by
      split
      · exact invalidated.trans (opened _)
      · exact invalidated
    have written := WriterInvariant.andThen (fun dev => dev.wrCheckptParts T buckets) opening
      ((steadyRule T dev).wrParts buckets)
    exact (written.trans (closed _)).trans ⟨rfl, rfl, rfl, rfl, .refl _⟩

/-! ## Mounting by scan -/

/-- No sequence number of a block to be scanned is above the one the device goes on with. -/
theorem scanBlockStatesLoop_seq_le (blocks : List Nat) (dev : Dev Flash) :
    dev.seqNumber ≤ (scanBlockStatesLoop T blocks dev).2.seqNumber ∧
      ∀ found ∈ (scanBlockStatesLoop T blocks dev).1,
        found.1 ≤ (scanBlockStatesLoop T blocks dev).2.seqNumber := by
  induction blocks generalizing dev with
  | nil => exact ⟨le_rfl, nofun⟩
  | cons block rest ih =>
    have noted (dev : Dev Flash) (state : BlockState) (seq : Nat) :
        dev.seqNumber ≤ (dev.noteScanned block state seq).seqNumber ∧
          (isToScan state seq = true → seq ≤ (dev.noteScanned block state seq).seqNumber) := by
      simp only [noteScanned, isToScan, decide_eq_true_eq]
      split
      case h_3 =>
        split
        case isTrue => exact ⟨le_max_left _ _, fun _ => le_max_right _ _⟩
        case isFalse outside => exact ⟨le_rfl, fun inside => absurd inside.2 outside⟩
      all_goals exact ⟨le_rfl, fun inside => by simp_all⟩
    let answer := dev.queryBlock T block
    let state := scannedState answer.1.1 answer.1.2
    obtain ⟨note_le, scanned_le⟩ := noted answer.2 state answer.1.2
    obtain ⟨rest_le, rest_found⟩ := ih (answer.2.noteScanned block state answer.1.2)
    have start_le : dev.seqNumber ≤ (answer.2.noteScanned block state answer.1.2).seqNumber := note_le
    simp only [scanBlockStatesLoop]
    refine ⟨start_le.trans rest_le, fun found found_mem => ?_⟩
    split at found_mem
    case isTrue scanned =>
      rcases List.mem_cons.mp found_mem with rfl | in_rest
      · exact (scanned_le scanned).trans rest_le
      · exact rest_found found in_rest
    case isFalse => exact rest_found found found_mem

/-- What the scan of the pages leaves of the scan of the blocks that went before it: it does not
lower the sequence number, and ends by closing the block that is allocated from. -/
structure MountedByScan (before dev : Dev Flash) : Prop where
  seq_le : (before.scanBlockStates T).2.seqNumber ≤ dev.seqNumber
  allocBlock : dev.allocBlock = none

/-- Every page of a block that was scanned lies behind the position of the mounted device. -/
theorem MountedByScan.found_lt {before : Dev Flash} (mounted : MountedByScan T before dev)
    {found : Nat × Nat} (found_mem : found ∈ (before.scanBlockStates T).1) (page : Nat) :
    toLex (found.1, page) < dev.position := by
  obtain ⟨_, bounded⟩ := scanBlockStatesLoop_seq_le T before.blockList
    { before with seqNumber := lowestSequenceNumber, blocksInCheckpt := 0 }
  have seq_lt : found.1 < dev.seqNumber + 1 :=
    Nat.lt_succ_of_le ((bounded found found_mem).trans mounted.seq_le)
  simp only [position, mounted.allocBlock]
  exact Prod.Lex.toLex_lt_toLex.mpr (.inl seq_lt)

end Dev

/-! ## Runs -/

namespace FsStep

open Dev Execution

variable {Flash : Type} {T : Tagger Flash}

variable (T) in
/-- What the order of writing asks of an operation: that it keeps the accounts, and that what is not
modelled changes memory only. -/
def Orderly (step : FsStep Flash) (fs : Fs Flash) : Prop :=
  step.Accountable T fs ∧ step.MemoryOnly fs

/-- Every operation goes forward. -/
theorem exec_forward (step : FsStep Flash) (fs : Fs Flash) (orderly : step.Orderly T fs)
    (balanced : fs.Balanced) (isYaffs2 : fs.dev.param.isYaffs2 = true) :
    Forward fs.dev (step.exec T fs).dev := by
  cases step with
  | writeNewChunk data tags useReserver =>
    exact forward_writeNewChunk T balanced.books isYaffs2 data tags useReserver
  | chunkDel chunk markFlash => exact (steady_chunkDel T fs.dev isYaffs2 chunk markFlash).forward
  | blockBecameDirty block => exact (steady_blockBecameDirty T fs.dev block).forward
  | skipRestOfBlock => exact forward_skipRestOfBlock fs.dev
  | readChunk chunk => exact (steady_rdChunkTagsNand T fs.dev chunk).forward
  | putChunkInFile number inodeChunk nandChunk =>
    exact fs.forward_putChunkInFile T isYaffs2 number inodeChunk nandChunk
  | gcBlock block wholeBlock =>
    exact Fs.forward_gcBlock T balanced isYaffs2 orderly.1.1 orderly.1.2 wholeBlock
  | checkGc background => exact Fs.forward_checkGc T balanced isYaffs2 background
  | checkptInvalidate => exact (steady_checkptInvalidate T fs.dev).forward
  | checkpointSave buckets => exact (steady_checkpointSave T fs.dev buckets).forward
  | memory change => exact (Steady.of_books orderly.2 orderly.1.1).forward

/-- Every run goes forward. -/
theorem run_forward (steps : List (FsStep Flash)) (fs : Fs Flash)
    (orderly : Guarded (exec T) (Orderly T) steps fs) (balanced : fs.Balanced)
    (isYaffs2 : fs.dev.param.isYaffs2 = true) : Forward fs.dev (run (exec T) steps fs).dev := by
  induction steps generalizing fs with
  | nil => exact ForwardFrom.refl fs.dev
  | cons step steps ih =>
    have forward := exec_forward step fs orderly.1 balanced isYaffs2
    have after := exec_balanced step fs orderly.1.1 balanced
    exact forward.trans (ih _ orderly.2 after (forward.param ▸ isYaffs2))

/-- A flash with six pages in a block whose blocks from the ninth on are bad.  Of the good ones only
the first two and the first page of the seventh can be programmed. -/
def wornTagger : Tagger RamFlash :=
  { ramTagger 6 with
    writeChunkTags := fun flash chunk data tags =>
      if chunk < 12 ∨ chunk = 36 then (true, flash.program chunk data tags) else (false, flash)
    queryBlock := fun flash block =>
      (if block < 8 then flash.query 6 block else (.dead, 0), flash) }

/-- The first part of a mount of this flash: it finds one page of a checkpoint, with a wrong page
number, and stops with the cursor at that page. -/
def wornUnmounted : Dev RamFlash :=
  let stray := RamFlash.blank.program 0 none
    { objId := 2, chunkId := 5, nBytes := 1024, seqNumber := sequenceCheckpointData }
  let dev : Dev RamFlash :=
    { param :=
        { totalBytesPerChunk := 1024
          chunksPerBlock := 6
          startBlock := 0
          endBlock := 59
          refreshPeriod := 10 }
      flash := stray
      dataBytesPerChunk := 1024
      internalStartBlock := 1
      internalEndBlock := 60
      blockOffset := 1
      chunkOffset := 6 }
  let read := ((dev.checkptOpen wornTagger false).2.checkptRd wornTagger 16).2
  { (read.checkptClose wornTagger).2 with
    nErasedBlocks := 0, nFreeChunks := 0, blockInfo := fun _ => {} }

/-- The second part, the scan. -/
def wornMounted : Dev RamFlash :=
  (wornUnmounted.scanBlockStates wornTagger).2.checkptInvalidate wornTagger

/-- Seven pages of a file fill the first block and begin the second.  The collector starts to refresh
the first block and copies five of its pages.  One page goes to the seventh block, as four blocks
fail, and the pages of the second block are deleted.  Now a save is refused and puts the first block
into the checkpoint, the next page written has it erased and is itself written there, in the end.
When the two pages of the block are deleted, the collector goes on with the first block and erases it
under the allocation. -/
def wornSteps : List (FsStep RamFlash) :=
  List.replicate 7 writeFilePage ++ [checkGc true, writeFilePage] ++
    (List.range' 12 6).map (fun chunk => chunkDel chunk true) ++
    [checkpointSave [], writeFilePage, chunkDel 11 true, chunkDel 6 true, checkGc true, writeFilePage]

end FsStep

end Yaffs
