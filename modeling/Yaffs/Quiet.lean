import Yaffs.CheckpointErasure
import Yaffs.Operations

/-!
# Quiet changes

Most of the block and collection code only keeps books.  Such a change is quiet: it issues no flash
operation, and takes no block into or out of the checkpoint state.
-/

namespace Yaffs.Dev

variable {Flash : Type} (T : Tagger Flash) (dev : Dev Flash)

/-- Nothing was written, and the checkpoint is as it was. -/
structure Quiet (dev after : Dev Flash) : Prop where
  param : after.param = dev.param
  startBlock : after.internalStartBlock = dev.internalStartBlock
  endBlock : after.internalEndBlock = dev.internalEndBlock
  isCheckpointed : after.isCheckpointed = dev.isCheckpointed
  blocksInCheckpt : after.blocksInCheckpt = dev.blocksInCheckpt
  log : after.log = dev.log
  checkpoint : ∀ block ∈ dev.blocks,
    after.blockState block = .checkpoint ↔ dev.blockState block = .checkpoint

namespace Quiet

variable {dev} {first second third after : Dev Flash}

theorem refl (dev : Dev Flash) : Quiet dev dev :=
  ⟨rfl, rfl, rfl, rfl, rfl, rfl, fun _ _ => Iff.rfl⟩

theorem blocks (quiet : Quiet dev after) : after.blocks = dev.blocks := by
  rw [Dev.blocks, Dev.blocks, quiet.startBlock, quiet.endBlock]

theorem trans (left : Quiet first second) (right : Quiet second third) : Quiet first third where
  param := right.param.trans left.param
  startBlock := right.startBlock.trans left.startBlock
  endBlock := right.endBlock.trans left.endBlock
  isCheckpointed := right.isCheckpointed.trans left.isCheckpointed
  blocksInCheckpt := right.blocksInCheckpt.trans left.blocksInCheckpt
  log := right.log.trans left.log
  checkpoint block block_mem :=
    (right.checkpoint block (left.blocks ▸ block_mem)).trans (left.checkpoint block block_mem)

/-- A change that leaves the six fields and the block table alone is quiet. -/
theorem of_table (param : after.param = dev.param)
    (startBlock : after.internalStartBlock = dev.internalStartBlock)
    (endBlock : after.internalEndBlock = dev.internalEndBlock)
    (isCheckpointed : after.isCheckpointed = dev.isCheckpointed)
    (blocksInCheckpt : after.blocksInCheckpt = dev.blocksInCheckpt) (log : after.log = dev.log)
    (table : after.blockInfo = dev.blockInfo) : Quiet dev after where
  param := param
  startBlock := startBlock
  endBlock := endBlock
  isCheckpointed := isCheckpointed
  blocksInCheckpt := blocksInCheckpt
  log := log
  checkpoint block _ := by simp only [blockState, table]

/-- Folding quiet changes over a list is quiet. -/
theorem foldl {α : Type} {step : Dev Flash → α → Dev Flash}
    (quiet : ∀ dev entry, Quiet dev (step dev entry)) (entries : List α) (dev : Dev Flash) :
    Quiet dev (entries.foldl step dev) := by
  induction entries generalizing dev with
  | nil => exact refl dev
  | cons entry entries ih => exact (quiet dev entry).trans (ih (step dev entry))

theorem ite {α : Type} {condition : Prop} [Decidable condition] {yes no : α × Dev Flash}
    (left : Quiet dev yes.2) (right : Quiet dev no.2) :
    Quiet dev (if condition then yes else no).2 := by
  split
  · exact left
  · exact right

end Quiet

/-! ## Single blocks -/

theorem quiet_modifyBlockInfo (block : Nat) (change : BlockInfo → BlockInfo)
    (keeps : (change (dev.blockInfo block)).blockState = .checkpoint ↔
      dev.blockState block = .checkpoint) : Quiet dev (dev.modifyBlockInfo block change) where
  param := rfl
  startBlock := rfl
  endBlock := rfl
  isCheckpointed := rfl
  blocksInCheckpt := rfl
  log := rfl
  checkpoint other _ := by
    rw [blockState_modifyBlockInfo]
    split
    case isTrue same => exact same ▸ keeps
    case isFalse => exact Iff.rfl

theorem quiet_setBlockState (block : Nat) (state : BlockState)
    (before : dev.blockState block ≠ .checkpoint) (after : state ≠ .checkpoint) :
    Quiet dev (dev.setBlockState block state) :=
  dev.quiet_modifyBlockInfo block _ (iff_of_false after before)

theorem quiet_addPagesInUse (block : Nat) (change : Int) :
    Quiet dev (dev.addPagesInUse block change) :=
  dev.quiet_modifyBlockInfo block _ Iff.rfl

theorem quiet_putChunkBit (block page : Nat) (bit : Bool) :
    Quiet dev (dev.putChunkBit block page bit) :=
  .of_table rfl rfl rfl rfl rfl rfl rfl

theorem quiet_nFreeChunks (nFreeChunks : Int) : Quiet dev { dev with nFreeChunks } :=
  .of_table rfl rfl rfl rfl rfl rfl rfl

/-! ## Reading -/

theorem quiet_readPage (chunk : Int) : Quiet dev (dev.readPage T chunk).2 :=
  .of_table rfl rfl rfl rfl rfl rfl rfl

theorem quiet_handleChunkError (block : Nat) : Quiet dev (dev.handleChunkError block) := by
  refine (dev.quiet_modifyBlockInfo block noteChunkError ?_).trans
    (.of_table rfl rfl rfl rfl rfl rfl rfl)
  unfold noteChunkError
  split <;> exact Iff.rfl

theorem quiet_rdChunkTagsNand (chunk : Nat) : Quiet dev (dev.rdChunkTagsNand T chunk).2 := by
  have read := dev.quiet_readPage T chunk
  simp only [rdChunkTagsNand]
  split
  · exact read.trans (quiet_handleChunkError _ _)
  · exact read

theorem quiet_checkChunkErased (chunk : Nat) : Quiet dev (dev.checkChunkErased T chunk).2 :=
  dev.quiet_rdChunkTagsNand T chunk

theorem quiet_verifyChunkWritten (chunk : Nat) (data : Buf) (tags : ExtTags) :
    Quiet dev (dev.verifyChunkWritten T chunk data tags).2 :=
  dev.quiet_rdChunkTagsNand T chunk

theorem quiet_verifyErased (block : Nat) : Quiet dev (dev.verifyErased T block) :=
  .foldl (fun dev page =>
    dev.quiet_checkChunkErased T (block * dev.param.chunksPerBlock + page)) _ dev

/-! ## Oldest dirty block -/

theorem quiet_findOldestDirtySeq : Quiet dev dev.findOldestDirtySeq := by
  simp only [findOldestDirtySeq]
  split
  · simp only [calcOldestDirtySeq]
    split
    · exact .refl dev
    · split
      · exact .of_table rfl rfl rfl rfl rfl rfl rfl
      · exact .refl dev
  · exact .refl dev

theorem quiet_clearOldestDirtySeq (block : Nat) : Quiet dev (dev.clearOldestDirtySeq block) := by
  simp only [clearOldestDirtySeq]
  split
  · exact .of_table rfl rfl rfl rfl rfl rfl rfl
  · exact .refl dev

theorem quiet_updateOldestDirtySeq (block : Nat) : Quiet dev (dev.updateOldestDirtySeq block) := by
  simp only [updateOldestDirtySeq]
  split
  · exact .of_table rfl rfl rfl rfl rfl rfl rfl
  · exact .refl dev

theorem quiet_blockOkForGc (block : Nat) : Quiet dev (dev.blockOkForGc block).2 := by
  simp only [blockOkForGc]
  split
  · exact .refl dev
  · exact dev.quiet_findOldestDirtySeq

theorem quiet_dropGcBlock (block : Nat) : Quiet dev (dev.dropGcBlock block) :=
  .of_table rfl rfl rfl rfl rfl rfl rfl

/-! ## Allocation -/

theorem quiet_calcCheckptBlocksRequired : Quiet dev dev.calcCheckptBlocksRequired.2 := by
  simp only [calcCheckptBlocksRequired]
  split
  · exact .refl dev
  · split <;> exact .of_table rfl rfl rfl rfl rfl rfl rfl

theorem quiet_takeAllocBlock (block : Nat) (before : dev.blockState block ≠ .checkpoint) :
    Quiet dev (dev.takeAllocBlock block) := by
  let change (info : BlockInfo) : BlockInfo :=
    { info with blockState := .allocating, seqNumber := dev.seqNumber + 1 }
  have taken : Quiet dev (dev.modifyBlockInfo block change) :=
    dev.quiet_modifyBlockInfo block change (iff_of_false (by simp [change]) before)
  exact taken.trans (.of_table rfl rfl rfl rfl rfl rfl rfl)

theorem quiet_findAllocBlockLoop (left : Nat) (dev : Dev Flash) :
    Quiet dev (findAllocBlockLoop left dev).2 := by
  induction left generalizing dev with
  | zero => exact .refl dev
  | succ left ih =>
    have stepped : Quiet dev dev.stepAllocFinder := .of_table rfl rfl rfl rfl rfl rfl rfl
    rw [findAllocBlockLoop]
    split
    case isTrue empty =>
      refine stepped.trans (quiet_takeAllocBlock _ _ ?_)
      rw [empty]
      decide
    case isFalse => exact stepped.trans (ih _)

theorem quiet_ensureAllocBlock : Quiet dev dev.ensureAllocBlock := by
  simp only [ensureAllocBlock]
  split
  · exact .refl dev
  · have found : Quiet dev dev.findAllocBlock.2 := by
      simp only [findAllocBlock]
      split
      · exact .refl dev
      · exact quiet_findAllocBlockLoop _ dev
    exact found.trans (.of_table rfl rfl rfl rfl rfl rfl rfl)

theorem quiet_skipRestOfBlock : Quiet dev dev.skipRestOfBlock := by
  simp only [skipRestOfBlock]
  split
  · split
    case isTrue allocating =>
      refine (dev.quiet_setBlockState _ .full ?_ (by decide)).trans
        (.of_table rfl rfl rfl rfl rfl rfl rfl)
      rw [allocating.2]
      decide
    case isFalse => exact .refl dev
  · exact .refl dev

theorem quiet_mayAlloc (useReserver : Bool) : Quiet dev (dev.mayAlloc useReserver).2 :=
  .ite (.refl dev) dev.quiet_calcCheckptBlocksRequired

theorem quiet_resetErasedCheck (block : Nat) : Quiet dev (dev.resetErasedCheck block) := by
  simp only [resetErasedCheck]
  split
  · exact dev.quiet_modifyBlockInfo block _ Iff.rfl
  · exact .refl dev

theorem quiet_erasedCheck (block chunk : Nat) : Quiet dev (dev.erasedCheck T block chunk).2 :=
  .ite (.refl dev) (dev.quiet_checkChunkErased T chunk)

/-! ## Summaries -/

theorem quiet_summaryClear : Quiet dev dev.summaryClear :=
  .of_table rfl rfl rfl rfl rfl rfl rfl

theorem quiet_countSummaryPage (block page : Nat) : Quiet dev (dev.countSummaryPage block page) :=
  ((dev.quiet_putChunkBit block page true).trans (quiet_addPagesInUse _ block 1)).trans
    (.of_table rfl rfl rfl rfl rfl rfl rfl)

theorem quiet_summaryGc (block : Nat) : Quiet dev (dev.summaryGc block) := by
  simp only [summaryGc]
  split
  · exact .refl dev
  · refine .foldl (fun dev page => ?_) _ dev
    simp only [dropSummaryPage]
    split
    · exact ((dev.quiet_putChunkBit block page false).trans (quiet_addPagesInUse _ block (-1))).trans
        (.of_table rfl rfl rfl rfl rfl rfl rfl)
    · exact .refl dev

/-! ## Collection -/

theorem quiet_tnodesOnly {after : Dev Flash} (only : TnodesOnly dev after) : Quiet dev after := by
  obtain ⟨_, _, _, rfl⟩ := only
  exact .of_table rfl rfl rfl rfl rfl rfl rfl

theorem quiet_gcStart (block : Nat) : Quiet dev (Fs.gcStart dev block) := by
  have collecting : Quiet dev
      (if dev.blockState block = .full then dev.setBlockState block .collecting else dev) := by
    split
    case isTrue full => exact dev.quiet_setBlockState block _ (by rw [full]; decide) (by decide)
    case isFalse => exact .refl dev
  simp only [Fs.gcStart]
  refine collecting.trans (Quiet.trans ?_ (quiet_summaryGc _ block))
  exact (quiet_modifyBlockInfo _ block (fun info => { info with hasShrinkHdr := false })
    Iff.rfl).trans (.of_table rfl rfl rfl rfl rfl rfl rfl)

theorem quiet_findRefreshBlock : Quiet dev dev.findRefreshBlock.2 := by
  simp only [findRefreshBlock]
  split
  · exact .refl dev
  · split <;> exact .of_table rfl rfl rfl rfl rfl rfl rfl

theorem quiet_findPrioritised (blocks : List Nat) (found : Bool) (dev : Dev Flash) :
    Quiet dev (findPrioritised blocks found dev).2 := by
  induction blocks generalizing found dev with
  | nil => exact .refl dev
  | cons block rest ih =>
    simp only [findPrioritised]
    split
    · split
      · have allowed := dev.quiet_blockOkForGc block
        split
        · exact allowed
        · exact allowed.trans (ih true _)
      · exact ih true dev
    · exact ih found dev

theorem quiet_selectPrioritised : Quiet dev dev.selectPrioritised.2 := by
  have cleared : Quiet dev { dev with gcDirtiest := 0 } := .of_table rfl rfl rfl rfl rfl rfl rfl
  have found := cleared.trans (quiet_findPrioritised dev.blockList false _)
  simp only [selectPrioritised]
  split
  · exact found
  · exact found.trans (.of_table rfl rfl rfl rfl rfl rfl rfl)

theorem quiet_considerDirty : Quiet dev dev.considerDirty := by
  have stepped : Quiet dev dev.stepGcFinder := .of_table rfl rfl rfl rfl rfl rfl rfl
  simp only [considerDirty]
  split
  · have allowed := stepped.trans (quiet_blockOkForGc _ dev.stepGcFinder.gcBlockFinder)
    split
    · exact allowed.trans (.of_table rfl rfl rfl rfl rfl rfl rfl)
    · exact allowed
  · exact stepped

theorem quiet_searchDirty (left : Nat) (dev : Dev Flash) : Quiet dev (searchDirty left dev) := by
  induction left generalizing dev with
  | zero => exact .refl dev
  | succ left ih =>
    rw [searchDirty]
    split
    · exact dev.quiet_considerDirty.trans (ih _)
    · exact .refl dev

theorem quiet_selectOldest (background : Bool) : Quiet dev (dev.selectOldest background).2 := by
  have found := dev.quiet_findOldestDirtySeq
  exact .ite (.ite found (found.trans (.of_table rfl rfl rfl rfl rfl rfl rfl))) (.refl dev)

theorem quiet_noteSelection (selected : Nat) : Quiet dev (dev.noteSelection selected) := by
  simp only [noteSelection]
  split <;> exact .of_table rfl rfl rfl rfl rfl rfl rfl

theorem quiet_findGcBlock (aggressive background : Bool) :
    Quiet dev (dev.findGcBlock aggressive background).2 := by
  let prioritised :=
    if dev.hasPendingPrioritisedGc ∧ ¬aggressive then dev.selectPrioritised else (0, dev)
  let dirtiest :=
    if prioritised.1 = 0 then prioritised.2.selectDirtiest aggressive background else prioritised
  have first : Quiet dev prioritised.2 := .ite dev.quiet_selectPrioritised (.refl dev)
  have second : Quiet dev dirtiest.2 := first.trans (.ite (quiet_searchDirty _ _) (.refl _))
  have third : Quiet dev
      (if dirtiest.1 = 0 then dirtiest.2.selectOldest background else dirtiest).2 :=
    second.trans (.ite (quiet_selectOldest _ background) (.refl _))
  exact third.trans (quiet_noteSelection _ _)

end Yaffs.Dev
