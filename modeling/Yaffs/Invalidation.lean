import Yaffs.Quiet
import Yaffs.CheckpointCursor
import Yaffs.Scan

/-!
# Invalidation before the flash is changed

The guts layer never changes the flash under a checkpoint.  Whatever page it programs, whatever block
it erases or retires, the checkpoint has been invalidated before: its flags are down, no block is in
the checkpoint state, and every block that was has been given up since.
-/

namespace Yaffs

open Growth

/-- The block is given up: erased, marked bad, or retired where no block is ever marked bad. -/
def Event.Discards (param : Param) (block : Nat) (event : Event) : Prop :=
  event.Frees block ∨ param.disableBadBlockMarking = true ∧ event.op = .retire block

/-- At the moment of the entry there is no checkpoint. -/
def Event.Clear (blocks : Finset Nat) (event : Event) : Prop :=
  event.isCheckpointed = false ∧ event.blocksInCheckpt = 0 ∧
    ∀ block ∈ blocks, event.blockState block ≠ .checkpoint

/-- The entry was made by the guts layer. -/
def Event.ByGuts (event : Event) : Prop := event.layer = .guts

theorem Event.IsCheckptErasure.not_byGuts {event : Event} (erasure : event.IsCheckptErasure) :
    ¬event.ByGuts := by
  intro guts
  rw [Event.ByGuts, erasure.1] at guts
  cases guts

namespace Dev

variable {Flash : Type} (T : Tagger Flash)

/-- There is no checkpoint. -/
structure Clear (dev : Dev Flash) : Prop where
  isCheckpointed : dev.isCheckpointed = false
  blocksInCheckpt : dev.blocksInCheckpt = 0
  blockState : ∀ block ∈ dev.blocks, dev.blockState block ≠ .checkpoint

/-- Blocks in the checkpoint state are announced by one of the two fields that the invalidation
looks at. -/
def Tracked (dev : Dev Flash) : Prop :=
  dev.isCheckpointed = false → dev.blocksInCheckpt = 0 → dev.Clear

/-- The log since `start`: entries of the guts layer are made without a checkpoint only, and after
every block that was in the checkpoint state has been given up.  A block other than the pending ones
that was in the checkpoint state still is, or has been given up. -/
def LogOrderly (pending : Nat → Prop) (start dev : Dev Flash) : Prop :=
  ∃ added, dev.log = added ++ start.log ∧
    (∀ event ∈ added, event.ByGuts → event.Clear start.blocks) ∧
    ∀ block ∈ start.blocks, start.blockState block = .checkpoint →
      Preceded Event.ByGuts (Event.Discards start.param block) added ∧
        (pending block ∨ dev.blockState block = .checkpoint ∨
          ∃ event ∈ added, event.Discards start.param block)

/-- A device on the way through operations that started in `start`. -/
structure Following (pending : Nat → Prop) (start dev : Dev Flash) : Prop where
  param : dev.param = start.param
  startBlock : dev.internalStartBlock = start.internalStartBlock
  endBlock : dev.internalEndBlock = start.internalEndBlock
  log : LogOrderly pending start dev

/-- Such a device between two operations. -/
structure Orderly (pending : Nat → Prop) (start dev : Dev Flash) : Prop
    extends Following pending start dev where
  tracked : dev.Tracked

/-- An orderly device without a checkpoint: the flash may be changed. -/
structure Ready (start dev : Dev Flash) : Prop extends Orderly (fun _ => False) start dev where
  clear : dev.Clear

variable {T} {start dev after : Dev Flash} {pending : Nat → Prop}

theorem Clear.tracked (clear : dev.Clear) : dev.Tracked := fun _ _ => clear

theorem Following.blocks (following : Following pending start dev) :
    dev.blocks = start.blocks := by
  rw [Dev.blocks, Dev.blocks, following.startBlock, following.endBlock]

theorem Orderly.refl (tracked : start.Tracked) : Orderly (fun _ => False) start start where
  param := rfl
  startBlock := rfl
  endBlock := rfl
  log := ⟨[], rfl, by simp, fun _ _ before => ⟨.nil, .inr (.inl before)⟩⟩
  tracked := tracked

/-! ## Quiet changes -/

theorem Clear.quiet (clear : dev.Clear) (quiet : Quiet dev after) : after.Clear where
  isCheckpointed := quiet.isCheckpointed.trans clear.isCheckpointed
  blocksInCheckpt := quiet.blocksInCheckpt.trans clear.blocksInCheckpt
  blockState block block_mem := by
    have block_mem' : block ∈ dev.blocks := quiet.blocks ▸ block_mem
    rw [Ne, quiet.checkpoint block block_mem']
    exact clear.blockState block block_mem'

theorem Orderly.quiet (orderly : Orderly pending start dev) (quiet : Quiet dev after) :
    Orderly pending start after where
  param := quiet.param.trans orderly.param
  startBlock := quiet.startBlock.trans orderly.startBlock
  endBlock := quiet.endBlock.trans orderly.endBlock
  log := by
    obtain ⟨added, log_eq, clear, given_up⟩ := orderly.log
    refine ⟨added, quiet.log.trans log_eq, clear, fun block block_mem before => ?_⟩
    rw [quiet.checkpoint block (orderly.blocks ▸ block_mem)]
    exact given_up block block_mem before
  tracked not_checkpointed no_blocks :=
    (orderly.tracked (quiet.isCheckpointed ▸ not_checkpointed)
      (quiet.blocksInCheckpt ▸ no_blocks)).quiet quiet

theorem Ready.quiet (ready : Ready start dev) (quiet : Quiet dev after) : Ready start after :=
  { ready.toOrderly.quiet quiet with clear := ready.clear.quiet quiet }

/-! ## Entries -/

theorem Clear.entry (clear : dev.Clear) (layer : Layer) (op : FlashOp) :
    (dev.entry layer op).Clear dev.blocks :=
  ⟨clear.isCheckpointed, clear.blocksInCheckpt, clear.blockState⟩

/-- An entry on a clear device settles all blocks, if it gives up the pending ones. -/
theorem Orderly.emit_guts (orderly : Orderly pending start dev) (clear : dev.Clear) {event : Event}
    (event_clear : event.Clear dev.blocks)
    (settles : ∀ block, pending block → event.Discards start.param block) (flash : Flash) :
    Ready start { dev with log := event :: dev.log, flash } where
  param := orderly.param
  startBlock := orderly.startBlock
  endBlock := orderly.endBlock
  log := by
    obtain ⟨added, log_eq, added_clear, given_up⟩ := orderly.log
    refine ⟨event :: added, congrArg (event :: ·) log_eq, ?_, ?_⟩
    · intro entry entry_mem guts
      rcases List.mem_cons.mp entry_mem with rfl | earlier
      · exact orderly.blocks ▸ event_clear
      · exact added_clear entry earlier guts
    · intro block block_mem before
      obtain ⟨preceded, status⟩ := given_up block block_mem before
      have settled : ∃ entry ∈ event :: added, entry.Discards start.param block := by
        rcases status with waits | still | ⟨event, event_mem, discards⟩
        · exact ⟨_, List.mem_cons_self, settles block waits⟩
        · exact absurd still (clear.blockState block (orderly.blocks ▸ block_mem))
        · exact ⟨event, List.mem_cons_of_mem _ event_mem, discards⟩
      exact ⟨.cons (fun _ => settled) preceded, .inr (.inr settled)⟩
  tracked := Clear.tracked { clear with }
  clear := { clear with }

theorem Ready.emit_guts (ready : Ready start dev) (op : FlashOp) (flash : Flash) :
    Ready start { dev.emit .guts op with flash } :=
  ready.toOrderly.emit_guts ready.clear (ready.clear.entry _ op) (fun _ waits => waits.elim) flash

theorem Ready.programPage (ready : Ready start dev) (chunk : Int) (data : Option Buf)
    (tags : ExtTags) : Ready start (dev.programPage T .guts chunk data tags).2 :=
  have clear : (dev.programEntry .guts chunk tags).Clear dev.blocks :=
    ready.clear.entry .guts (.program chunk)
  ready.toOrderly.emit_guts ready.clear clear (fun _ waits => waits.elim) _

theorem Ready.eraseBlock (ready : Ready start dev) (block : Nat) :
    Ready start (dev.eraseBlock T block).2 :=
  ready.emit_guts _ _

/-- Erasures by the checkpoint layer keep the log orderly. -/
theorem LogOrderly.checkpt_entries (orderly : LogOrderly pending start dev) {added : List Event}
    (log_eq : after.log = added ++ dev.log) (erasures : ∀ event ∈ added, event.IsCheckptErasure)
    (frees : ∀ block, dev.blockState block = .checkpoint →
      after.blockState block = .checkpoint ∨ ∃ event ∈ added, event.Frees block) :
    LogOrderly pending start after := by
  obtain ⟨early, early_eq, clear, given_up⟩ := orderly
  refine ⟨added ++ early, by rw [log_eq, early_eq, List.append_assoc], ?_, ?_⟩
  · intro event event_mem guts
    rcases List.mem_append.mp event_mem with in_added | in_early
    · exact absurd guts (erasures event in_added).not_byGuts
    · exact clear event in_early guts
  · intro block block_mem before
    obtain ⟨preceded, status⟩ := given_up block block_mem before
    refine ⟨preceded.append_of_not fun event event_mem => (erasures event event_mem).not_byGuts, ?_⟩
    rcases status with waits | still | ⟨event, event_mem, discards⟩
    · exact .inl waits
    · rcases frees block still with still | ⟨event, event_mem, frees⟩
      · exact .inr (.inl still)
      · exact .inr (.inr ⟨event, List.mem_append_left _ event_mem, .inl frees⟩)
    · exact .inr (.inr ⟨event, List.mem_append_right _ event_mem, discards⟩)

/-! ## The invalidation -/

/-- The erasure of the checkpoint leaves the device clear, if the flag is down already. -/
theorem Following.erase (following : Following pending start dev)
    (not_checkpointed : dev.isCheckpointed = false) :
    Orderly pending start (dev.checkptErase T) ∧ (dev.checkptErase T).Clear := by
  have states := dev.checkptErase_blockState T
  obtain ⟨added, log_eq, erasures, frees⟩ := dev.checkptErase_log T
  have log := following.log.checkpt_entries log_eq erasures frees
  obtain ⟨flash, _, blockInfo, nErased, nFree, eq⟩ := dev.checkptErase_frame T
  have clear : (dev.checkptErase T).Clear := by
    refine ⟨by rw [eq]; exact not_checkpointed, by rw [eq], fun block block_mem => ?_⟩
    refine (states block).2 ?_
    rw [eq] at block_mem
    exact block_mem
  refine ⟨⟨⟨?_, ?_, ?_, log⟩, clear.tracked⟩, clear⟩
  · rw [eq]; exact following.param
  · rw [eq]; exact following.startBlock
  · rw [eq]; exact following.endBlock

/-- After the invalidation the device is clear. -/
theorem Orderly.invalidate (orderly : Orderly pending start dev) :
    Orderly pending start (dev.checkptInvalidate T) ∧ (dev.checkptInvalidate T).Clear := by
  by_cases present : dev.isCheckpointed = true ∨ 0 < dev.blocksInCheckpt
  · have lowered : Following pending start { dev with isCheckpointed := false } :=
      { orderly with }
    simp only [checkptInvalidate, if_pos present]
    exact lowered.erase rfl
  · have eq : dev.checkptInvalidate T = dev := by simp only [checkptInvalidate, if_neg present]
    rw [not_or] at present
    rw [eq]
    exact ⟨orderly, orderly.tracked (by simpa using present.1) (by omega)⟩

/-! ## The end of a block -/

/-- A block that becomes dirty is pending until the flash operation that gives it up. -/
theorem Orderly.setDirty (orderly : Orderly (fun _ => False) start dev) (block : Nat) :
    Orderly (· = block) start (dev.setBlockState block .dirty) where
  param := orderly.param
  startBlock := orderly.startBlock
  endBlock := orderly.endBlock
  log := by
    obtain ⟨added, log_eq, clear, given_up⟩ := orderly.log
    refine ⟨added, log_eq, clear, fun other other_mem before => ?_⟩
    obtain ⟨preceded, status⟩ := given_up other other_mem before
    refine ⟨preceded, ?_⟩
    rcases status with waits | still | discarded
    · exact waits.elim
    · by_cases same : other = block
      · exact .inl same
      · exact .inr (.inl (by rw [blockState_setBlockState, if_neg same]; exact still))
    · exact .inr (.inr discarded)
  tracked not_checkpointed no_blocks := by
    have clear := orderly.tracked not_checkpointed no_blocks
    refine ⟨not_checkpointed, no_blocks, fun other other_mem => ?_⟩
    rw [blockState_setBlockState]
    split
    · decide
    · exact clear.blockState other other_mem

/-- On a clear device every change of a block is quiet that does not take it into the checkpoint
state. -/
theorem Clear.quiet_modifyBlockInfo (clear : dev.Clear) (block : Nat)
    (change : BlockInfo → BlockInfo)
    (not_checkpoint : (change (dev.blockInfo block)).blockState ≠ .checkpoint) :
    Quiet dev (dev.modifyBlockInfo block change) where
  param := rfl
  startBlock := rfl
  endBlock := rfl
  isCheckpointed := rfl
  blocksInCheckpt := rfl
  log := rfl
  checkpoint other other_mem := by
    refine iff_of_false ?_ (clear.blockState other other_mem)
    rw [blockState_modifyBlockInfo]
    split
    · exact not_checkpoint
    · exact clear.blockState other other_mem

theorem Clear.quiet_setBlockState (clear : dev.Clear) (block : Nat) {state : BlockState}
    (not_checkpoint : state ≠ .checkpoint) : Quiet dev (dev.setBlockState block state) :=
  clear.quiet_modifyBlockInfo block _ not_checkpoint

/-- A retirement gives its block up, with the marking or, where that is disabled, by itself. -/
theorem Orderly.retireBlock {block : Nat} (orderly : Orderly pending start dev)
    (only : ∀ other, pending other → other = block) : Ready start (dev.retireBlock T block) := by
  obtain ⟨invalidated, clear⟩ := orderly.invalidate (T := T)
  have forgotten := quiet_clearOldestDirtySeq (dev.checkptInvalidate T) block
  have orderly := invalidated.quiet forgotten
  have clear := clear.quiet forgotten
  have retired (dev : Dev Flash) (retired : Ready start (dev.emit .guts (.retire block))) :
      Ready start ((dev.emit .guts (.retire block)).modifyBlockInfo block fun info =>
        { info with blockState := .dead, gcPrioritise := false, needsRetiring := false }) :=
    retired.quiet (retired.clear.quiet_modifyBlockInfo block _ (by simp))
  simp only [Dev.retireBlock, markBad]
  by_cases disabled :
      ((dev.checkptInvalidate T).clearOldestDirtySeq block).param.disableBadBlockMarking = true
  · simp only [disabled, if_true]
    refine retired _ (orderly.emit_guts clear (clear.entry _ _) (fun other waits => .inr ⟨?_, ?_⟩) _)
    · rwa [orderly.param] at disabled
    · rw [only other waits]
      rfl
  · simp only [disabled, Bool.false_eq_true, if_false]
    have discards (other : Nat) (waits : pending other) :
        (((dev.checkptInvalidate T).clearOldestDirtySeq block).entry .guts (.markBad block)).Discards
          start.param other :=
      .inl (.inr (by rw [only other waits]; rfl))
    have marked (flash : Flash) := orderly.emit_guts clear (clear.entry _ _) discards flash
    refine retired _ (Ready.emit_guts ?_ _ _)
    split
    · exact marked _
    · split
      · exact ((marked _).eraseBlock block).programPage _ _ _
      · exact (marked _).eraseBlock block

theorem Ready.cleanBlock (ready : Ready start dev) (block : Nat) :
    Ready start (dev.cleanBlock block) := by
  have cleaned := ready.clear.quiet_modifyBlockInfo block erasedInfo (by simp [erasedInfo])
  exact ready.quiet (cleaned.trans (.of_table rfl rfl rfl rfl rfl rfl rfl))

/-- A dirty block is given up whether it is erased or retired. -/
theorem Orderly.blockBecameDirty (orderly : Orderly (fun _ => False) start dev) (block : Nat) :
    Ready start (dev.blockBecameDirty T block) := by
  have dirty : Orderly (· = block) start (dev.soilBlock block) :=
    ((orderly.quiet (dev.quiet_clearOldestDirtySeq block)).setDirty block).quiet
      (quiet_dropGcBlock _ block)
  simp only [Dev.blockBecameDirty, eraseDirtyBlock]
  by_cases unhealthy : ((dev.soilBlock block).blockInfo block).needsRetiring = true
  · simp only [unhealthy, if_true, Bool.false_eq_true, if_false]
    exact (dirty.quiet (quiet_nFreeChunks _ _)).retireBlock fun _ waits => waits
  · simp only [unhealthy, Bool.false_eq_true, if_false]
    obtain ⟨invalidated, clear⟩ := dirty.invalidate (T := T)
    have erased : Ready start (((dev.soilBlock block).checkptInvalidate T).eraseBlock T block).2 :=
      invalidated.emit_guts clear (clear.entry _ _) (fun other waits => .inl (.inl (by
        rw [show other = block from waits]
        rfl))) _
    split
    · refine Ready.cleanBlock ?_ block
      split
      · exact erased.quiet (quiet_verifyErased T _ block)
      · exact erased
    · exact (erased.toOrderly.quiet (quiet_nFreeChunks _ _)).retireBlock fun _ waits => waits.elim

/-! ## Deleting pages -/

/-- A property of a device with the new format that quiet changes and the end of a block
preserve. -/
structure GutsInvariant (T : Tagger Flash) (inv : Dev Flash → Prop) : Prop where
  isYaffs2 : ∀ dev, inv dev → dev.param.isYaffs2 = true
  quiet : ∀ dev after, inv dev → Quiet dev after → inv after
  dirty : ∀ dev block, inv dev → inv (dev.blockBecameDirty T block)

namespace GutsInvariant

variable {inv : Dev Flash → Prop} (rule : GutsInvariant T inv)

include rule

theorem releasePage (block page : Nat) (holds : inv dev) :
    inv (dev.releasePage T block page) := by
  simp only [Dev.releasePage]
  split
  · have released : inv (({ dev with nFreeChunks := dev.nFreeChunks + 1 } : Dev Flash)
        |>.clearChunkBit block page |>.addPagesInUse block (-1)) := by
      refine rule.quiet dev _ holds ((dev.quiet_nFreeChunks (dev.nFreeChunks + 1)).trans ?_)
      exact Quiet.trans (quiet_putChunkBit _ block page false) (quiet_addPagesInUse _ block (-1))
    split
    · exact rule.dirty _ block released
    · exact released
  · exact holds

theorem chunkDel (chunk : Int) (markFlash : Bool) (holds : inv dev) :
    inv (dev.chunkDel T chunk markFlash) := by
  simp only [Dev.chunkDel]
  split
  · exact holds
  · have updated := rule.quiet dev _ holds
      (dev.quiet_updateOldestDirtySeq (chunk.toNat / dev.param.chunksPerBlock))
    have not_old := rule.isYaffs2 _ updated
    simp only [not_old, not_true, false_and, if_false]
    exact rule.releasePage _ _ updated

theorem handleChunkWrError (chunk : Nat) (erasedOk : Bool) (holds : inv dev) :
    inv (dev.handleChunkWrError T chunk erasedOk) := by
  simp only [Dev.handleChunkWrError]
  refine rule.quiet _ _ (rule.chunkDel _ _ ?_) (quiet_skipRestOfBlock _)
  have noted := rule.quiet dev _ holds
    (dev.quiet_handleChunkError (chunk / dev.param.chunksPerBlock))
  split
  · exact rule.quiet _ _ noted (quiet_modifyBlockInfo _ _ _ Iff.rfl)
  · exact noted

end GutsInvariant

theorem orderly_guts (isYaffs2 : start.param.isYaffs2 = true) :
    GutsInvariant T (Orderly (fun _ => False) start) where
  isYaffs2 _ orderly := by rw [orderly.param, isYaffs2]
  quiet _ _ orderly quiet := orderly.quiet quiet
  dirty _ block orderly := (orderly.blockBecameDirty block).toOrderly

theorem ready_guts (isYaffs2 : start.param.isYaffs2 = true) : GutsInvariant T (Ready start) where
  isYaffs2 _ ready := by rw [ready.param, isYaffs2]
  quiet _ _ ready quiet := ready.quiet quiet
  dirty _ block ready := ready.toOrderly.blockBecameDirty block

/-! ## Writing pages -/

namespace Ready

theorem summaryWriteLoop (block : Nat) (header : List UInt8) (chunk : Int) (fuel index : Nat)
    (bytes : List UInt8) (ready : Ready start dev) :
    Ready start (summaryWriteLoop T block header chunk fuel index bytes dev).2 := by
  induction fuel generalizing index bytes dev with
  | zero => exact ready
  | succ fuel ih =>
    simp only [Dev.summaryWriteLoop]
    split
    · exact ready.programPage _ _ _
    · split
      · exact (ready.programPage _ _ _).quiet (quiet_countSummaryPage _ block _)
      · exact ih _ _ ((ready.programPage _ _ _).quiet (quiet_countSummaryPage _ block _))

theorem summaryAdd (tags : ExtTags) (chunk : Nat) (ready : Ready start dev) :
    Ready start (dev.summaryAdd T tags chunk) := by
  simp only [Dev.summaryAdd]
  split
  · exact ready
  · split
    · have noted (sumTags : Option (Nat → SummaryTags)) : Ready start { dev with sumTags } :=
        ready.quiet (.of_table rfl rfl rfl rfl rfl rfl rfl)
      split
      · refine ((Ready.quiet ?_ (quiet_summaryClear _)).quiet (quiet_skipRestOfBlock _))
        simp only [Dev.summaryWrite]
        split
        · exact ((noted _).summaryWriteLoop _ _ _ _ _ _).quiet
            (quiet_modifyBlockInfo _ _ _ Iff.rfl)
        · exact (noted _).summaryWriteLoop _ _ _ _ _ _
      · exact noted _
    · exact ready

theorem wrChunkTagsNand (chunk : Nat) (data : Option Buf) (tags : ExtTags)
    (ready : Ready start dev) : Ready start (dev.wrChunkTagsNand T chunk data tags).2 :=
  (ready.programPage chunk data _).summaryAdd _ chunk

theorem takeAllocPage (block : Nat) (ready : Ready start dev) :
    Ready start (dev.takeAllocPage block) := by
  let taken : Dev Flash :=
    { (dev.addPagesInUse block 1).setChunkBit block dev.allocPage with
      allocPage := dev.allocPage + 1
      nFreeChunks := dev.nFreeChunks - 1 }
  have counted : Quiet dev taken :=
    ((dev.quiet_addPagesInUse block 1).trans
      (quiet_putChunkBit _ block dev.allocPage true)).trans
      (.of_table rfl rfl rfl rfl rfl rfl rfl)
  have filled : Quiet taken { taken.setBlockState block .full with allocBlock := none } :=
    ((ready.clear.quiet counted).quiet_setBlockState block (by decide)).trans
      (.of_table rfl rfl rfl rfl rfl rfl rfl)
  simp only [Dev.takeAllocPage]
  split
  · exact ready.quiet (counted.trans filled)
  · exact ready.quiet counted

theorem allocChunk (useReserver : Bool) (ready : Ready start dev) :
    Ready start (dev.allocChunk useReserver).2 := by
  have available := (ready.quiet dev.quiet_ensureAllocBlock).quiet
    (dev.ensureAllocBlock.quiet_mayAlloc useReserver)
  simp only [Dev.allocChunk]
  split
  · exact available
  · split
    · exact available.takeAllocPage _
    · exact available

theorem wrVerified (block chunk : Nat) (data : Buf) (tags : ExtTags) (ready : Ready start dev) :
    Ready start (dev.wrVerified T block chunk data tags).2 := by
  have written : Ready start (dev.wrChunkTagsNand T chunk (some data) tags).2 :=
    ready.wrChunkTagsNand chunk (some data) tags
  simp only [Dev.wrVerified]
  split
  · exact written
  · exact written.quiet (quiet_verifyChunkWritten T _ chunk data tags)

theorem tryChunk (isYaffs2 : start.param.isYaffs2 = true) (block page : Nat) (data : Buf)
    (tags : ExtTags) (ready : Ready start dev) :
    Ready start (dev.tryChunk T block page data tags).2 := by
  have rule := ready_guts (T := T) isYaffs2
  have prepared := ready.quiet (dev.quiet_resetErasedCheck block)
  have erased := prepared.quiet (quiet_erasedCheck T _ block
    (block * dev.param.chunksPerBlock + page))
  have verified := erased.wrVerified (T := T) block (block * dev.param.chunksPerBlock + page)
    data tags
  have checked (dev : Dev Flash) : Quiet dev (dev.modifyBlockInfo block fun info =>
      { info with skipErasedCheck := true }) := dev.quiet_modifyBlockInfo block _ Iff.rfl
  simp only [Dev.tryChunk]
  split
  · exact (rule.chunkDel _ true erased).quiet (quiet_skipRestOfBlock _)
  · split
    · exact verified.quiet (checked _)
    · exact rule.handleChunkWrError _ _ verified

theorem writeNewChunkLoop (isYaffs2 : start.param.isYaffs2 = true) (data : Buf) (tags : ExtTags)
    (useReserver : Bool) (fuel attempts : Nat) (ready : Ready start dev) :
    Ready start (writeNewChunkLoop T data tags useReserver fuel attempts dev).2 := by
  induction fuel generalizing attempts dev with
  | zero => exact ready
  | succ fuel ih =>
    have allocated := ready.allocChunk useReserver
    simp only [Dev.writeNewChunkLoop]
    split
    · exact allocated
    case h_2 block page _ =>
      have tried := allocated.tryChunk (T := T) isYaffs2 block page data tags
      split
      · exact tried
      · split
        · exact ih _ tried
        · exact tried

end Ready

/-- A new page is written on a clear device only. -/
theorem Orderly.writeNewChunk (isYaffs2 : start.param.isYaffs2 = true)
    (orderly : Orderly (fun _ => False) start dev) (data : Buf) (tags : ExtTags)
    (useReserver : Bool) : Ready start (dev.writeNewChunk T data tags useReserver).2 := by
  obtain ⟨invalidated, clear⟩ := orderly.invalidate (T := T)
  exact Ready.writeNewChunkLoop isYaffs2 data tags useReserver _ 0 { invalidated with clear }

/-! ## Saves -/

/-- The log since `start` once every block that was in the checkpoint state has been given up. -/
def LogSettled (start dev : Dev Flash) : Prop :=
  ∃ added, dev.log = added ++ start.log ∧
    (∀ event ∈ added, event.ByGuts → event.Clear start.blocks) ∧
    ∀ block ∈ start.blocks, start.blockState block = .checkpoint →
      Preceded Event.ByGuts (Event.Discards start.param block) added ∧
        ∃ event ∈ added, event.Discards start.param block

/-- Between the opening and the closing of the stream a save announces the blocks it takes over. -/
structure Saving (start dev : Dev Flash) : Prop where
  param : dev.param = start.param
  startBlock : dev.internalStartBlock = start.internalStartBlock
  endBlock : dev.internalEndBlock = start.internalEndBlock
  log : LogSettled start dev
  announced : dev.blocksInCheckpt = 0 → ∀ block ∈ dev.blocks, dev.blockState block ≠ .checkpoint

theorem Ready.saving (ready : Ready start dev) : Saving start dev where
  param := ready.param
  startBlock := ready.startBlock
  endBlock := ready.endBlock
  log := by
    obtain ⟨added, log_eq, clear, given_up⟩ := ready.log
    refine ⟨added, log_eq, clear, fun block block_mem before => ?_⟩
    obtain ⟨preceded, waits | still | discarded⟩ := given_up block block_mem before
    · exact waits.elim
    · exact absurd still (ready.clear.blockState block (ready.blocks ▸ block_mem))
    · exact ⟨preceded, discarded⟩
  announced _ := ready.clear.blockState

theorem LogSettled.checkpt_entry (settled : LogSettled start dev) {event : Event}
    (checkpt : ¬event.ByGuts) (log_eq : after.log = event :: dev.log) : LogSettled start after := by
  obtain ⟨added, added_eq, clear, given_up⟩ := settled
  refine ⟨event :: added, by rw [log_eq, added_eq, List.cons_append], ?_, ?_⟩
  · intro entry entry_mem guts
    rcases List.mem_cons.mp entry_mem with rfl | earlier
    · exact absurd guts checkpt
    · exact clear entry earlier guts
  · intro block block_mem before
    obtain ⟨preceded, entry, entry_mem, discards⟩ := given_up block block_mem before
    exact ⟨.cons (fun guts => absurd guts checkpt) preceded, entry, List.mem_cons_of_mem _ entry_mem,
      discards⟩

namespace Saving

theorem orderly (saving : Saving start dev) : Orderly (fun _ => False) start dev where
  param := saving.param
  startBlock := saving.startBlock
  endBlock := saving.endBlock
  log := by
    obtain ⟨added, log_eq, clear, given_up⟩ := saving.log
    exact ⟨added, log_eq, clear, fun block block_mem before =>
      ⟨(given_up block block_mem before).1, .inr (.inr (given_up block block_mem before).2)⟩⟩
  tracked not_checkpointed no_blocks :=
    ⟨not_checkpointed, no_blocks, saving.announced no_blocks⟩

/-- A change of the cursor and the buffer alone. -/
theorem quiet (saving : Saving start dev) (quiet : Quiet dev after) : Saving start after where
  param := quiet.param.trans saving.param
  startBlock := quiet.startBlock.trans saving.startBlock
  endBlock := quiet.endBlock.trans saving.endBlock
  log := by
    obtain ⟨added, log_eq, rest⟩ := saving.log
    exact ⟨added, quiet.log.trans log_eq, rest⟩
  announced no_blocks block block_mem := by
    have block_mem' : block ∈ dev.blocks := quiet.blocks ▸ block_mem
    rw [Ne, quiet.checkpoint block block_mem']
    exact saving.announced (quiet.blocksInCheckpt ▸ no_blocks) block block_mem'

theorem takeBlock (saving : Saving start dev) : Saving start dev.checkptTakeBlock := by
  simp only [checkptTakeBlock]
  split
  · exact { saving with announced := fun no_blocks => by simp at no_blocks }
  · exact saving

theorem enterBlock (saving : Saving start dev) : Saving start dev.checkptEnterBlock := by
  simp only [checkptEnterBlock]
  split
  · rcases dev.checkptFindErasedBlock_cases with eq | ⟨_, _, _, _, _, eq⟩
    all_goals
      rw [eq]
      exact saving.quiet (.of_table rfl rfl rfl rfl rfl rfl rfl)
  · exact saving

theorem flush (saving : Saving start dev) : Saving start (dev.checkptFlushBuffer T).2 := by
  have entered := saving.enterBlock
  rcases dev.checkptFlushBuffer_cases T with ⟨_, eq⟩ | ⟨_, _, _, _, eq⟩
  · rw [eq]
    exact entered
  · have taken := entered.takeBlock
    rw [eq]
    exact
      { taken with
        log := taken.log.checkpt_entry (fun guts => by cases guts) rfl }

theorem rule : WriterInvariant T (Saving start) where
  putByte _ _ saving := saving.quiet (.of_table rfl rfl rfl rfl rfl rfl rfl)
  flush _ saving := saving.flush

end Saving

/-- Opening the stream for writing leaves a clear device clear. -/
theorem Ready.open (ready : Ready start dev) : Ready start (dev.checkptOpen T true).2 := by
  simp only [checkptOpen, if_true]
  split
  · exact ready.quiet (.of_table rfl rfl rfl rfl rfl rfl rfl)
  · let opened :=
      ({ dev with checkptOpenWrite := true } : Dev Flash).checkptRewind.clearCheckptBuffer
        |>.checkptInitChunkHdr
    have opened_ready : Ready start opened :=
      ready.quiet (.of_table rfl rfl rfl rfl rfl rfl rfl)
    obtain ⟨erased, clear⟩ := opened_ready.erase (T := T) opened_ready.clear.isCheckpointed
    exact { erased with clear }

/-- Closing the stream adopts blocks only if there are some to announce. -/
theorem Saving.close (saving : Saving start dev) : Saving start (dev.checkptClose T).2 := by
  have adopt (dev : Dev Flash) (saving : Saving start dev) (some_blocks : dev.blocksInCheckpt ≠ 0)
      (blocks : List Int) : Saving start (blocks.foldl checkptAdoptBlock dev) := by
    induction blocks generalizing dev with
    | nil => exact saving
    | cons block blocks ih =>
      refine ih _ ?_ ?_
      · simp only [checkptAdoptBlock]
        split
        · exact { saving with announced := fun no_blocks => absurd no_blocks some_blocks }
        · exact saving
      · simp only [checkptAdoptBlock]
        split <;> exact some_blocks
  have finished : Saving start (dev.checkptFinish T) := by
    simp only [checkptFinish]
    split
    · split
      · exact saving.flush
      · exact saving
    · split
      · by_cases no_blocks : dev.blocksInCheckpt = 0
        · simpa [no_blocks] using saving
        · exact adopt dev saving no_blocks _
      · exact saving
  exact finished.quiet (.of_table rfl rfl rfl rfl rfl rfl rfl)

/-- A save keeps the device orderly. -/
theorem Orderly.checkpointSave (orderly : Orderly (fun _ => False) start dev)
    (buckets : List (List (List (List UInt8)))) :
    Orderly (fun _ => False) start (dev.checkpointSave T buckets) := by
  simp only [Dev.checkpointSave]
  split
  · exact orderly
  · obtain ⟨invalidated, clear⟩ := orderly.invalidate (T := T)
    have ready : Ready start (dev.checkptInvalidate T) := { invalidated with clear }
    have opened : Ready start
        (if (dev.checkptInvalidate T).checkptRequired then
          (dev.checkptInvalidate T).checkptOpen T true
        else (false, dev.checkptInvalidate T)).2 := by
      split
      · exact ready.open
      · exact ready
    have written := WriterInvariant.andThen (fun dev => dev.wrCheckptParts T buckets)
      opened.saving (Saving.rule.wrParts buckets)
    have closed := written.close (T := T)
    exact Saving.orderly { closed with }

end Dev

/-! ## Collection -/

namespace Fs

open Dev

variable {Flash : Type} {T : Tagger Flash} {start : Dev Flash} {fs : Fs Flash}

/-- The device of the file system is orderly. -/
def Orderly (start : Dev Flash) (fs : Fs Flash) : Prop :=
  Dev.Orderly (fun _ => False) start fs.dev

namespace Orderly

theorem quiet {after : Fs Flash} (orderly : Orderly start fs) (quiet : Quiet fs.dev after.dev) :
    Orderly start after :=
  Dev.Orderly.quiet orderly quiet

theorem mapDev {change : Dev Flash → Dev Flash} (orderly : Orderly start fs)
    (quiet : ∀ dev, Quiet dev (change dev)) : Orderly start (fs.mapDev change) :=
  orderly.quiet (quiet fs.dev)

variable (isYaffs2 : start.param.isYaffs2 = true)

include isYaffs2

theorem chunkDel (orderly : Orderly start fs) (chunk : Int) (markFlash : Bool) :
    Orderly start (fs.mapDev fun dev => dev.chunkDel T chunk markFlash) :=
  (orderly_guts isYaffs2).chunkDel chunk markFlash orderly

theorem putChunkInFile (orderly : Orderly start fs) (number inodeChunk nandChunk : Nat) :
    Orderly start (fs.putChunkInFile T number inodeChunk nandChunk).2 := by
  simp only [Fs.putChunkInFile]
  split
  · exact orderly
  case h_2 obj _ =>
    have found : Quiet fs.dev (fs.dev.addFindTnode0 obj.file inodeChunk none).2.2 :=
      fs.dev.quiet_tnodesOnly (fs.dev.addFindTnode0_only obj.file inodeChunk none)
    split
    · exact orderly.chunkDel isYaffs2 _ true
    · split
      · exact orderly.quiet found
      · split <;> exact orderly.quiet found

theorem gcMove (orderly : Orderly start fs) (obj : Obj) (tags : ExtTags) (newChunk : Nat) :
    Orderly start (fs.gcMove T obj tags newChunk) := by
  simp only [Fs.gcMove]
  split
  · exact orderly
  · exact orderly.putChunkInFile isYaffs2 _ _ _

omit isYaffs2 in
theorem dropSoftDeleted (orderly : Orderly start fs) (block : Nat) (obj : Obj) :
    Orderly start (fs.dropSoftDeleted block obj) := by
  let change (info : BlockInfo) : BlockInfo :=
    { info with softDelPages := signedField10 (info.softDelPages - 1) }
  have dropped : Quiet fs.dev
      { fs.dev.modifyBlockInfo block change with nFreeChunks := fs.dev.nFreeChunks - 1 } :=
    (fs.dev.quiet_modifyBlockInfo block change Iff.rfl).trans (quiet_nFreeChunks _ _)
  simp only [Fs.dropSoftDeleted]
  split
  · exact orderly.quiet (dropped.trans (.of_table rfl rfl rfl rfl rfl rfl rfl))
  · exact orderly.quiet dropped

theorem gcProcessChunk (orderly : Orderly start fs) (block oldChunk : Nat) :
    Orderly start (fs.gcProcessChunk T block oldChunk).2 := by
  have read : Orderly start { fs with dev := (fs.dev.rdChunkTagsNand T oldChunk).2 } :=
    orderly.quiet (fs.dev.quiet_rdChunkTagsNand T oldChunk)
  simp only [Fs.gcProcessChunk]
  split
  · exact read.chunkDel isYaffs2 _ true
  · split
    · exact (read.dropSoftDeleted block _).chunkDel isYaffs2 _ false
    · have written (data : Buf) (tags : ExtTags) : Orderly start
          { fs with dev := ((fs.dev.rdChunkTagsNand T oldChunk).2.writeNewChunk T data tags
            true).2 } :=
        (Dev.Orderly.writeNewChunk isYaffs2 read data tags true).toOrderly
      split
      · exact written _ _
      · exact ((written _ _).gcMove isYaffs2 _ _ _).chunkDel isYaffs2 _ true

theorem gcPage (orderly : Orderly start fs) (block : Nat) :
    Orderly start (fs.gcPage T block).2 := by
  simp only [Fs.gcPage]
  refine Orderly.mapDev ?_ fun _ => .of_table rfl rfl rfl rfl rfl rfl rfl
  split
  · exact orderly.gcProcessChunk isYaffs2 _ _
  · exact orderly

theorem gcCopyLoop (orderly : Orderly start fs) (block left copies : Nat) :
    Orderly start (gcCopyLoop T block left copies fs).2 := by
  induction left generalizing copies fs with
  | zero => exact orderly
  | succ left ih =>
    have stepped : Orderly start (fs.gcPage T block).2 := orderly.gcPage isYaffs2 block
    simp only [Fs.gcCopyLoop]
    split
    · exact orderly
    · split
      · exact ih stepped _
      · exact stepped

theorem gcCleanUp (orderly : Orderly start fs) (number : Nat) :
    Orderly start (gcCleanUp T fs number) := by
  simp only [Fs.gcCleanUp]
  split
  · exact orderly
  case h_2 obj _ =>
    have freed : Orderly start (fs.mapDev Dev.freeTnode) :=
      orderly.quiet (fs.dev.quiet_tnodesOnly fs.dev.freeTnode_only)
    have deleted (fs : Fs Flash) (orderly : Orderly start fs) :
        Orderly start (fs.delDeletedObj T obj) := by
      have unlinked : Orderly start (fs.removeObjFromDir obj.objId obj.parent) := by
        simp only [Fs.removeObjFromDir]
        split <;> exact orderly
      have emptied : Orderly start _ := unlinked.chunkDel (T := T) isYaffs2 obj.hdrChunk true
      simp only [Fs.delDeletedObj, Fs.freeObj]
      split
      · exact emptied
      · exact emptied.quiet (.of_table rfl rfl rfl rfl rfl rfl rfl)
    refine Orderly.mapDev (deleted _ ?_) fun _ => .of_table rfl rfl rfl rfl rfl rfl rfl
    exact freed

theorem gcFinish (orderly : Orderly start fs) (block : Nat) :
    Orderly start (fs.gcFinish T block) := by
  have cleaned (numbers : List Nat) (fs : Fs Flash) (orderly : Orderly start fs) :
      Orderly start (numbers.foldl (Fs.gcCleanUp T) fs) := by
    induction numbers generalizing fs with
    | nil => exact orderly
    | cons number numbers ih => exact ih _ (orderly.gcCleanUp isYaffs2 number)
  simp only [Fs.gcFinish]
  refine Orderly.mapDev ?_ fun _ => .of_table rfl rfl rfl rfl rfl rfl rfl
  split
  case isTrue collecting =>
    exact orderly.quiet (fs.dev.quiet_setBlockState block _ (by rw [collecting]; decide)
      (by decide))
  case isFalse => exact (cleaned _ fs orderly).quiet (.of_table rfl rfl rfl rfl rfl rfl rfl)

theorem gcBlock (orderly : Orderly start fs) (block : Nat) (wholeBlock : Bool) :
    Orderly start (fs.gcBlock T block wholeBlock).2 := by
  have started : Orderly start (fs.mapDev fun dev => gcStart dev block) :=
    orderly.quiet (fs.dev.quiet_gcStart block)
  simp only [Fs.gcBlock]
  refine Orderly.gcFinish isYaffs2 ?_ block
  split
  · exact (Dev.Orderly.blockBecameDirty started block).toOrderly
  · exact started.gcCopyLoop isYaffs2 _ _ _

omit isYaffs2 in
theorem chooseGcBlock (orderly : Orderly start fs) (aggressive background : Bool) :
    Orderly start (fs.chooseGcBlock aggressive background) := by
  have refreshed : Orderly start (fs.chooseRefreshBlock aggressive) := by
    simp only [Fs.chooseRefreshBlock]
    split
    · exact orderly.mapDev fun dev =>
        dev.quiet_findRefreshBlock.trans (.of_table rfl rfl rfl rfl rfl rfl rfl)
    · exact orderly
  simp only [Fs.chooseGcBlock]
  split
  · exact refreshed.mapDev fun dev =>
      (dev.quiet_findGcBlock aggressive background).trans (.of_table rfl rfl rfl rfl rfl rfl rfl)
  · exact refreshed

omit isYaffs2 in
theorem gcMode (orderly : Orderly start fs) (background : Bool) :
    Orderly start (fs.gcMode background).2 := by
  have required : Orderly start { fs with dev := fs.dev.calcCheckptBlocksRequired.2 } :=
    orderly.quiet fs.dev.quiet_calcCheckptBlocksRequired
  simp only [Fs.gcMode]
  split
  · exact required
  · split
    · exact required
    · split <;> exact required.quiet (.of_table rfl rfl rfl rfl rfl rfl rfl)

theorem gcTurn (orderly : Orderly start fs) (background : Bool) (turn : GcTurn) :
    Orderly start (fs.gcTurn T background turn).2 := by
  have mode := orderly.gcMode background
  simp only [Fs.gcTurn]
  split
  · exact mode
  · have skipped : Orderly start ((fs.gcMode background).2.mapDev fun dev => { dev with gcSkip := 5 }) :=
      mode.mapDev fun _ => .of_table rfl rfl rfl rfl rfl rfl rfl
    have chosen := skipped.chooseGcBlock (decide ((fs.gcMode background).1 = .aggressive)) background
    split
    · exact chosen.gcBlock isYaffs2 _ _
    · exact chosen

theorem checkGc (orderly : Orderly start fs) (background : Bool) :
    Orderly start (fs.checkGc T background).2 := by
  have first := orderly.gcTurn (T := T) isYaffs2 background {}
  simp only [Fs.checkGc]
  split
  · exact orderly
  · simp only
    split
    · exact first.gcTurn isYaffs2 _ _
    · exact first

end Orderly

end Fs

/-! ## The state after a mount -/

namespace Dev

variable {Flash : Type} (T : Tagger Flash) {dev : Dev Flash}

/-- Nothing needs to be announced while the checkpoint is valid. -/
theorem tracked_of_isCheckpointed (checkpointed : dev.isCheckpointed = true) : dev.Tracked := by
  intro not_checkpointed
  rw [checkpointed] at not_checkpointed
  cases not_checkpointed

theorem noteScanned_frame (dev : Dev Flash) (block : Nat) (state : BlockState) (seq : Nat) :
    (dev.noteScanned block state seq).internalStartBlock = dev.internalStartBlock ∧
      (dev.noteScanned block state seq).internalEndBlock = dev.internalEndBlock ∧
      (dev.noteScanned block state seq).blockInfo =
        Function.update dev.blockInfo block
          { dev.blockInfo block with
            pagesInUse := 0, softDelPages := 0, blockState := state, seqNumber := seq } ∧
      (dev.noteScanned block state seq).blocksInCheckpt =
        dev.blocksInCheckpt + if state = .checkpoint then 1 else 0 := by
  simp only [noteScanned]
  split
  case h_3 => split <;> exact ⟨rfl, rfl, rfl, rfl⟩
  case h_4 not_checkpoint _ _ => exact ⟨rfl, rfl, rfl, by rw [if_neg not_checkpoint]; rfl⟩
  all_goals exact ⟨rfl, rfl, rfl, rfl⟩

/-- The pass over the blocks counts every block that it puts into the checkpoint state. -/
theorem scanBlockStatesLoop_announced (blocks : List Nat) (dev : Dev Flash) :
    (scanBlockStatesLoop T blocks dev).2.blocks = dev.blocks ∧
      dev.blocksInCheckpt ≤ (scanBlockStatesLoop T blocks dev).2.blocksInCheckpt ∧
      ∀ block, (scanBlockStatesLoop T blocks dev).2.blockState block = .checkpoint →
        0 < (scanBlockStatesLoop T blocks dev).2.blocksInCheckpt ∨
          block ∉ blocks ∧ dev.blockState block = .checkpoint := by
  induction blocks generalizing dev with
  | nil => exact ⟨rfl, le_rfl, fun _ state => .inr ⟨by simp, state⟩⟩
  | cons first rest ih =>
    let asked := (dev.queryBlock T first).2
    let state := scannedState (dev.queryBlock T first).1.1 (dev.queryBlock T first).1.2
    let noted := asked.noteScanned first state (dev.queryBlock T first).1.2
    obtain ⟨start_eq, end_eq, table, count⟩ :=
      asked.noteScanned_frame first state (dev.queryBlock T first).1.2
    obtain ⟨blocks_eq, counted, announced⟩ := ih noted
    have noted_state (block : Nat) : noted.blockState block =
        if block = first then state else dev.blockState block := by
      simp only [blockState, noted, table, Function.update_apply]
      split <;> rfl
    refine ⟨?_, ?_, fun block in_checkpoint => ?_⟩
    · refine blocks_eq.trans ?_
      simp only [Dev.blocks, noted, start_eq, end_eq]
      rfl
    · exact le_trans (by simp only [noted, count]; exact Nat.le_add_right _ _) counted
    · rcases announced block in_checkpoint with positive | ⟨not_mem, before⟩
      · exact .inl positive
      · rw [noted_state] at before
        split at before
        case isTrue =>
          have one_more : noted.blocksInCheckpt = asked.blocksInCheckpt + 1 := by
            rw [count, if_pos before]
          exact .inl (lt_of_lt_of_le (by omega) counted)
        case isFalse differ => exact .inr ⟨by simp [differ, not_mem], before⟩

/-- After the first pass of a scan, blocks in the checkpoint state are announced. -/
theorem scanBlockStates_tracked : (dev.scanBlockStates T).2.Tracked := by
  intro not_checkpointed no_blocks
  let start : Dev Flash := { dev with seqNumber := lowestSequenceNumber, blocksInCheckpt := 0 }
  obtain ⟨blocks_eq, _, announced⟩ := scanBlockStatesLoop_announced T dev.blockList start
  refine ⟨not_checkpointed, no_blocks, fun block block_mem in_checkpoint => ?_⟩
  rcases announced block in_checkpoint with positive | ⟨not_mem, _⟩
  · exact absurd no_blocks (Nat.pos_iff_ne_zero.mp positive)
  · exact not_mem ((dev.mem_blockList block).mpr (blocks_eq ▸ block_mem))

end Dev

/-! ## Runs -/

namespace FsStep

open Execution

variable {Flash : Type} {T : Tagger Flash} {start : Dev Flash} {fs : Fs Flash}

/-- What is not modelled changes memory only: no flash operation, and no part of the checkpoint. -/
def MemoryOnly : FsStep Flash → Fs Flash → Prop
  | memory change, fs => Dev.Quiet fs.dev (change fs).dev
  | _, _ => True

/-- Every operation keeps the device orderly. -/
theorem exec_orderly (isYaffs2 : start.param.isYaffs2 = true) (step : FsStep Flash) (fs : Fs Flash)
    (allowed : step.MemoryOnly fs) (orderly : Fs.Orderly start fs) :
    Fs.Orderly start (step.exec T fs) := by
  cases step with
  | writeNewChunk data tags useReserver =>
    exact (Dev.Orderly.writeNewChunk isYaffs2 orderly data tags useReserver).toOrderly
  | chunkDel chunk markFlash => exact orderly.chunkDel isYaffs2 chunk markFlash
  | blockBecameDirty block => exact (Dev.Orderly.blockBecameDirty orderly block).toOrderly
  | skipRestOfBlock => exact orderly.quiet fs.dev.quiet_skipRestOfBlock
  | readChunk chunk => exact orderly.quiet (fs.dev.quiet_rdChunkTagsNand T chunk)
  | putChunkInFile number inodeChunk nandChunk =>
    exact orderly.putChunkInFile isYaffs2 number inodeChunk nandChunk
  | gcBlock block wholeBlock => exact orderly.gcBlock isYaffs2 block wholeBlock
  | checkGc background => exact orderly.checkGc isYaffs2 background
  | checkptInvalidate => exact (Dev.Orderly.invalidate orderly).1
  | checkpointSave buckets => exact Dev.Orderly.checkpointSave orderly buckets
  | memory change => exact orderly.quiet allowed

/-- In every run the flash is changed without a checkpoint only.  Whenever the guts layer programs a
page, erases a block or retires one, both fields that announce a checkpoint are down, no block is in
the checkpoint state, and every block that was in it at any earlier point of the run has been given
up since. -/
theorem guts_entry_after_invalidation (before after : List (FsStep Flash)) (fs : Fs Flash)
    (isYaffs2 : fs.dev.param.isYaffs2 = true) (tracked : fs.dev.Tracked)
    (allowed : Guarded (exec T) MemoryOnly (before ++ after) fs) :
    let point := (run (exec T) before fs).dev
    ∀ later event earlier,
      (run (exec T) (before ++ after) fs).dev.log = later ++ event :: (earlier ++ point.log) →
      event.ByGuts →
        event.Clear point.blocks ∧
          ∀ block ∈ point.blocks, point.blockState block = .checkpoint →
            ∃ cause ∈ event :: earlier, cause.Discards point.param block := by
  intro point later event earlier log_eq guts
  rw [guarded_append] at allowed
  have reached : Fs.Orderly fs.dev (run (exec T) before fs) :=
    run_invariant (exec_orderly isYaffs2) allowed.1 (Dev.Orderly.refl tracked)
  have final : Fs.Orderly point (run (exec T) after (run (exec T) before fs)) :=
    run_invariant (exec_orderly (by rw [reached.param, isYaffs2])) allowed.2
      (Dev.Orderly.refl reached.tracked)
  obtain ⟨added, added_eq, clear, given_up⟩ := final.log
  rw [run_append, added_eq] at log_eq
  have added_split : added = later ++ event :: earlier :=
    List.append_cancel_right (log_eq.trans (by simp))
  refine ⟨clear event (by simp [added_split]) guts, fun block block_mem in_checkpoint => ?_⟩
  exact (given_up block block_mem in_checkpoint).1 later event earlier added_split guts

/-- A page is written to a small device on which a checkpoint has just been saved. -/
theorem first_page_after_save :
    let before : List (FsStep RamFlash) := [checkpointSave []]
    let after : List (FsStep RamFlash) :=
      [writeNewChunk (fun _ => 0) { objId := 257, chunkId := 1, nBytes := 1024 } true]
    let point := (run (exec (ramTagger 2)) before { dev := ramDevice }).dev
    ∀ later event earlier,
      (run (exec (ramTagger 2)) (before ++ after) { dev := ramDevice }).dev.log =
        later ++ event :: (earlier ++ point.log) →
      event.ByGuts →
        event.Clear point.blocks ∧
          ∀ block ∈ point.blocks, point.blockState block = .checkpoint →
            ∃ cause ∈ event :: earlier, cause.Discards point.param block :=
  guts_entry_after_invalidation _ _ { dev := ramDevice } rfl
    (Dev.Clear.tracked ⟨rfl, rfl, fun _ _ => (by decide : BlockState.empty ≠ .checkpoint)⟩)
    ⟨trivial, trivial, trivial⟩

end FsStep

end Yaffs
