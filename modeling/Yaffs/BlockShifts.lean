import Yaffs.BlockAges
import Yaffs.CheckpointCursor
import Yaffs.Operations

/-!
# Shifts of blocks

Every operation on blocks and pages that does not choose a block for collection is a sequence of
elementary shifts.
-/

namespace Yaffs

/-- What the choice reads of the record of a block. -/
def BlockInfo.age (chunksPerBlock : Nat) (info : BlockInfo) : BlockAge where
  state := info.blockState
  seqNumber := info.seqNumber
  discarded := decide (Dev.u32OfInt (info.pagesInUse - info.softDelPages) < chunksPerBlock)
  hasShrinkHdr := info.hasShrinkHdr

namespace Dev

open BlockAges

variable {Flash : Type} (T : Tagger Flash) (dev : Dev Flash)

/-- The part of the device that the choice of a block is about. -/
def ages : BlockAges where
  isYaffs2 := dev.param.isYaffs2
  chunksPerBlock := dev.param.chunksPerBlock
  first := dev.internalStartBlock
  last := dev.internalEndBlock
  age block := (dev.blockInfo block).age dev.param.chunksPerBlock
  seqNumber := dev.seqNumber
  allocBlock := dev.allocBlock
  allocPage := dev.allocPage
  gcBlock := dev.gcBlock
  gcDirtiest := dev.gcDirtiest
  oldestDirtySeq := dev.oldestDirtySeq
  oldestDirtyBlock := dev.oldestDirtyBlock

/-! ## Changes that the ages do not show -/

theorem ages_modifyBlockInfo (block : Nat) (change : BlockInfo → BlockInfo) :
    (dev.modifyBlockInfo block change).ages =
      dev.ages.put block ((change (dev.blockInfo block)).age dev.param.chunksPerBlock) := by
  have table : (fun other => ((dev.modifyBlockInfo block change).blockInfo other).age
        dev.param.chunksPerBlock) =
      Function.update dev.ages.age block
        ((change (dev.blockInfo block)).age dev.param.chunksPerBlock) := by
    funext other
    rw [blockInfo_modifyBlockInfo, Function.update_apply]
    split
    case isTrue => rfl
    case isFalse => rfl
  exact congrArg (fun age => { dev.ages with age }) table

/-- A change of fields that the choice does not read. -/
theorem ages_modifyBlockInfo_same (block : Nat) (change : BlockInfo → BlockInfo)
    (same : ∀ info, (change info).age dev.param.chunksPerBlock =
      info.age dev.param.chunksPerBlock) : (dev.modifyBlockInfo block change).ages = dev.ages := by
  rw [ages_modifyBlockInfo, same]
  exact congrArg (fun age => { dev.ages with age }) (Function.update_eq_self block _)

theorem ages_handleChunkError (block : Nat) : (dev.handleChunkError block).ages = dev.ages := by
  refine dev.ages_modifyBlockInfo_same block noteChunkError fun info => ?_
  unfold noteChunkError
  split <;> rfl

theorem ages_rdChunkTagsNand (chunk : Nat) : (dev.rdChunkTagsNand T chunk).2.ages = dev.ages := by
  simp only [rdChunkTagsNand]
  split
  · exact ages_handleChunkError _ _
  · rfl

theorem ages_verifyErased (block : Nat) : (dev.verifyErased T block).ages = dev.ages := by
  have fold (pages : List Nat) (dev : Dev Flash) :
      (pages.foldl (fun dev page =>
        (dev.checkChunkErased T (block * dev.param.chunksPerBlock + page)).2) dev).ages =
        dev.ages := by
    induction pages generalizing dev with
    | nil => rfl
    | cons page pages ih => exact (ih _).trans (dev.ages_rdChunkTagsNand T _)
  exact fold _ dev

theorem ages_markBad (block : Nat) : (dev.markBad T block).2.ages = dev.ages := by
  simp only [markBad]
  split <;> rfl

theorem ages_calcCheckptBlocksRequired : dev.calcCheckptBlocksRequired.2.ages = dev.ages := by
  simp only [calcCheckptBlocksRequired]
  split
  · rfl
  · split <;> rfl

theorem ages_resetErasedCheck (block : Nat) : (dev.resetErasedCheck block).ages = dev.ages := by
  simp only [resetErasedCheck]
  split
  · exact dev.ages_modifyBlockInfo_same block _ fun _ => rfl
  · rfl

theorem ages_erasedCheck (block chunk : Nat) : (dev.erasedCheck T block chunk).2.ages
    = dev.ages := by
  simp only [erasedCheck]
  split
  · rfl
  · exact dev.ages_rdChunkTagsNand T chunk

/-! ## The end of a block -/

theorem shifts_checkptErase : Shifts dev.ages (dev.checkptErase T).ages := by
  have erased (blocks : List Nat) (dev : Dev Flash) :
      Shifts dev.ages (blocks.foldl (fun dev block => dev.checkptEraseBlock T block) dev).ages := by
    induction blocks generalizing dev with
    | nil => exact .refl
    | cons block blocks ih =>
      refine .trans ?_ (ih _)
      have idle (state : BlockState) (checkpoint : dev.blockState block = .checkpoint)
          (is : ¬state.Busy) : Shifts dev.ages (dev.setBlockState block state).ages := by
        rw [setBlockState, ages_modifyBlockInfo]
        refine .single (.idle _ _ _ ?_ is)
        change ¬(dev.blockState block).Busy
        simp [checkpoint, BlockState.Busy, Sheet.Held]
      change Shifts dev.ages (dev.checkptEraseBlock T block).ages
      rcases dev.checkptEraseBlock_cases T block with ⟨-, eq⟩ | ⟨checkpoint, ⟨_, eq⟩ | ⟨_, eq⟩⟩
      · rw [eq]
      · rw [eq]
        exact idle .empty checkpoint (by simp [BlockState.Busy, Sheet.Held])
      · rw [eq]
        exact idle .dead checkpoint (by simp [BlockState.Busy, Sheet.Held])
  exact erased dev.blockList dev

variable {dev}

theorem shifts_checkptInvalidate (dev : Dev Flash) :
    Shifts dev.ages (dev.checkptInvalidate T).ages := by
  rcases dev.checkptInvalidate_cases T with ⟨-, -, eq⟩ | eq
  · rw [eq]
  · rw [eq]
    exact shifts_checkptErase T { dev with isCheckpointed := false }

theorem shifts_clearOldestDirtySeq (dev : Dev Flash) (block : Nat) :
    Shifts dev.ages (dev.clearOldestDirtySeq block).ages := by
  simp only [clearOldestDirtySeq]
  split
  · exact .single (.forget dev.ages)
  · exact .refl

/-- The block is not remembered as the oldest dirty one any more. -/
theorem clearOldestDirtySeq_differs (ranked : dev.ages.Ranked) {block : Nat} (nonzero : block ≠ 0) :
    (dev.clearOldestDirtySeq block).oldestDirtyBlock ≠ block := by
  have isYaffs2 : dev.param.isYaffs2 = true := ranked.isYaffs2
  simp only [clearOldestDirtySeq, isYaffs2, true_and]
  split
  case isTrue => exact nonzero.symm
  case isFalse differs =>
    rintro rfl
    exact differs (ranked.oldest_seq nonzero)

theorem checkptInvalidate_dirty {block : Nat} (dirty : dev.blockState block = .dirty) :
    (dev.checkptInvalidate T).blockState block = .dirty := by
  rcases dev.checkptInvalidate_cases T with ⟨-, -, eq⟩ | eq
  · rw [eq]
    exact dirty
  · rw [eq]
    rcases (checkptErase_blockState T { dev with isCheckpointed := false } block).1 with
      same | ⟨checkpoint, -⟩
    · exact same.trans dirty
    · change dev.blockState block = .checkpoint at checkpoint
      rw [dirty] at checkpoint
      cases checkpoint

/-- A block without pages is retired. -/
theorem shifts_retireBlock {block : Nat} (dirty : dev.blockState block = .dirty) :
    Shifts dev.ages (dev.retireBlock T block).ages := by
  let prepared := (dev.checkptInvalidate T).clearOldestDirtySeq block
  have shifts : Shifts dev.ages prepared.ages :=
    (shifts_checkptInvalidate T _).trans (shifts_clearOldestDirtySeq _ block)
  have state : prepared.blockState block = .dirty := by
    have same : prepared.blockInfo = (dev.checkptInvalidate T).blockInfo := by
      simp only [prepared, clearOldestDirtySeq]
      split <;> rfl
    rw [blockState, same]
    exact checkptInvalidate_dirty T dirty
  have retired (after : Dev Flash) (same : after.ages = prepared.ages) :
      Shifts dev.ages ((after.emit .guts (.retire block)).modifyBlockInfo block fun info =>
        { info with blockState := .dead, gcPrioritise := false, needsRetiring := false }).ages := by
    rw [ages_modifyBlockInfo]
    refine shifts.tail (same ▸ .idle after.ages _ _ ?_ ?_)
    · rw [same]
      change ¬(prepared.blockState block).Busy
      simp [state, BlockState.Busy, Sheet.Held]
    · simp [BlockInfo.age, BlockState.Busy, Sheet.Held]
  have marked : (prepared.markBad T block).2.ages = prepared.ages := prepared.ages_markBad T block
  simp only [retireBlock]
  refine retired _ ?_
  split
  · exact marked
  · split <;> exact marked

theorem nonzero_of_ranked (ranked : dev.ages.Ranked) {block : Nat} (mem : block ∈ dev.blocks) :
    block ≠ 0 := by
  have first_pos := ranked.first_pos
  have le := ((dev.mem_blocks block).mp mem).1
  change 0 < dev.internalStartBlock at first_pos
  omega

/-- A block without pages is given up. -/
theorem shifts_soilBlock (ranked : dev.ages.Ranked) {block : Nat} (mem : block ∈ dev.blocks)
    (held : Sheet.Held (dev.blockState block)) :
    Shifts dev.ages (dev.soilBlock block).ages ∧ (dev.soilBlock block).blockState
      block = .dirty := by
  have cleared := shifts_clearOldestDirtySeq dev block
  have differs := clearOldestDirtySeq_differs ranked (nonzero_of_ranked ranked mem)
  have table : (dev.clearOldestDirtySeq block).blockInfo = dev.blockInfo := by
    simp only [clearOldestDirtySeq]
    split <;> rfl
  have mem' : block ∈ (dev.clearOldestDirtySeq block).ages.blocks := by
    rw [cleared.blocks_eq]
    exact mem
  simp only [soilBlock]
  generalize dev.clearOldestDirtySeq block = after at *
  have held' : Sheet.Held (after.ages.age block).state := by
    change Sheet.Held (after.blockInfo block).blockState
    rwa [table]
  constructor
  · have shift := BlockAges.Shift.soil after.ages block
      (({ after.blockInfo block with blockState := .dirty } : BlockInfo).age
        after.param.chunksPerBlock)
      mem' held' (by simp [BlockInfo.age, BlockState.Busy, Sheet.Held]) differs
    refine cleared.tail ?_
    have dropped : ((after.setBlockState block .dirty).dropGcBlock block).ages =
        { (after.setBlockState block .dirty).ages with
          gcBlock := drop block after.gcBlock, gcDirtiest := drop block after.gcDirtiest } := rfl
    rw [dropped, setBlockState, ages_modifyBlockInfo]
    exact shift
  · exact (blockState_setBlockState after block block .dirty).trans (if_pos rfl)

/-- A block without pages is erased or retired. -/
theorem shifts_blockBecameDirty (ranked : dev.ages.Ranked) {block : Nat} (mem : block ∈ dev.blocks)
    (held : Sheet.Held (dev.blockState block)) :
    Shifts dev.ages (dev.blockBecameDirty T block).ages ∧
      (dev.blockBecameDirty T block).blockState block ≠ .collecting := by
  obtain ⟨soiled, dirty⟩ := shifts_soilBlock ranked mem held
  have soiled_ranked := soiled.ranked ranked
  simp only [blockBecameDirty]
  generalize dev.soilBlock block = soiledDev at *
  have erased : Shifts soiledDev.ages (soiledDev.eraseDirtyBlock T block).2.ages ∧
      (soiledDev.eraseDirtyBlock T block).2.blockState block = .dirty := by
    simp only [eraseDirtyBlock]
    split
    · exact ⟨.refl, dirty⟩
    · exact ⟨shifts_checkptInvalidate T _, checkptInvalidate_dirty T dirty⟩
  generalize soiledDev.eraseDirtyBlock T block = answer at *
  obtain ⟨shifts, dirty'⟩ := erased
  -- A block that is not being collected does not come to be.
  have ended (after : Dev Flash) (rest : Shifts soiledDev.ages after.ages) :
      Shifts dev.ages after.ages ∧ after.blockState block ≠ .collecting := by
    refine ⟨soiled.trans rest, fun collecting => ?_⟩
    have was : soiledDev.blockState block = .collecting :=
      (rest.collecting soiled_ranked collecting).1
    rw [dirty] at was
    cases was
  split
  · have verified : (if answer.2.param.verifyErasure then answer.2.verifyErased T block
        else answer.2).ages = answer.2.ages := by
      split
      · exact ages_verifyErased T answer.2 block
      · rfl
    generalize (if answer.2.param.verifyErasure then answer.2.verifyErased T block else answer.2) =
      after at *
    have shift := BlockAges.Shift.idle after.ages block
      ((erasedInfo (after.blockInfo block)).age after.param.chunksPerBlock)
      (by
        rw [verified]
        change ¬(answer.2.blockState block).Busy
        simp [dirty', BlockState.Busy, Sheet.Held])
      (by simp [erasedInfo, BlockInfo.age, BlockState.Busy, Sheet.Held])
    rw [← ages_modifyBlockInfo, verified] at shift
    exact ended _ (shifts.tail shift)
  · let lost : Dev Flash :=
      { answer.2 with nFreeChunks := answer.2.nFreeChunks - answer.2.param.chunksPerBlock }
    have retired : Shifts lost.ages (lost.retireBlock T block).ages := shifts_retireBlock T dirty'
    exact ended _ (shifts.trans retired)

/-! ## Deleting pages -/

/-- The block is known to be dirty if it is older than the oldest dirty block known. -/
theorem shifts_updateOldestDirtySeq (ranked : dev.ages.Ranked) {block : Nat}
    (mem : block ∈ dev.blocks)
    (busy : (dev.blockState block).Busy) :
    Shifts dev.ages (dev.updateOldestDirtySeq block).ages ∧
      (dev.updateOldestDirtySeq block).ages.Low block ∧
        (dev.updateOldestDirtySeq block).blockInfo = dev.blockInfo := by
  have isYaffs2 : dev.param.isYaffs2 = true := ranked.isYaffs2
  simp only [updateOldestDirtySeq, isYaffs2, true_and]
  split
  case isTrue older =>
    have held : Sheet.Held (dev.blockState block) := by
      rcases busy with allocating | held
      · obtain ⟨-, -, seq⟩ := ranked.allocBlock block (ranked.allocating block mem allocating)
        have le := ranked.oldest_le
        change (dev.blockInfo block).seqNumber = dev.seqNumber at seq
        change dev.oldestDirtySeq ≤ dev.seqNumber at le
        omega
      · exact held
    exact ⟨.single (.note dev.ages block mem held older.2), fun _ => le_rfl, rfl⟩
  case isFalse young =>
    refine ⟨.refl, fun known => ?_, rfl⟩
    by_contra older
    exact young ⟨known, by simpa [ages, BlockInfo.age] using older⟩

/-- Counting the pages in use of a block anew. -/
theorem shifts_addPagesInUse (dev : Dev Flash) (block : Nat) (change : Int)
    (low : Sheet.Held (dev.blockState block) → dev.ages.Low block)
    (clear : dev.blockState block = .full → block ≠ dev.gcBlock → dev.ages.Clear block) :
    Shifts dev.ages (dev.addPagesInUse block change).ages := by
  rw [addPagesInUse, ages_modifyBlockInfo]
  exact .single (.count dev.ages block _ low clear)

/-- A page is taken out of its block, which is not older than what is remembered. -/
theorem shifts_releasePage (ranked : dev.ages.Ranked) {block : Nat} (mem : block ∈ dev.blocks)
    (low : Sheet.Held (dev.blockState block) → dev.ages.Low block)
    (clear : dev.blockState block = .full → block ≠ dev.gcBlock →
      dev.ages.Clear block) (page : Nat) :
    Shifts dev.ages (dev.releasePage T block page).ages := by
  simp only [releasePage]
  split
  case isFalse => exact .refl
  case isTrue holds =>
    let unmarked : Dev Flash :=
      ({ dev with nFreeChunks := dev.nFreeChunks + 1 } : Dev Flash).clearChunkBit block page
    let released := unmarked.addPagesInUse block (-1)
    have shifts : Shifts dev.ages released.ages := shifts_addPagesInUse unmarked
      block (-1) low clear
    split
    case isTrue done =>
      have state : released.blockState block = dev.blockState block :=
        (unmarked.blockState_modifyBlockInfo block block _).trans (if_pos rfl)
      have held : Sheet.Held (released.blockState block) := by
        obtain ⟨-, -, not_allocating, not_scan⟩ := done
        change released.blockState block ≠ .allocating at not_allocating
        change released.blockState block ≠ .needsScan at not_scan
        rw [state] at not_allocating not_scan ⊢
        revert holds not_allocating not_scan
        cases dev.blockState block <;> simp [holdsPages, Sheet.Held]
      have mem' : block ∈ released.blocks := mem
      exact shifts.trans (shifts_blockBecameDirty T (shifts.ranked ranked) mem' held).1
    case isFalse => exact shifts

/-- The block holds pages, and is not a full block that is older than a remembered block with a
shrink header.  The block that is being collected may be older. -/
structure MayDelete (dev : Dev Flash) (block : Nat) : Prop where
  mem : block ∈ dev.blocks
  busy : (dev.blockState block).Busy
  clear : dev.blockState block = .full → block ≠ dev.gcBlock → dev.ages.Clear block

/-- Deleting a page. -/
theorem shifts_chunkDel (ranked : dev.ages.Ranked) (chunk : Int) (markFlash : Bool)
    (may : 0 < chunk → dev.MayDelete (chunk.toNat / dev.param.chunksPerBlock)) :
    let after := dev.chunkDel T chunk markFlash
    Shifts dev.ages after.ages ∧
      (0 < chunk → after.blockState (chunk.toNat / dev.param.chunksPerBlock) = .collecting →
        after.ages.Low (chunk.toNat / dev.param.chunksPerBlock)) := by
  simp only [chunkDel]
  split
  case isTrue none => exact ⟨.refl, fun positive => absurd none (by omega)⟩
  case isFalse positive =>
    obtain ⟨mem, busy, clear⟩ := may (by omega)
    generalize chunk.toNat / dev.param.chunksPerBlock = block at *
    obtain ⟨shifts, low, table⟩ := shifts_updateOldestDirtySeq ranked mem busy
    have ranked' := shifts.ranked ranked
    have mem' : block ∈ (dev.updateOldestDirtySeq block).ages.blocks := by
      rw [shifts.blocks_eq]
      exact mem
    have clear' : (dev.updateOldestDirtySeq block).blockState block = .full →
        block ≠ (dev.updateOldestDirtySeq block).gcBlock →
          (dev.updateOldestDirtySeq block).ages.Clear block := by
      revert clear
      rw [blockState, blockState, table]
      simp only [updateOldestDirtySeq]
      split <;> exact id
    have isYaffs2 : (dev.updateOldestDirtySeq block).param.isYaffs2 = true := ranked'.isYaffs2
    rw [if_neg (by simp [isYaffs2])]
    have released := shifts_releasePage T ranked' mem' (fun _ => low) clear'
      (chunk.toNat % dev.param.chunksPerBlock)
    exact ⟨shifts.trans released, fun _ collecting =>
      (released.collecting ranked' collecting).2.2.1 low⟩

/-- The rest of the allocation block is left alone. -/
theorem shifts_skipRestOfBlock (dev : Dev Flash) : Shifts dev.ages dev.skipRestOfBlock.ages := by
  simp only [skipRestOfBlock]
  split
  case h_1 block alloc =>
    split
    · have filled : ({ dev.setBlockState block .full with allocBlock := none } : Dev Flash).ages =
          { (dev.setBlockState block .full).ages with allocBlock := none } := rfl
      rw [filled, setBlockState, ages_modifyBlockInfo]
      exact .single (.fill dev.ages block alloc)
    · exact .refl
  case h_2 => exact .refl

/-! ## Writing pages -/

/-- What is written to a block with the newest sequence number leaves it such a block. -/
def KeepsFresh (dev after : Dev Flash) (block : Nat) : Prop :=
  Shifts dev.ages after.ages ∧ (dev.ages.Ranked → dev.ages.Fresh block → after.ages.Fresh block)

theorem KeepsFresh.of_ages {after : Dev Flash} {block : Nat} (same : after.ages = dev.ages) :
    KeepsFresh dev after block := by
  rw [KeepsFresh, same]
  exact ⟨.refl, fun _ => id⟩

theorem KeepsFresh.trans {mid after : Dev Flash} {block : Nat} (first : KeepsFresh dev mid block)
    (second : KeepsFresh mid after block) : KeepsFresh dev after block :=
  ⟨first.1.trans second.1, fun ranked fresh =>
    second.2 (first.1.ranked ranked) (first.2 ranked fresh)⟩

theorem keepsFresh_skipRestOfBlock (dev : Dev Flash) (block : Nat) :
    KeepsFresh dev dev.skipRestOfBlock block := by
  refine ⟨shifts_skipRestOfBlock dev, fun ranked fresh => ?_⟩
  obtain ⟨mem, busy, seq⟩ := fresh
  simp only [skipRestOfBlock]
  split
  case h_1 other alloc =>
    split
    · refine ⟨mem, ?_, ?_⟩
      · change (({ dev with allocBlock := none } : Dev Flash).setBlockState other .full
          |>.blockState block).Busy
        rw [blockState_setBlockState]
        split
        · exact .inr (.inl rfl)
        · exact busy
      · change ((dev.setBlockState other .full).blockInfo block).seqNumber = dev.seqNumber
        rw [setBlockState, blockInfo_modifyBlockInfo]
        split
        case isTrue same => exact same ▸ seq
        case isFalse => exact seq
    · exact ⟨mem, busy, seq⟩
  case h_2 => exact ⟨mem, busy, seq⟩

theorem keepsFresh_countSummaryPage (ranked : dev.ages.Ranked) {block : Nat}
    (fresh : dev.ages.Fresh block) (page : Nat) : KeepsFresh dev
    (dev.countSummaryPage block page) block := by
  have shifts := shifts_addPagesInUse (dev.setChunkBit block page) block 1
    (fun _ => fresh.low ranked) (fun _ _ => fresh.clear ranked)
  refine ⟨shifts, fun _ fresh => ?_⟩
  obtain ⟨mem, busy, seq⟩ := fresh
  have same : (dev.countSummaryPage block page).ages.age block =
      { dev.ages.age block with
        discarded := ((dev.countSummaryPage block page).ages.age block).discarded } := by
    simp [ages, countSummaryPage, addPagesInUse, setChunkBit, putChunkBit,
      modifyBlockInfo, setBlockInfo,
      BlockInfo.age]
  refine ⟨mem, ?_, ?_⟩
  · rw [same]
    exact busy
  · rw [same]
    exact seq

theorem keepsFresh_summaryWriteLoop (ranked : dev.ages.Ranked) {block : Nat}
    (fresh : dev.ages.Fresh block) (header : List UInt8) (chunk : Int) (fuel index : Nat)
    (bytes : List UInt8) :
    KeepsFresh dev (summaryWriteLoop T block header chunk fuel index bytes dev).2 block := by
  induction fuel generalizing index bytes dev with
  | zero => exact .of_ages rfl
  | succ fuel ih =>
    simp only [summaryWriteLoop]
    split
    · exact .of_ages rfl
    · generalize written : dev.programPage T .guts _ _ _ = answer
      have same : answer.2.ages = dev.ages := by
        rw [← written]
        rfl
      have counted : KeepsFresh answer.2
          (answer.2.countSummaryPage block (dev.chunksPerSummary + index)) block :=
        keepsFresh_countSummaryPage (same ▸ ranked) (same ▸ fresh) _
      have first : KeepsFresh dev (answer.2.countSummaryPage block (dev.chunksPerSummary + index))
          block := (KeepsFresh.of_ages same).trans counted
      split
      · exact first
      · exact first.trans (ih (first.1.ranked ranked) (first.2 ranked fresh) (index + 1) _)

theorem keepsFresh_summaryAdd (ranked : dev.ages.Ranked) (tags : ExtTags) (chunk : Nat)
    (fresh : dev.ages.Fresh (chunk / dev.param.chunksPerBlock)) :
    KeepsFresh dev (dev.summaryAdd T tags chunk) (chunk / dev.param.chunksPerBlock) := by
  have written (dev : Dev Flash) (ranked : dev.ages.Ranked) (block : Nat)
    (fresh : dev.ages.Fresh block)
      (sumTags : Nat → SummaryTags) : KeepsFresh dev (dev.summaryWrite T block sumTags) block := by
    have loop := keepsFresh_summaryWriteLoop T ranked fresh
      (dev.summaryHeader block (dev.summaryBytes sumTags)) dev.summaryChunk
      (dev.summaryBytes sumTags).length 0 (dev.summaryBytes sumTags)
    simp only [summaryWrite]
    split
    · exact loop.trans (.of_ages (ages_modifyBlockInfo_same _ block _ fun _ => rfl))
    · exact loop
  simp only [summaryAdd]
  split
  case h_1 => exact .of_ages rfl
  case h_2 sumTags _ =>
    split
    · split
      · let added : Dev Flash := { dev with sumTags := some (Function.update sumTags
          (chunk % dev.param.chunksPerBlock) (packTags2TagsOnly tags)) }
        have last := written added ranked (chunk / dev.param.chunksPerBlock) fresh
          (Function.update sumTags (chunk % dev.param.chunksPerBlock) (packTags2TagsOnly tags))
        have cleared (dev : Dev Flash) (block : Nat) : KeepsFresh dev dev.summaryClear block :=
          .of_ages rfl
        exact (last.trans (cleared _ _)).trans (keepsFresh_skipRestOfBlock _ _)
      · exact .of_ages rfl
    · exact .of_ages rfl

theorem keepsFresh_wrVerified (ranked : dev.ages.Ranked) {block chunk : Nat}
    (own : chunk / dev.param.chunksPerBlock = block) (fresh : dev.ages.Fresh block) (data : Buf)
    (tags : ExtTags) : KeepsFresh dev (dev.wrVerified T block chunk data tags).2 block := by
  have written : KeepsFresh dev (dev.wrChunkTagsNand T chunk (some data) tags).2 block := by
    subst own
    let programmed := (dev.programPage T .guts chunk (some data)
      { tags with seqNumber := dev.seqNumber, chunkUsed := true }).2
    have ranked' : programmed.ages.Ranked := ranked
    exact keepsFresh_summaryAdd T ranked' _ chunk fresh
  simp only [wrVerified]
  split
  · exact written
  · exact written.trans (.of_ages (ages_rdChunkTagsNand T _ chunk))

/-- A page of a block with the newest sequence number may be deleted. -/
theorem mayDelete_of_fresh (ranked : dev.ages.Ranked) {block chunk : Nat}
    (own : chunk / dev.param.chunksPerBlock = block) (fresh : dev.ages.Fresh block) :
    dev.MayDelete ((chunk : Int).toNat / dev.param.chunksPerBlock) := by
  rw [Int.toNat_natCast, own]
  exact ⟨fresh.mem, fresh.busy, fun _ _ => fresh.clear ranked⟩

theorem shifts_handleChunkWrError (ranked : dev.ages.Ranked) {block chunk : Nat}
    (own : chunk / dev.param.chunksPerBlock = block) (fresh : dev.ages.Fresh block)
    (erasedOk : Bool) :
    Shifts dev.ages (dev.handleChunkWrError T chunk erasedOk).ages := by
  simp only [handleChunkWrError]
  generalize marked : (if erasedOk then
    (dev.handleChunkError (chunk / dev.param.chunksPerBlock)).modifyBlockInfo
      (chunk / dev.param.chunksPerBlock) fun info => { info with needsRetiring := true }
    else dev.handleChunkError (chunk / dev.param.chunksPerBlock)) = after
  have same : after.ages = dev.ages := by
    rw [← marked]
    have noted := dev.ages_handleChunkError (chunk / dev.param.chunksPerBlock)
    split
    · have retires := (dev.handleChunkError
      (chunk / dev.param.chunksPerBlock)).ages_modifyBlockInfo_same
        (chunk / dev.param.chunksPerBlock)
          (fun info => { info with needsRetiring := true }) fun _ => rfl
      exact retires.trans noted
    · exact noted
  have pages : after.param.chunksPerBlock = dev.param.chunksPerBlock :=
    congrArg BlockAges.chunksPerBlock same
  rw [← same] at ranked fresh ⊢
  rw [← pages] at own
  exact ((shifts_chunkDel T ranked chunk true fun _ => mayDelete_of_fresh ranked own fresh).1).trans
    (shifts_skipRestOfBlock _)

theorem shifts_tryChunk (ranked : dev.ages.Ranked) {block page : Nat}
    (page_lt : page < dev.param.chunksPerBlock) (fresh : dev.ages.Fresh block) (data : Buf)
    (tags : ExtTags) :
    let tried := dev.tryChunk T block page data tags
    Shifts dev.ages tried.2.ages ∧ (tried.1 = true → tried.2.ages.Fresh block) := by
  simp only [tryChunk]
  have own : (block * dev.param.chunksPerBlock + page) / dev.param.chunksPerBlock = block := by
    rw [Nat.mul_comm, Nat.mul_add_div (by omega), Nat.div_eq_of_lt page_lt, add_zero]
  have reset := dev.ages_resetErasedCheck block
  have checked := (dev.resetErasedCheck block).ages_erasedCheck T block
    (block * dev.param.chunksPerBlock + page)
  generalize block * dev.param.chunksPerBlock + page = chunk at *
  generalize (dev.resetErasedCheck block).erasedCheck T block chunk = erased at *
  have same : erased.2.ages = dev.ages := checked.trans reset
  have pages : erased.2.param.chunksPerBlock = dev.param.chunksPerBlock :=
    congrArg BlockAges.chunksPerBlock same
  rw [← same] at ranked fresh ⊢
  rw [← pages] at own
  split
  · have deleted := (shifts_chunkDel T ranked chunk true fun _ => mayDelete_of_fresh
    ranked own fresh).1
    exact ⟨deleted.trans (shifts_skipRestOfBlock _), nofun⟩
  · have verified := keepsFresh_wrVerified T ranked own fresh data tags
    generalize erased.2.wrVerified T block chunk data tags = answer at *
    have ranked' := verified.1.ranked ranked
    have fresh' := verified.2 ranked fresh
    split
    · have marked := answer.2.ages_modifyBlockInfo_same block
        (fun info => { info with skipErasedCheck := true }) fun _ => rfl
      exact ⟨marked.symm ▸ verified.1, fun _ => marked.symm ▸ fresh'⟩
    · have pages' : answer.2.param.chunksPerBlock = erased.2.param.chunksPerBlock :=
        verified.1.chunksPerBlock_eq
      rw [← pages'] at own
      exact ⟨verified.1.trans (shifts_handleChunkWrError T ranked' own fresh' erased.1), nofun⟩

/-! ## Allocation -/

/-- The search for an erased block ends in one of the device, or in none. -/
theorem findAllocBlockLoop_cases (left : Nat) (dev : Dev Flash)
    (start_le : dev.internalStartBlock ≤ dev.internalEndBlock) :
    ∃ after : Dev Flash, after.ages = dev.ages ∧
      (findAllocBlockLoop left dev = (none, after) ∨
        ∃ block ∈ dev.blocks, dev.blockState block = .empty ∧
          findAllocBlockLoop left dev = (some block, after.takeAllocBlock block)) := by
  induction left generalizing dev with
  | zero => exact ⟨dev, rfl, .inl rfl⟩
  | succ left ih =>
    have stepped : dev.stepAllocFinder.ages = dev.ages := rfl
    rw [findAllocBlockLoop]
    split
    case isTrue empty =>
      refine ⟨dev.stepAllocFinder, stepped, .inr ⟨_, ?_, empty, rfl⟩⟩
      rw [mem_blocks]
      simp only [stepAllocFinder]
      split <;> omega
    case isFalse =>
      obtain ⟨after, same, found⟩ := ih dev.stepAllocFinder start_le
      exact ⟨after, same.trans stepped, found⟩

/-- There is a block to allocate off, or none can be found. -/
theorem shifts_ensureAllocBlock (ranked : dev.ages.Ranked) :
    Shifts dev.ages dev.ensureAllocBlock.ages := by
  simp only [ensureAllocBlock]
  split
  case h_1 => exact .refl
  case h_2 no_block =>
    have none' : dev.ages.allocBlock = none := no_block
    have paged (after : Dev Flash) (same : after.ages = dev.ages) :
        Shifts dev.ages ({ after with allocBlock := none, allocPage := 0 } : Dev Flash).ages := by
      have shift := BlockAges.Shift.page dev.ages 0 (by simp [none'])
      have eq : ({ after with allocBlock := none, allocPage := 0 } : Dev Flash).ages =
          { after.ages with allocBlock := none, allocPage := 0 } := rfl
      rw [eq, same, ← none']
      exact .single shift
    simp only [findAllocBlock]
    split
    · exact paged dev rfl
    · obtain ⟨after, same, found | ⟨block, mem, empty, found⟩⟩ :=
        findAllocBlockLoop_cases dev.nBlocks dev ranked.first_le
      · rw [found]
        exact paged after same
      · rw [found]
        have eq : ({ after.takeAllocBlock block with allocBlock := some block, allocPage := 0 } :
            Dev Flash).ages = { (after.modifyBlockInfo block fun info =>
              { info with blockState := .allocating, seqNumber := after.seqNumber + 1 }).ages with
                seqNumber := after.ages.seqNumber + 1, allocBlock := some block,
                  allocPage := 0 } := rfl
        rw [eq, ages_modifyBlockInfo, same]
        refine .single (.take dev.ages block _ mem ?_ none' rfl ?_)
        · change ¬(dev.blockState block).Busy
          simp [empty, BlockState.Busy, Sheet.Held]
        · exact congrArg (fun ages : BlockAges => ages.seqNumber + 1) same

theorem keepsFresh_addPagesInUse (dev : Dev Flash) {block : Nat}
    (allocating : dev.blockState block = .allocating) (change : Int) :
    KeepsFresh dev (dev.addPagesInUse block change) block := by
  refine ⟨shifts_addPagesInUse dev block change (by simp [allocating, Sheet.Held])
    (by simp [allocating]), ?_⟩
  rintro - ⟨mem, busy, seq⟩
  have same : (dev.addPagesInUse block change).ages.age block =
      { dev.ages.age block with
        discarded := ((dev.addPagesInUse block change).ages.age block).discarded } := by
    simp [ages, addPagesInUse, modifyBlockInfo, setBlockInfo, BlockInfo.age]
  refine ⟨mem, ?_, ?_⟩
  · rw [same]
    exact busy
  · rw [same]
    exact seq

/-- The next page of the allocation block is taken. -/
theorem keepsFresh_takeAllocPage (ranked : dev.ages.Ranked) {block : Nat}
    (alloc : dev.allocBlock = some block) : KeepsFresh dev (dev.takeAllocPage block) block := by
  obtain ⟨-, allocating, -⟩ := ranked.allocBlock block alloc
  have counted := keepsFresh_addPagesInUse dev allocating 1
  have alloc' : (dev.addPagesInUse block 1).allocBlock = some block := alloc
  let taken : Dev Flash :=
    { (dev.addPagesInUse block 1).setChunkBit block dev.allocPage with
      allocPage := dev.allocPage + 1, nFreeChunks := dev.nFreeChunks - 1 }
  have paged (fits : dev.allocPage + 1 < dev.param.chunksPerBlock) :
    KeepsFresh dev taken block := by
    refine counted.trans ⟨.single ?_, fun _ fresh => ⟨fresh.mem, fresh.busy, fresh.seq⟩⟩
    exact .page (dev.addPagesInUse block 1).ages (dev.allocPage + 1) fun _ _ => fits
  have filled : KeepsFresh dev { taken.setBlockState block .full with allocBlock :=
    none } block := by
    have filled := BlockAges.Shift.fill (dev.addPagesInUse block 1).ages block alloc'
    have shifts := counted.1.tail filled |>.tail (.page _ (dev.allocPage + 1) (by simp))
    have eq : ({ taken.setBlockState block .full with allocBlock := none } : Dev Flash).ages =
        { (taken.setBlockState block .full).ages with allocBlock := none } := rfl
    rw [KeepsFresh, eq, setBlockState, ages_modifyBlockInfo]
    refine ⟨shifts, fun ranked fresh => ?_⟩
    obtain ⟨mem, -, seq⟩ := counted.2 ranked fresh
    refine ⟨mem, ?_, ?_⟩
    · simp [BlockInfo.age, BlockState.Busy, Sheet.Held]
    · rw [put_age, if_pos rfl]
      exact seq
  have eq : dev.takeAllocPage block =
      if taken.param.chunksPerBlock ≤ taken.allocPage then
        { taken.setBlockState block .full with allocBlock := none }
      else taken := rfl
  rw [eq]
  split
  case isTrue => exact filled
  case isFalse more => exact paged (Nat.lt_of_not_le more)

/-- A page is allocated in a block with the newest sequence number, which is not remembered. -/
theorem shifts_allocChunk (ranked : dev.ages.Ranked) (useReserver : Bool) :
    let allocated := dev.allocChunk useReserver
    Shifts dev.ages allocated.2.ages ∧ ∀ block page, allocated.1 = some (block, page) →
      page < dev.param.chunksPerBlock ∧ allocated.2.ages.Fresh block ∧
        allocated.2.gcDirtiest ≠ block := by
  have ensured := shifts_ensureAllocBlock ranked
  have pages := ensured.chunksPerBlock_eq
  have available : (dev.ensureAllocBlock.mayAlloc useReserver).2.ages =
    dev.ensureAllocBlock.ages := by
    simp only [mayAlloc]
    split
    · rfl
    · exact ages_calcCheckptBlocksRequired dev.ensureAllocBlock
  simp only [allocChunk]
  generalize dev.ensureAllocBlock.mayAlloc useReserver = answer at *
  rw [← available] at ensured pages
  have ranked' := ensured.ranked ranked
  split
  case isTrue => exact ⟨ensured, nofun⟩
  case isFalse =>
    split
    case h_1 block alloc =>
      obtain ⟨shifts, fresh⟩ := keepsFresh_takeAllocPage ranked' alloc
      refine ⟨ensured.trans shifts, ?_⟩
      rintro _ _ ⟨⟩
      have page_lt : answer.2.allocPage < answer.2.param.chunksPerBlock :=
        ranked'.page_lt block alloc
      have pages' : answer.2.param.chunksPerBlock = dev.param.chunksPerBlock := pages
      refine ⟨pages' ▸ page_lt, fresh ranked' (ranked'.fresh alloc), ?_⟩
      have apart := ranked'.apart alloc
      have nonzero := nonzero_of_ranked ranked' (ranked'.allocBlock block alloc).1
      rcases shifts.gcDirtiest with same | forgotten
      · exact same.trans_ne apart
      · exact forgotten.trans_ne nonzero.symm
    case h_2 => exact ⟨ensured, nofun⟩

/-- The block of a page that has been written: it has the newest sequence number, and is not
remembered as the dirtiest. -/
structure Written (dev : Dev Flash) (block : Nat) : Prop where
  fresh : dev.ages.Fresh block
  apart : dev.gcDirtiest ≠ block

theorem shifts_writeNewChunkLoop (data : Buf) (tags : ExtTags) (useReserver : Bool)
    (fuel attempts : Nat) (ranked : dev.ages.Ranked) :
    let written := writeNewChunkLoop T data tags useReserver fuel attempts dev
    Shifts dev.ages written.2.ages ∧ ∀ chunk, written.1 = some chunk →
      written.2.Written (chunk / dev.param.chunksPerBlock) := by
  induction fuel generalizing attempts dev with
  | zero => exact ⟨.refl, nofun⟩
  | succ fuel ih =>
    obtain ⟨allocated, placed⟩ := shifts_allocChunk ranked useReserver
    simp only [writeNewChunkLoop]
    generalize dev.allocChunk useReserver = answer at *
    split
    case h_1 => exact ⟨allocated, nofun⟩
    case h_2 block page found =>
      obtain ⟨page_lt, fresh, apart⟩ := placed block page found
      have pages : answer.2.param.chunksPerBlock = dev.param.chunksPerBlock :=
        allocated.chunksPerBlock_eq
      have ranked' := allocated.ranked ranked
      obtain ⟨tried, lasting⟩ := shifts_tryChunk T ranked' (pages ▸ page_lt) fresh data tags
      generalize answer.2.tryChunk T block page data tags = outcome at *
      have shifts : Shifts dev.ages outcome.2.ages := allocated.trans tried
      have pages' : outcome.2.param.chunksPerBlock = dev.param.chunksPerBlock :=
        shifts.chunksPerBlock_eq
      split
      case isTrue success =>
        refine ⟨shifts, ?_⟩
        rintro _ ⟨⟩
        change outcome.2.Written _
        rw [Nat.mul_comm, Nat.mul_add_div (by omega), Nat.div_eq_of_lt page_lt, add_zero]
        have nonzero := nonzero_of_ranked ranked' fresh.mem
        refine ⟨lasting success, ?_⟩
        rcases tried.gcDirtiest with same | forgotten
        · exact same.trans_ne apart
        · exact forgotten.trans_ne nonzero.symm
      case isFalse =>
        split
        · obtain ⟨more, last⟩ := ih (attempts + 1) (shifts.ranked ranked)
          rw [pages'] at last
          exact ⟨shifts.trans more, last⟩
        · exact ⟨shifts, nofun⟩

/-- Writing a page. -/
theorem shifts_writeNewChunk (ranked : dev.ages.Ranked) (data : Buf) (tags : ExtTags)
    (useReserver : Bool) :
    let written := dev.writeNewChunk T data tags useReserver
    Shifts dev.ages written.2.ages ∧ ∀ chunk, written.1 = some chunk →
      written.2.Written (chunk / dev.param.chunksPerBlock) := by
  have invalidated := shifts_checkptInvalidate T dev
  obtain ⟨shifts, last⟩ := shifts_writeNewChunkLoop T data tags useReserver
    (dev.checkptInvalidate T).writeFuel 0 (invalidated.ranked ranked)
  have pages : (dev.checkptInvalidate T).param.chunksPerBlock = dev.param.chunksPerBlock :=
    invalidated.chunksPerBlock_eq
  rw [pages] at last
  exact ⟨invalidated.trans shifts, last⟩

end Dev

end Yaffs
