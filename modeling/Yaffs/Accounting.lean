import Yaffs.Books
import Yaffs.CheckpointCursor
import Yaffs.Operations

/-!
# Space accounting

The counters of free pages, erased blocks and checkpoint blocks agree with the block table after
every operation, and so does the page counter of every block with its chunk bits.
-/

namespace Yaffs

namespace Dev

variable {Flash : Type} (T : Tagger Flash) (dev : Dev Flash)

/-- The counters of the device agree with its block table. -/
structure Accounts : Prop where
  free : dev.nFreeChunks = dev.countFreeChunks
  erased : dev.nErasedBlocks = dev.countState .empty
  checkpt : (dev.blocksInCheckpt : Int) = dev.countState .checkpoint
  pages : ∀ block ∈ dev.blocks, (dev.blockInfo block).pagesInUse = dev.countChunkBits block
  allocating : ∀ first ∈ dev.blocks, ∀ second ∈ dev.blocks,
    dev.blockState first = .allocating → dev.blockState second = .allocating → first = second

/-! ## The books of a device -/

/-- The sheet of one block. -/
def sheetOf (info : BlockInfo) (inUse : Nat → Bool) : Sheet where
  state := info.blockState
  pagesInUse := info.pagesInUse
  softDelPages := info.softDelPages
  seqNumber := info.seqNumber
  inUse := inUse

/-- The books of the device. -/
def books : Books where
  layout :=
    { isYaffs2 := dev.param.isYaffs2
      summaries := dev.sumTags.isSome
      chunksPerSummary := dev.chunksPerSummary
      summaryBytes := summaryTagsSize * dev.chunksPerSummary
      summaryRoom := dev.dataBytesPerChunk - summaryHeaderSize }
  chunksPerBlock := dev.param.chunksPerBlock
  first := dev.internalStartBlock
  last := dev.internalEndBlock
  sheet block := sheetOf (dev.blockInfo block) (dev.chunkBits block)
  nErasedBlocks := dev.nErasedBlocks
  nFreeChunks := dev.nFreeChunks
  blocksInCheckpt := dev.blocksInCheckpt
  allocBlock := dev.allocBlock
  allocPage := dev.allocPage
  seqNumber := dev.seqNumber
  gcBlock := dev.gcBlock
  gcDirtiest := dev.gcDirtiest
  oldestDirtySeq := dev.oldestDirtySeq
  oldestDirtyBlock := dev.oldestDirtyBlock
  gcCleanupList := dev.gcCleanupList

/-- Balanced books are what the accounting promises. -/
theorem accounts_of_balanced (balanced : dev.books.Balanced) : dev.Accounts where
  free := balanced.free_eq.trans (add_zero _)
  erased := balanced.erased_eq.trans (add_zero _)
  checkpt := balanced.checkpt_eq.trans (add_zero _)
  pages block block_mem := (balanced.sheet block block_mem).counted
  allocating first first_mem second second_mem first_state second_state := by
    have first_alloc := balanced.allocating first first_mem first_state
    have second_alloc := balanced.allocating second second_mem second_state
    exact Option.some.inj (first_alloc.symm.trans second_alloc)

/-! ## Changes that the books do not show -/

/-- A change of a block's record changes its sheet. -/
theorem books_modifyBlockInfo (block : Nat) (change : BlockInfo → BlockInfo) :
    (dev.modifyBlockInfo block change).books =
      dev.books.put block (sheetOf (change (dev.blockInfo block)) (dev.chunkBits block)) := by
  have sheets : (fun other => sheetOf ((dev.modifyBlockInfo block change).blockInfo other)
        (dev.chunkBits other)) =
      Function.update dev.books.sheet block
        (sheetOf (change (dev.blockInfo block)) (dev.chunkBits block)) := by
    funext other
    rw [blockInfo_modifyBlockInfo, Function.update_apply]
    split
    case isTrue same => rw [same]
    case isFalse => rfl
  exact congrArg (fun sheet => { dev.books with sheet }) sheets

/-- A change of fields that the books do not show. -/
theorem books_modifyBlockInfo_same (block : Nat) (change : BlockInfo → BlockInfo)
    (same : ∀ info inUse, sheetOf (change info) inUse = sheetOf info inUse) :
    (dev.modifyBlockInfo block change).books = dev.books := by
  rw [books_modifyBlockInfo, same]
  exact congrArg (fun sheet => { dev.books with sheet }) (Function.update_eq_self block _)

theorem books_setBlockState (block : Nat) (state : BlockState) :
    (dev.setBlockState block state).books = dev.books.setState block state :=
  dev.books_modifyBlockInfo block _

theorem books_handleChunkError (block : Nat) : (dev.handleChunkError block).books = dev.books := by
  refine dev.books_modifyBlockInfo_same block noteChunkError fun info inUse => ?_
  unfold noteChunkError
  split <;> rfl

theorem books_rdChunkTagsNand (chunk : Nat) : (dev.rdChunkTagsNand T chunk).2.books = dev.books := by
  simp only [rdChunkTagsNand]
  split
  · exact books_handleChunkError _ _
  · rfl

theorem books_verifyErased (block : Nat) : (dev.verifyErased T block).books = dev.books := by
  have fold (pages : List Nat) (dev : Dev Flash) :
      (pages.foldl (fun dev page =>
        (dev.checkChunkErased T (block * dev.param.chunksPerBlock + page)).2) dev).books =
        dev.books := by
    induction pages generalizing dev with
    | nil => rfl
    | cons page pages ih => exact (ih _).trans (dev.books_rdChunkTagsNand T _)
  exact fold _ dev

theorem books_calcCheckptBlocksRequired : dev.calcCheckptBlocksRequired.2.books = dev.books := by
  simp only [calcCheckptBlocksRequired]
  split
  · rfl
  · split <;> rfl

theorem books_mayAlloc (useReserver : Bool) : (dev.mayAlloc useReserver).2.books = dev.books := by
  simp only [mayAlloc]
  split
  · rfl
  · exact dev.books_calcCheckptBlocksRequired

theorem books_resetErasedCheck (block : Nat) : (dev.resetErasedCheck block).books = dev.books := by
  simp only [resetErasedCheck]
  split
  · exact dev.books_modifyBlockInfo_same block _ fun _ _ => rfl
  · rfl

theorem books_erasedCheck (block chunk : Nat) :
    (dev.erasedCheck T block chunk).2.books = dev.books := by
  simp only [erasedCheck]
  split
  · rfl
  · exact dev.books_rdChunkTagsNand T chunk

theorem books_tnodesOnly {after : Dev Flash} (only : TnodesOnly dev after) :
    after.books = dev.books := by
  obtain ⟨_, _, _, rfl⟩ := only
  rfl

/-! ## The oldest dirty block -/

variable {dev} {free erased checkpt : Int}

/-- What was remembered as the oldest dirty block may be forgotten. -/
theorem clearOldestDirtySeq_books (sound : dev.books.Sound free erased checkpt) (block : Nat) :
    (dev.clearOldestDirtySeq block).books.Sound free erased checkpt ∧
      (dev.clearOldestDirtySeq block).books =
        { dev.books with
          oldestDirtySeq := (dev.clearOldestDirtySeq block).oldestDirtySeq
          oldestDirtyBlock := (dev.clearOldestDirtySeq block).oldestDirtyBlock } ∧
      (block ≠ 0 → (dev.clearOldestDirtySeq block).oldestDirtyBlock ≠ block) := by
  have isYaffs2 : dev.param.isYaffs2 = true := sound.fits.1
  simp only [clearOldestDirtySeq, isYaffs2, true_and]
  split
  case isTrue =>
    exact ⟨{ sound with
      oldest := fun nonzero => absurd rfl nonzero
      oldest_seq := fun nonzero => absurd rfl nonzero
      oldest_le := Nat.zero_le _ }, rfl, fun nonzero => nonzero.symm⟩
  case isFalse differ =>
    refine ⟨sound, rfl, fun nonzero same => differ ?_⟩
    subst same
    exact sound.oldest_seq nonzero

/-- A block that is dropped is no longer remembered by the collector. -/
theorem dropGcBlock_books (sound : dev.books.Sound free erased checkpt) (block : Nat) :
    (dev.dropGcBlock block).books.Sound free erased checkpt ∧
      (block ≠ 0 → (dev.dropGcBlock block).gcBlock ≠ block ∧
        (dev.dropGcBlock block).gcDirtiest ≠ block) := by
  have dropped (pointer : Nat) (target : dev.books.Target pointer) :
      dev.books.Target (if block = pointer then 0 else pointer) := by
    split
    · exact fun nonzero => absurd rfl nonzero
    · exact target
  have differs (pointer : Nat) (nonzero : block ≠ 0) :
      (if block = pointer then 0 else pointer) ≠ block := by
    split
    · exact nonzero.symm
    case isFalse differ => exact Ne.symm differ
  exact ⟨{ sound with
    gcBlock := dropped _ sound.gcBlock
    gcDirtiest := dropped _ sound.gcDirtiest }, fun nonzero => ⟨differs _ nonzero, differs _ nonzero⟩⟩

/-! ## The erasure of the checkpoint -/

/-- Only sheets in the checkpoint state have been changed, besides the counters. -/
structure CheckptOnly (before after : Books) : Prop where
  eq : after =
    { before with
      sheet := after.sheet
      nErasedBlocks := after.nErasedBlocks
      nFreeChunks := after.nFreeChunks
      blocksInCheckpt := after.blocksInCheckpt }
  sheet : ∀ block, (before.sheet block).state ≠ .checkpoint → after.sheet block = before.sheet block

namespace CheckptOnly

variable {before after : Books}

theorem refl (books : Books) : CheckptOnly books books := ⟨rfl, fun _ _ => rfl⟩

theorem trans {first second third : Books} (left : CheckptOnly first second)
    (right : CheckptOnly second third) : CheckptOnly first third where
  eq := by
    refine right.eq.trans ?_
    rw [left.eq]
  sheet block state := by
    have same := left.sheet block state
    rw [right.sheet block (by rwa [same]), same]

theorem moves (only : CheckptOnly before after) : Books.Moves (fun _ => False) before after where
  layout := by rw [only.eq]
  chunksPerBlock := by rw [only.eq]
  first := by rw [only.eq]
  last := by rw [only.eq]
  collecting block _ state := only.sheet block (by rw [state]; decide)

theorem writable (only : CheckptOnly before after) (sound : before.Sound free erased checkpt)
    (writable : before.Writable) : after.Writable := by
  refine writable.of_shrinks (by rw [only.eq]) (by rw [only.eq]) (by rw [only.eq]) ?_
  intro block alloc page used
  have state := (sound.allocBlock block alloc).2.1
  rwa [only.sheet block (by rw [state]; decide)] at used

end CheckptOnly

theorem checkptEraseBlock_books (sound : dev.books.Sound free erased checkpt) {block : Nat}
    (block_mem : block ∈ dev.blocks) :
    CheckptOnly dev.books (dev.checkptEraseBlock T block).books ∧
      ∃ checkpt', (dev.checkptEraseBlock T block).books.Sound free erased checkpt' := by
  have only (state : BlockState) (nErasedBlocks nFreeChunks : Int)
      (in_checkpoint : (dev.books.sheet block).state = .checkpoint) :
      CheckptOnly dev.books
        { dev.books.setState block state with nErasedBlocks, nFreeChunks } := by
    refine ⟨rfl, fun other differ => ?_⟩
    change (dev.books.put block _).sheet other = _
    rw [Books.put_sheet, if_neg]
    rintro rfl
    exact differ in_checkpoint
  rcases dev.checkptEraseBlock_cases T block with ⟨_, eq⟩ | ⟨in_checkpoint, ⟨_, eq⟩ | ⟨_, eq⟩⟩
  · rw [eq]
    exact ⟨.refl _, checkpt, sound⟩
  · have after : (dev.checkptEraseBlock T block).books = dev.books.releaseCheckpt block := by
      rw [eq, Books.releaseCheckpt, ← books_setBlockState]
      rfl
    rw [after]
    exact ⟨only _ _ _ in_checkpoint, _, sound.releaseCheckpt block_mem in_checkpoint⟩
  · have after : (dev.checkptEraseBlock T block).books = dev.books.setState block .dead := by
      rw [eq, ← books_setBlockState]
      rfl
    rw [after]
    exact ⟨only .dead _ _ in_checkpoint, _, sound.loseCheckpt block_mem in_checkpoint⟩

/-- The erasure of the checkpoint settles the count of its blocks. -/
theorem checkptErase_books (sound : dev.books.Sound free erased checkpt) :
    CheckptOnly dev.books (dev.checkptErase T).books ∧
      (dev.checkptErase T).books.Sound free erased 0 := by
  have erase (blocks : List Nat) (dev : Dev Flash) (checkpt : Int)
      (sound : dev.books.Sound free erased checkpt) (inside : ∀ block ∈ blocks, block ∈ dev.blocks) :
      CheckptOnly dev.books (dev.checkptEraseBlocks T blocks).books ∧
        ∃ checkpt', (dev.checkptEraseBlocks T blocks).books.Sound free erased checkpt' := by
    induction blocks generalizing dev checkpt with
    | nil => exact ⟨.refl _, checkpt, sound⟩
    | cons block blocks ih =>
      obtain ⟨only, checkpt', sound'⟩ :=
        checkptEraseBlock_books T sound (inside block List.mem_cons_self)
      have same : (dev.checkptEraseBlock T block).blocks = dev.blocks := by
        change (dev.checkptEraseBlock T block).books.blocks = dev.books.blocks
        exact only.moves.blocks
      obtain ⟨rest, sound''⟩ := ih (dev.checkptEraseBlock T block) checkpt' sound'
        fun other other_mem => same ▸ inside other (List.mem_cons_of_mem _ other_mem)
      exact ⟨only.trans rest, sound''⟩
  obtain ⟨only, checkpt', sound'⟩ := erase dev.blockList dev checkpt sound
    fun block block_mem => (dev.mem_blockList block).mp block_mem
  have settled := sound'.settleCheckpt fun block block_mem => by
    have block_mem : block ∈ dev.blocks := by
      have same := only.moves.blocks
      rw [same] at block_mem
      exact block_mem
    exact (dev.checkptErase_blockState T block).2 block_mem
  refine ⟨⟨?_, only.sheet⟩, settled⟩
  exact (congrArg (fun books : Books => { books with blocksInCheckpt := 0 }) only.eq).trans rfl

/-- The invalidation needs no checkpoint count to start from if it has anything to do, and keeps the
one there is if it has not. -/
theorem checkptInvalidate_books (sound : dev.books.Sound free erased 0) :
    CheckptOnly dev.books (dev.checkptInvalidate T).books ∧
      (dev.checkptInvalidate T).books.Sound free erased 0 := by
  rcases dev.checkptInvalidate_cases T with ⟨_, _, eq⟩ | eq
  · rw [eq]
    exact ⟨.refl _, sound⟩
  · rw [eq]
    have announced : ({ dev with isCheckpointed := false } : Dev Flash).books.Sound free erased 0 :=
      sound
    exact checkptErase_books T announced

/-! ## The end of a block -/

/-- A dirty block that is retired stays out of the accounts. -/
theorem retireBlock_books (sound : dev.books.Sound free erased 0) (writable : dev.books.Writable)
    {block : Nat} (block_mem : block ∈ dev.blocks) (dirty : dev.blockState block = .dirty) :
    (dev.retireBlock T block).books.Sound free erased 0 ∧ (dev.retireBlock T block).books.Writable ∧
      Books.Moves (fun _ => False) dev.books (dev.retireBlock T block).books := by
  obtain ⟨only, invalidated⟩ := checkptInvalidate_books T sound
  obtain ⟨forgotten, forgotten_eq, _⟩ := clearOldestDirtySeq_books invalidated block
  have marked : ((dev.checkptInvalidate T).clearOldestDirtySeq block |>.markBad T block).2.books =
      ((dev.checkptInvalidate T).clearOldestDirtySeq block).books := by
    simp only [markBad]
    split <;> rfl
  let change (info : BlockInfo) : BlockInfo :=
    { info with blockState := .dead, gcPrioritise := false, needsRetiring := false }
  have retired : (dev.retireBlock T block).books =
      ((dev.checkptInvalidate T).clearOldestDirtySeq block).books.setState block .dead := by
    rw [← marked]
    simp only [retireBlock]
    split
    · exact books_modifyBlockInfo _ block change
    · split
      · exact books_modifyBlockInfo _ block change
      · exact books_modifyBlockInfo _ block change
  have dirty' : (((dev.checkptInvalidate T).clearOldestDirtySeq block).books.sheet block).state =
      .dirty := by
    have not_checkpoint : (dev.books.sheet block).state ≠ .checkpoint := by
      change dev.blockState block ≠ .checkpoint
      rw [dirty]
      decide
    rw [forgotten_eq]
    exact (congrArg Sheet.state (only.sheet block not_checkpoint)).trans dirty
  have moves : Books.Moves (fun _ => False) dev.books
      ((dev.checkptInvalidate T).clearOldestDirtySeq block).books := by
    refine only.moves.trans ?_
    rw [forgotten_eq]
    exact ⟨rfl, rfl, rfl, rfl, fun _ _ _ => rfl⟩
  have writable' : ((dev.checkptInvalidate T).clearOldestDirtySeq block).books.Writable := by
    rw [forgotten_eq]
    exact { only.writable sound writable with }
  have block_mem' : block ∈ ((dev.checkptInvalidate T).clearOldestDirtySeq block).books.blocks :=
    moves.blocks ▸ block_mem
  rw [retired]
  exact ⟨forgotten.setState_outside block_mem' dirty', writable'.setState block .dead,
    moves.trans (.setState block .dead (by rw [dirty']; decide))⟩

/-- A block without pages in use leaves the accounts and is forgotten. -/
theorem soilBlock_books (balanced : dev.books.Balanced) {block : Nat}
    (block_mem : block ∈ dev.blocks) (held : Sheet.Held (dev.blockState block))
    (empty : (dev.blockInfo block).pagesInUse = 0) :
    (dev.soilBlock block).books.Sound dev.param.chunksPerBlock 0 0 ∧
      (dev.soilBlock block).books.Writable ∧
      Books.Moves (· = block) dev.books (dev.soilBlock block).books := by
  have nonzero : block ≠ 0 := by
    have bounds := (dev.mem_blocks block).mp block_mem
    have first_pos : 0 < dev.internalStartBlock := balanced.first_pos
    omega
  -- The block is forgotten first; in the books this commutes with the change of its state.
  obtain ⟨forgotten, forgotten_eq, not_oldest⟩ :=
    clearOldestDirtySeq_books balanced.toSound block
  obtain ⟨dropped, not_collected⟩ := dropGcBlock_books forgotten block
  let dropped_dev := (dev.clearOldestDirtySeq block).dropGcBlock block
  have dropped_eq : dropped_dev.books =
      { dev.books with
        oldestDirtySeq := dropped_dev.oldestDirtySeq
        oldestDirtyBlock := dropped_dev.oldestDirtyBlock
        gcBlock := dropped_dev.gcBlock
        gcDirtiest := dropped_dev.gcDirtiest } :=
    congrArg (fun books : Books =>
      { books with gcBlock := dropped_dev.gcBlock, gcDirtiest := dropped_dev.gcDirtiest })
      forgotten_eq
  have soiled : (dev.soilBlock block).books = dropped_dev.books.setState block .dirty :=
    books_setBlockState dropped_dev block .dirty
  have moves : Books.Moves (· = block) dev.books dropped_dev.books := by
    rw [dropped_eq]
    exact ⟨rfl, rfl, rfl, rfl, fun _ _ _ => rfl⟩
  have writable : dropped_dev.books.Writable := by
    rw [dropped_eq]
    exact { balanced.toWritable with }
  have dropped_mem : block ∈ dropped_dev.books.blocks := by
    rw [dropped_eq]
    exact block_mem
  have removed := dropped.remove dropped_mem
    (by rw [dropped_eq]; exact held) (by rw [dropped_eq]; exact empty) (by
      rintro (same | same | same)
      · exact (not_collected nonzero).1 same.symm
      · exact (not_collected nonzero).2 same.symm
      · exact not_oldest nonzero same.symm)
  rw [soiled]
  refine ⟨removed.cast ?_ rfl rfl, writable.setState block .dirty, moves.trans (.put _ block _)⟩
  rw [zero_add, moves.chunksPerBlock]
  rfl

theorem eraseDirtyBlock_books (sound : dev.books.Sound free erased 0) (block : Nat) :
    CheckptOnly dev.books (dev.eraseDirtyBlock T block).2.books ∧
      (dev.eraseDirtyBlock T block).2.books.Sound free erased 0 := by
  simp only [eraseDirtyBlock]
  split
  · exact ⟨.refl _, sound⟩
  · exact checkptInvalidate_books T sound

theorem cleanBlock_books (block : Nat) : (dev.cleanBlock block).books = dev.books.clean block := by
  have sheets : (dev.cleanBlock block).books.sheet = (dev.books.clean block).sheet := by
    funext other
    change sheetOf ((dev.modifyBlockInfo block erasedInfo).blockInfo other)
      (Function.update dev.chunkBits block (fun _ => false) other) = (dev.books.put block _).sheet other
    rw [blockInfo_modifyBlockInfo, Function.update_apply, Books.put_sheet]
    split <;> rfl
  exact congrArg (fun sheet => { dev.books.clean block with sheet }) sheets

/-- A block whose last page has been deleted is erased or retired, and the books are balanced
again. -/
theorem blockBecameDirty_books (balanced : dev.books.Balanced) {block : Nat}
    (block_mem : block ∈ dev.blocks) (held : Sheet.Held (dev.blockState block))
    (empty : (dev.blockInfo block).pagesInUse = 0) :
    (dev.blockBecameDirty T block).books.Balanced ∧
      Books.Moves (· = block) dev.books (dev.blockBecameDirty T block).books := by
  obtain ⟨removed, writable, moves⟩ := soilBlock_books balanced block_mem held empty
  have dirty : ((dev.soilBlock block).books.sheet block).state = .dirty := by
    change ((dev.clearOldestDirtySeq block).setBlockState block .dirty).blockState block = _
    simp
  obtain ⟨only, erased⟩ := eraseDirtyBlock_books T removed block
  let after := ((dev.soilBlock block).eraseDirtyBlock T block).2
  have after_dirty : (after.books.sheet block).state = .dirty := by
    rw [only.sheet block (by rw [dirty]; decide), dirty]
  have after_writable : after.books.Writable := only.writable removed writable
  have after_moves : Books.Moves (· = block) dev.books after.books :=
    moves.trans (only.moves.mono fun _ _ exempted => exempted.elim)
  have after_mem : block ∈ after.books.blocks := after_moves.blocks ▸ block_mem
  have pages : after.books.chunksPerBlock = dev.param.chunksPerBlock := after_moves.chunksPerBlock
  simp only [blockBecameDirty]
  split
  case isTrue =>
    have checked : (if after.param.verifyErasure = true then after.verifyErased T block
        else after).books = after.books := by
      split
      · exact books_verifyErased T after block
      · rfl
    rw [cleanBlock_books, checked]
    have cleaned := erased.clean after_mem after_dirty
    refine ⟨⟨cleaned.cast (by rw [pages, sub_self]) rfl rfl, ?_⟩, after_moves.trans (.clean block)⟩
    refine after_writable.of_shrinks rfl rfl rfl fun other _ page used => ?_
    change ((after.books.put block _).sheet other).inUse page = true at used
    rw [Books.put_sheet] at used
    split at used
    · cases used
    · exact used
  case isFalse =>
    let lost : Dev Flash := { after with nFreeChunks := after.nFreeChunks - after.param.chunksPerBlock }
    have lost_sound : lost.books.Sound 0 0 0 :=
      (erased.count (after.nFreeChunks - after.param.chunksPerBlock) after.nErasedBlocks
        after.blocksInCheckpt).cast (by
          change (dev.param.chunksPerBlock : Int) +
            (after.nFreeChunks - after.books.chunksPerBlock - after.nFreeChunks) = 0
          rw [pages]
          ring) (by simp [after, books]) (by simp [after, books])
    obtain ⟨retired, writable, retired_moves⟩ :=
      retireBlock_books T lost_sound { after_writable with } after_mem after_dirty
    have lost_moves : Books.Moves (· = block) after.books lost.books :=
      ⟨rfl, rfl, rfl, rfl, fun _ _ _ => rfl⟩
    exact ⟨⟨retired, writable⟩, (after_moves.trans lost_moves).trans
      (retired_moves.mono fun _ _ exempted => exempted.elim)⟩

/-! ## Pages -/

/-- A page of a block of the device that is in use. -/
structure InUse (dev : Dev Flash) (block page : Nat) : Prop where
  block_mem : block ∈ dev.blocks
  page_lt : page < dev.param.chunksPerBlock
  used : dev.chunkBits block page = true

theorem pagesInUse_bounds (sound : dev.books.Sound free erased checkpt) {block : Nat}
    (block_mem : block ∈ dev.blocks) :
    0 ≤ (dev.blockInfo block).pagesInUse ∧ (dev.blockInfo block).pagesInUse ≤ 511 := by
  have counted : (dev.blockInfo block).pagesInUse = _ := (sound.sheet block block_mem).counted
  have lower := Sheet.marked_nonneg dev.books.chunksPerBlock (dev.books.sheet block)
  have upper := Sheet.marked_le dev.books.chunksPerBlock (dev.books.sheet block)
  have pages_le := sound.pages_le
  omega

/-- The bit of a page and the counter of its block. -/
theorem books_putPage (block page : Nat) (bit : Bool) (change : Int)
    (lower : -512 ≤ (dev.blockInfo block).pagesInUse + change)
    (upper : (dev.blockInfo block).pagesInUse + change ≤ 511) :
    ((dev.putChunkBit block page bit).addPagesInUse block change).books =
      dev.books.put block ((dev.books.sheet block).put page bit
        ((dev.blockInfo block).pagesInUse + change)) := by
  let info : BlockInfo :=
    { dev.blockInfo block with
      pagesInUse := signedField10 ((dev.blockInfo block).pagesInUse + change) }
  have info_eq : info =
      { dev.blockInfo block with pagesInUse := (dev.blockInfo block).pagesInUse + change } := by
    simp only [info, signedField10_of_mem lower upper]
  have sheets : ((dev.putChunkBit block page bit).addPagesInUse block change).books.sheet =
      (dev.books.put block ((dev.books.sheet block).put page bit
        ((dev.blockInfo block).pagesInUse + change))).sheet := by
    funext other
    change sheetOf (Function.update dev.blockInfo block info other)
      (Function.update dev.chunkBits block (Function.update (dev.chunkBits block) page bit) other) = _
    rw [Books.put_sheet, Function.update_apply, Function.update_apply]
    split
    · rw [info_eq]
      rfl
    · rfl
  exact congrArg (fun sheet => { dev.books with sheet }) sheets

theorem books_unmarkPage (sound : dev.books.Sound free erased checkpt) {block : Nat}
    (block_mem : block ∈ dev.blocks) (page : Nat) (nFreeChunks : Int)
    (one_more : nFreeChunks = dev.nFreeChunks + 1) :
    ({ (dev.clearChunkBit block page).addPagesInUse block (-1) with nFreeChunks } : Dev Flash).books =
      dev.books.unmarkPage block page := by
  have bounds := pagesInUse_bounds sound block_mem
  have put := dev.books_putPage block page false (-1) (by omega) (by omega)
  subst one_more
  exact congrArg (fun books : Books => { books with nFreeChunks := dev.nFreeChunks + 1 }) put

theorem books_markPage (sound : dev.books.Sound free erased checkpt) {block : Nat}
    (block_mem : block ∈ dev.blocks) {page : Nat} (page_lt : page < dev.param.chunksPerBlock)
    (unused : dev.chunkBits block page = false) (nFreeChunks : Int)
    (one_less : nFreeChunks = dev.nFreeChunks - 1) :
    ({ (dev.setChunkBit block page).addPagesInUse block 1 with nFreeChunks } : Dev Flash).books =
      dev.books.markPage block page := by
  have counted : (dev.blockInfo block).pagesInUse = (dev.books.sheet block).marked _ :=
    (sound.sheet block block_mem).counted
  have marked := Sheet.marked_put (dev.books.sheet block) page true 0 page_lt
  rw [show (dev.books.sheet block).inUse page = false from unused] at marked
  have upper := Sheet.marked_le dev.param.chunksPerBlock
    ((dev.books.sheet block).put page true 0)
  have pages_le : dev.param.chunksPerBlock ≤ 511 := sound.pages_le
  have bounds := pagesInUse_bounds sound block_mem
  have put := dev.books_putPage block page true 1 (by omega) (by
    simp only [if_true, Bool.false_eq_true, if_false] at marked
    change (dev.blockInfo block).pagesInUse = (dev.books.sheet block).marked
      dev.param.chunksPerBlock at counted
    omega)
  subst one_less
  exact congrArg (fun books : Books => { books with nFreeChunks := dev.nFreeChunks - 1 }) put

/-- A page in use is taken out of its block, and the block reused when it was the last one. -/
theorem releasePage_books (balanced : dev.books.Balanced) {block page : Nat}
    (in_use : dev.InUse block page) :
    (dev.releasePage T block page).books.Balanced ∧
      Books.Moves (· = block) dev.books (dev.releasePage T block page).books := by
  have writing := balanced.writing_of_used in_use.block_mem in_use.page_lt in_use.used
  have holds : holdsPages (dev.blockState block) = true := by
    rcases writing with state | state | state <;>
      rw [show dev.blockState block = _ from state] <;> rfl
  let released : Dev Flash :=
    (({ dev with nFreeChunks := dev.nFreeChunks + 1 } : Dev Flash).clearChunkBit block page
      |>.addPagesInUse block (-1))
  have released_books : released.books = dev.books.unmarkPage block page :=
    books_unmarkPage balanced.toSound in_use.block_mem page _ rfl
  have released_balanced : released.books.Balanced := by
    rw [released_books]
    exact balanced.unmarkPage in_use.block_mem in_use.page_lt in_use.used
  have released_moves : Books.Moves (· = block) dev.books released.books := by
    rw [released_books]
    exact .unmarkPage block page
  have state : released.blockState block = dev.blockState block := by
    simp [released, addPagesInUse, blockState_modifyBlockInfo]
    rfl
  simp only [releasePage, if_pos holds]
  split
  case isTrue dirty =>
    have held : Sheet.Held (released.blockState block) := by
      rw [state]
      refine writing.resolve_left fun allocating => dirty.2.2.1 ?_
      change released.blockState block = .allocating
      rw [state]
      exact allocating
    have released_mem : block ∈ released.blocks := in_use.block_mem
    obtain ⟨after, after_moves⟩ := blockBecameDirty_books T released_balanced released_mem held dirty.1
    exact ⟨after, released_moves.trans after_moves⟩
  case isFalse => exact ⟨released_balanced, released_moves⟩

theorem block_pos (sound : dev.books.Sound free erased checkpt) {block : Nat}
    (block_mem : block ∈ dev.blocks) : 0 < block := by
  have bounds := (dev.mem_blocks block).mp block_mem
  have first_pos : 0 < dev.internalStartBlock := sound.first_pos
  omega

/-- A page of an older block is deleted: the block becomes the oldest dirty one.  It cannot be the
allocation block, which is the youngest of all. -/
theorem updateOldestDirtySeq_books (balanced : dev.books.Balanced) {block page : Nat}
    (in_use : dev.InUse block page) :
    (dev.updateOldestDirtySeq block).books.Balanced ∧
      (dev.updateOldestDirtySeq block).books =
        { dev.books with
          oldestDirtySeq := (dev.updateOldestDirtySeq block).oldestDirtySeq
          oldestDirtyBlock := (dev.updateOldestDirtySeq block).oldestDirtyBlock } := by
  simp only [updateOldestDirtySeq]
  split
  case isTrue older =>
    obtain ⟨_, _, younger⟩ := older
    have oldest_le : dev.oldestDirtySeq ≤ dev.seqNumber := balanced.oldest_le
    have held : Sheet.Held (dev.books.sheet block).state := by
      refine (balanced.writing_of_used in_use.block_mem in_use.page_lt in_use.used).resolve_left ?_
      intro allocating
      have alloc := balanced.allocating block in_use.block_mem allocating
      have seq : (dev.blockInfo block).seqNumber = dev.seqNumber :=
        (balanced.allocBlock block alloc).2.2
      omega
    have target : dev.books.Target block := fun _ => ⟨in_use.block_mem, held⟩
    refine ⟨⟨{ balanced.toSound with
      oldest := target
      oldest_seq := fun _ => rfl
      oldest_le := ?_ }, { balanced.toWritable with }⟩, rfl⟩
    change (dev.blockInfo block).seqNumber ≤ dev.seqNumber
    omega
  case isFalse => exact ⟨balanced, rfl⟩

/-- Deleting a page in use keeps the books balanced. -/
theorem chunkDel_books (balanced : dev.books.Balanced) (chunk : Int) (markFlash : Bool)
    (in_use : 0 < chunk → dev.InUse (chunk.toNat / dev.param.chunksPerBlock)
      (chunk.toNat % dev.param.chunksPerBlock)) :
    (dev.chunkDel T chunk markFlash).books.Balanced ∧
      Books.Moves (· = chunk.toNat / dev.param.chunksPerBlock) dev.books
        (dev.chunkDel T chunk markFlash).books := by
  simp only [chunkDel]
  split
  case isTrue => exact ⟨balanced, .refl _⟩
  case isFalse positive =>
    have in_use := in_use (by omega)
    generalize chunk.toNat / dev.param.chunksPerBlock = block at *
    obtain ⟨updated, updated_eq⟩ := updateOldestDirtySeq_books balanced in_use
    have moves : Books.Moves (· = block) dev.books (dev.updateOldestDirtySeq block).books := by
      rw [updated_eq]
      exact ⟨rfl, rfl, rfl, rfl, fun _ _ _ => rfl⟩
    have isYaffs2 : (dev.updateOldestDirtySeq block).param.isYaffs2 = true := updated.fits.1
    have in_use' : (dev.updateOldestDirtySeq block).InUse block
        (chunk.toNat % dev.param.chunksPerBlock) := by
      refine ⟨?_, ?_, ?_⟩
      · change block ∈ (dev.updateOldestDirtySeq block).books.blocks
        rw [moves.blocks]
        exact in_use.block_mem
      · exact lt_of_lt_of_eq in_use.page_lt moves.chunksPerBlock.symm
      · have same := congrArg (fun books : Books => (books.sheet block).inUse) updated_eq
        exact (congrFun same _).trans in_use.used
    simp only [isYaffs2, not_true, false_and, if_false]
    obtain ⟨released, released_moves⟩ := releasePage_books T updated in_use'
    exact ⟨released, moves.trans released_moves⟩

/-- Leaving the rest of the allocation block alone balances the books, wherever its pages have been
put in use. -/
theorem skipRestOfBlock_books (sound : dev.books.Sound 0 0 0) :
    dev.skipRestOfBlock.books.Balanced ∧
      Books.Moves (fun _ => False) dev.books dev.skipRestOfBlock.books ∧
      dev.skipRestOfBlock.chunkBits = dev.chunkBits := by
  simp only [skipRestOfBlock]
  split
  case h_1 block alloc =>
    obtain ⟨block_mem, allocating, _⟩ := sound.allocBlock block alloc
    rw [if_pos ⟨block_pos sound block_mem, allocating⟩]
    have closed : ({ dev.setBlockState block .full with allocBlock := none } : Dev Flash).books =
        dev.books.closeAlloc block :=
      congrArg (fun books : Books => { books with allocBlock := none })
        (dev.books_setBlockState block .full)
    rw [closed]
    refine ⟨⟨sound.closeAlloc alloc, ⟨nofun, nofun⟩⟩, (Books.Moves.closeAlloc block).mono ?_, rfl⟩
    rintro other collecting rfl
    have absurd_state := collecting.symm.trans allocating
    cases absurd_state
  case h_2 none =>
    exact ⟨⟨sound, ⟨fun _ alloc => by simp [books, none] at alloc,
      fun _ alloc => by simp [books, none] at alloc⟩⟩, .refl _, rfl⟩

theorem InUse.of_books {after : Dev Flash} {block page : Nat} (in_use : dev.InUse block page)
    (same : after.books = dev.books) : after.InUse block page where
  block_mem := by
    have blocks : after.books.blocks = dev.books.blocks := congrArg Books.blocks same
    change block ∈ after.books.blocks
    rw [blocks]
    exact in_use.block_mem
  page_lt := by
    have pages : after.books.chunksPerBlock = dev.books.chunksPerBlock :=
      congrArg Books.chunksPerBlock same
    exact lt_of_lt_of_eq in_use.page_lt pages.symm
  used := by
    have sheet := congrArg (fun books : Books => (books.sheet block).inUse page) same
    exact sheet.trans in_use.used

theorem page_of_chunk (block : Nat) {pages page : Nat} (page_lt : page < pages) :
    (block * pages + page) / pages = block ∧ (block * pages + page) % pages = page := by
  have pages_pos : 0 < pages := by omega
  refine ⟨?_, ?_⟩
  · rw [Nat.mul_comm, Nat.mul_add_div pages_pos, Nat.div_eq_of_lt page_lt, Nat.add_zero]
  · rw [Nat.mul_comm, Nat.mul_add_mod, Nat.mod_eq_of_lt page_lt]

theorem chunkDel_page_books (balanced : dev.books.Balanced) {block page : Nat}
    (in_use : dev.InUse block page) (markFlash : Bool) :
    (dev.chunkDel T (block * dev.param.chunksPerBlock + page : Nat) markFlash).books.Balanced ∧
      Books.Moves (· = block) dev.books
        (dev.chunkDel T (block * dev.param.chunksPerBlock + page : Nat) markFlash).books := by
  obtain ⟨block_eq, page_eq⟩ := page_of_chunk block in_use.page_lt
  have deleted := chunkDel_books T balanced
    (block * dev.param.chunksPerBlock + page : Nat) markFlash
    (fun _ => by rw [Int.toNat_natCast, block_eq, page_eq]; exact in_use)
  rw [Int.toNat_natCast, block_eq] at deleted
  exact deleted

/-- A failed write gives its page up and leaves the rest of the block alone. -/
theorem handleChunkWrError_books (balanced : dev.books.Balanced) {block page : Nat}
    (in_use : dev.InUse block page) (erasedOk : Bool) :
    (dev.handleChunkWrError T (block * dev.param.chunksPerBlock + page) erasedOk).books.Balanced ∧
      Books.Moves (· = block) dev.books
        (dev.handleChunkWrError T (block * dev.param.chunksPerBlock + page) erasedOk).books := by
  simp only [handleChunkWrError]
  have noted_books := dev.books_handleChunkError
    ((block * dev.param.chunksPerBlock + page) / dev.param.chunksPerBlock)
  generalize (block * dev.param.chunksPerBlock + page) / dev.param.chunksPerBlock = noted at *
  have condemned_books :
      (if erasedOk = true then
        (dev.handleChunkError noted).modifyBlockInfo noted fun info =>
          { info with needsRetiring := true }
      else dev.handleChunkError noted).books = dev.books := by
    split
    · exact (books_modifyBlockInfo_same _ noted (fun info => { info with needsRetiring := true })
        fun _ _ => rfl).trans noted_books
    · exact noted_books
  generalize (if erasedOk = true then
    (dev.handleChunkError noted).modifyBlockInfo noted fun info => { info with needsRetiring := true }
    else dev.handleChunkError noted) = condemned at *
  have pages : condemned.param.chunksPerBlock = dev.param.chunksPerBlock :=
    congrArg Books.chunksPerBlock condemned_books
  have condemned_balanced : condemned.books.Balanced := condemned_books ▸ balanced
  obtain ⟨deleted, moves⟩ := chunkDel_page_books T condemned_balanced
    (in_use.of_books condemned_books) true
  rw [pages] at deleted moves
  obtain ⟨skipped, skip_moves, _⟩ := skipRestOfBlock_books deleted.toSound
  rw [condemned_books] at moves
  exact ⟨skipped, moves.trans (skip_moves.mono fun _ _ exempted => exempted.elim)⟩

/-! ## Allocation -/

/-- The search for an erased block finds one of the device, or nothing has changed in the books. -/
theorem findAllocBlockLoop_books (left : Nat) (dev : Dev Flash)
    (first_le : dev.internalStartBlock ≤ dev.internalEndBlock) :
    (findAllocBlockLoop left dev).1 = none ∧
        (findAllocBlockLoop left dev).2.books = dev.books ∨
      ∃ block before, (findAllocBlockLoop left dev) = (some block, takeAllocBlock before block) ∧
        before.books = dev.books ∧ block ∈ dev.blocks ∧ dev.blockState block = .empty := by
  induction left generalizing dev with
  | zero => exact .inl ⟨rfl, rfl⟩
  | succ left ih =>
    have inside : dev.stepAllocFinder.allocBlockFinder ∈ dev.blocks := by
      simp only [stepAllocFinder, mem_blocks]
      split <;> omega
    rw [findAllocBlockLoop]
    split
    case isTrue empty => exact .inr ⟨_, dev.stepAllocFinder, rfl, rfl, inside, empty⟩
    case isFalse => exact ih dev.stepAllocFinder first_le

theorem takeAllocBlock_books (dev : Dev Flash) (block : Nat) :
    ({ dev.takeAllocBlock block with allocBlock := some block, allocPage := 0 } : Dev Flash).books =
      dev.books.takeErased block := by
  let change (info : BlockInfo) : BlockInfo :=
    { info with blockState := .allocating, seqNumber := dev.seqNumber + 1 }
  exact congrArg (fun books : Books =>
    { books with
      seqNumber := dev.seqNumber + 1
      nErasedBlocks := dev.nErasedBlocks - 1
      allocBlock := some block
      allocPage := 0 }) (dev.books_modifyBlockInfo block change)

/-- There is a block to allocate off, if there is an erased block. -/
theorem ensureAllocBlock_books (balanced : dev.books.Balanced) :
    dev.ensureAllocBlock.books.Balanced ∧
      Books.Moves (fun _ => False) dev.books dev.ensureAllocBlock.books := by
  simp only [ensureAllocBlock]
  split
  case h_1 => exact ⟨balanced, .refl _⟩
  case h_2 no_alloc =>
    have unchanged (after : Dev Flash) (same : after.books = dev.books) :
        ({ after with allocBlock := none, allocPage := 0 } : Dev Flash).books.Balanced ∧
          Books.Moves (fun _ => False) dev.books
            ({ after with allocBlock := none, allocPage := 0 } : Dev Flash).books := by
      have eq : ({ after with allocBlock := none, allocPage := 0 } : Dev Flash).books =
          { dev.books with allocBlock := none, allocPage := 0 } :=
        congrArg (fun books : Books => { books with allocBlock := none, allocPage := 0 }) same
      rw [eq]
      refine ⟨⟨{ balanced.toSound with allocating := ?_, allocBlock := nofun },
        ⟨nofun, nofun⟩⟩, ⟨rfl, rfl, rfl, rfl, fun _ _ _ => rfl⟩⟩
      intro block block_mem state
      exact no_alloc.symm.trans (balanced.allocating block block_mem state)
    simp only [findAllocBlock]
    split
    case isTrue => exact unchanged dev rfl
    case isFalse =>
      rcases findAllocBlockLoop_books dev.nBlocks dev balanced.first_le with
        ⟨not_found, same⟩ | ⟨block, before, found, same, block_mem, empty⟩
      · rw [not_found]
        exact unchanged _ same
      · rw [found]
        simp only
        rw [takeAllocBlock_books, same]
        obtain ⟨sound, writable⟩ := balanced.takeErased block_mem no_alloc empty
        have taken : Books.Moves (· = block) dev.books (dev.books.takeErased block) :=
          { Books.Moves.put dev.books block
              { dev.books.sheet block with
                state := .allocating
                seqNumber := dev.seqNumber + 1 } with }
        refine ⟨⟨sound, writable⟩, taken.mono ?_⟩
        · rintro other collecting rfl
          have absurd_state := collecting.symm.trans empty
          cases absurd_state

/-- What the caller of the allocation gets: a page in use of a block that is not being collected,
and more pages behind it unless it is the last one. -/
structure Allocated (dev : Dev Flash) (block page : Nat) : Prop extends InUse dev block page where
  not_collecting : dev.blockState block ≠ .collecting
  more : page + 1 < dev.param.chunksPerBlock →
    dev.allocBlock = some block ∧ dev.allocPage = page + 1

theorem takeAllocPage_books (balanced : dev.books.Balanced) {block : Nat}
    (alloc : dev.allocBlock = some block) :
    (dev.takeAllocPage block).books.Balanced ∧
      Books.Moves (fun _ => False) dev.books (dev.takeAllocPage block).books ∧
      (dev.takeAllocPage block).Allocated block dev.allocPage := by
  obtain ⟨block_mem, allocating, _⟩ := balanced.allocBlock block alloc
  have page_lt := balanced.page_lt block alloc
  have unused := balanced.clear block alloc dev.allocPage le_rfl page_lt
  let taken : Dev Flash :=
    { (dev.addPagesInUse block 1).setChunkBit block dev.allocPage with
      allocPage := dev.allocPage + 1
      nFreeChunks := dev.nFreeChunks - 1 }
  have taken_books : taken.books = dev.books.takePage block :=
    congrArg (fun books : Books => { books with allocPage := dev.allocPage + 1 })
      (books_markPage balanced.toSound block_mem page_lt unused (dev.nFreeChunks - 1) rfl)
  obtain ⟨sound, writable⟩ := balanced.takePage alloc
  have not_collecting : (dev.books.sheet block).state ≠ .collecting := by
    rw [allocating]
    decide
  have moves : Books.Moves (fun _ => False) dev.books (dev.books.takePage block) := by
    have marked : Books.Moves (· = block) dev.books (dev.books.takePage block) :=
      { (Books.Moves.markPage block dev.allocPage :
        Books.Moves _ dev.books (dev.books.markPage block dev.allocPage)) with }
    refine marked.mono ?_
    rintro other collecting rfl
    exact absurd collecting not_collecting
  have in_use : taken.InUse block dev.allocPage :=
    ⟨block_mem, page_lt, by simp [taken, setChunkBit, putChunkBit]⟩
  have state : taken.blockState block = .allocating := by
    refine Eq.trans ?_ allocating
    simp [taken, setChunkBit, putChunkBit, addPagesInUse, blockState, modifyBlockInfo, setBlockInfo,
      books, sheetOf]
  have result : dev.takeAllocPage block =
      if dev.param.chunksPerBlock ≤ dev.allocPage + 1 then
        { taken.setBlockState block .full with allocBlock := none }
      else taken := rfl
  rw [result]
  split
  case isTrue last =>
    have closed_books :
        ({ taken.setBlockState block .full with allocBlock := none } : Dev Flash).books =
          (dev.books.takePage block).closeAlloc block := by
      rw [← taken_books]
      exact congrArg (fun books : Books => { books with allocBlock := none })
        (taken.books_setBlockState block .full)
    rw [closed_books]
    refine ⟨⟨sound.closeAlloc alloc, ⟨fun _ none => (by cases none), fun _ none => (by cases none)⟩⟩,
      moves.trans ?_, ⟨?_, ?_, fun more => ?_⟩⟩
    · refine (Books.Moves.closeAlloc block).mono ?_
      rintro other collecting rfl
      have absurd_state := collecting.symm.trans ((congrArg
        (fun books : Books => (books.sheet other).state) taken_books).symm.trans state)
      cases absurd_state
    · exact ⟨in_use.block_mem, in_use.page_lt, in_use.used⟩
    · change (taken.setBlockState block .full).blockState block ≠ .collecting
      simp
    · change dev.allocPage + 1 < dev.param.chunksPerBlock at more
      omega
  case isFalse not_last =>
    rw [taken_books]
    refine ⟨⟨sound, writable (Nat.lt_of_not_le not_last)⟩, moves, ⟨in_use, ?_, fun _ => ⟨alloc, rfl⟩⟩⟩
    rw [state]
    decide

theorem allocChunk_books (balanced : dev.books.Balanced) (useReserver : Bool) :
    (dev.allocChunk useReserver).2.books.Balanced ∧
      Books.Moves (fun _ => False) dev.books (dev.allocChunk useReserver).2.books ∧
      ∀ block page, (dev.allocChunk useReserver).1 = some (block, page) →
        (dev.allocChunk useReserver).2.Allocated block page := by
  obtain ⟨ensured, moves⟩ := ensureAllocBlock_books balanced
  have same := dev.ensureAllocBlock.books_mayAlloc useReserver
  have available : (dev.ensureAllocBlock.mayAlloc useReserver).2.books.Balanced := same ▸ ensured
  have available_moves : Books.Moves (fun _ => False) dev.books
      (dev.ensureAllocBlock.mayAlloc useReserver).2.books := same ▸ moves
  simp only [allocChunk]
  split
  · exact ⟨available, available_moves, nofun⟩
  · split
    case h_1 block alloc =>
      obtain ⟨taken, taken_moves, allocated⟩ := takeAllocPage_books available alloc
      refine ⟨taken, available_moves.trans taken_moves, fun other page found => ?_⟩
      obtain ⟨rfl, rfl⟩ := Prod.mk.inj (Option.some.inj found)
      exact allocated
    case h_2 => exact ⟨available, available_moves, nofun⟩

/-! ## Summaries -/

theorem length_summaryBytes (sumTags : Nat → SummaryTags) :
    (dev.summaryBytes sumTags).length = summaryTagsSize * dev.chunksPerSummary := by
  simp [summaryBytes, summaryTagsSize, List.length_flatMap, Nat.mul_comm]

/-- The summary loop puts pages in use one after the other, and does not run out of them. -/
theorem summaryWriteLoop_books (block : Nat) (header : List UInt8) (chunk : Int) (fuel index : Nat)
    (bytes : List UInt8) (dev : Dev Flash) (sound : dev.books.Sound 0 0 0)
    (alloc : dev.allocBlock = some block) (nonempty : bytes ≠ [])
    (clear : dev.books.ClearFrom (dev.chunksPerSummary + index))
    (room : bytes.length ≤ (dev.param.chunksPerBlock - (dev.chunksPerSummary + index)) *
      (dev.dataBytesPerChunk - summaryHeaderSize)) :
    let after := (summaryWriteLoop T block header chunk fuel index bytes dev).2
    after.books.Sound 0 0 0 ∧ Books.Moves (fun _ => False) dev.books after.books ∧
      ∀ other page, dev.chunkBits other page = true → after.chunkBits other page = true := by
  induction fuel generalizing index bytes dev with
  | zero => exact ⟨sound, .refl _, fun _ _ used => used⟩
  | succ fuel ih =>
    intro after
    obtain ⟨block_mem, allocating, _⟩ := sound.allocBlock block alloc
    have bytes_pos : 0 < bytes.length := List.length_pos_iff.mpr nonempty
    have page_lt : dev.chunksPerSummary + index < dev.param.chunksPerBlock := by
      by_contra full
      rw [Nat.sub_eq_zero_of_le (by omega), Nat.zero_mul] at room
      omega
    have unused : dev.chunkBits block (dev.chunksPerSummary + index) = false :=
      clear block alloc _ le_rfl page_lt
    have counted_books (flash : Flash) (log : List Event) :
        (({ dev with flash, log } : Dev Flash).countSummaryPage block
          (dev.chunksPerSummary + index)).books =
          dev.books.markPage block (dev.chunksPerSummary + index) := by
      have same : ({ dev with flash, log } : Dev Flash).books.Sound 0 0 0 := sound
      exact books_markPage same block_mem page_lt unused _ rfl
    have moves : Books.Moves (fun _ => False) dev.books
        (dev.books.markPage block (dev.chunksPerSummary + index)) := by
      refine (Books.Moves.markPage block _).mono ?_
      rintro other collecting rfl
      have absurd_state := collecting.symm.trans allocating
      cases absurd_state
    have marked := sound.markPage block_mem page_lt unused allocating
    have counted (flash : Flash) (log : List Event) :
        let counted := ({ dev with flash, log } : Dev Flash).countSummaryPage block
          (dev.chunksPerSummary + index)
        counted.books.Sound 0 0 0 ∧ Books.Moves (fun _ => False) dev.books counted.books ∧
          ∀ other page, dev.chunkBits other page = true → counted.chunkBits other page = true := by
      intro counted
      refine ⟨counted_books flash log ▸ marked, counted_books flash log ▸ moves, ?_⟩
      intro other page used
      have bits := congrArg (fun books : Books => (books.sheet other).inUse page)
        (counted_books flash log)
      refine bits.trans ?_
      rw [Books.markPage_inUse, show (dev.books.sheet other).inUse page = true from used,
        Bool.or_true]
    simp only [after, summaryWriteLoop]
    split
    · exact ⟨sound, .refl _, fun _ _ used => used⟩
    · split
      case isTrue => exact counted _ _
      case isFalse more =>
        obtain ⟨counted_sound, counted_moves, counted_bits⟩ := counted
          (dev.programPage T .guts (chunk + index) (some fun i => (header ++ bytes.take
            (min bytes.length (dev.dataBytesPerChunk - summaryHeaderSize))).getD i 0)
            { objId := objectIdSummary
              chunkId := index + 1
              nBytes := min bytes.length (dev.dataBytesPerChunk - summaryHeaderSize)
                + summaryHeaderSize
              seqNumber := dev.seqNumber
              chunkUsed := true }).2.flash
          (dev.programEntry .guts (chunk + index)
            { objId := objectIdSummary
              chunkId := index + 1
              nBytes := min bytes.length (dev.dataBytesPerChunk - summaryHeaderSize)
                + summaryHeaderSize
              seqNumber := dev.seqNumber
              chunkUsed := true } :: dev.log)
        have clear' : (dev.books.markPage block (dev.chunksPerSummary + index)).ClearFrom
            (dev.chunksPerSummary + (index + 1)) := by
          intro other other_alloc page page_ge page_lt
          rw [Books.markPage_inUse, clear other other_alloc page (by omega) page_lt]
          simp only [Bool.or_false, decide_eq_false_iff_not, not_and]
          omega
        have room' : (bytes.drop
            (min bytes.length (dev.dataBytesPerChunk - summaryHeaderSize))).length ≤
            (dev.param.chunksPerBlock - (dev.chunksPerSummary + (index + 1))) *
              (dev.dataBytesPerChunk - summaryHeaderSize) := by
          have pages : dev.param.chunksPerBlock - (dev.chunksPerSummary + index) =
              dev.param.chunksPerBlock - (dev.chunksPerSummary + (index + 1)) + 1 := by omega
          rw [pages, Nat.add_mul, Nat.one_mul] at room
          rw [List.length_drop]
          omega
        obtain ⟨rest_sound, rest_moves, rest_bits⟩ := ih (index + 1) _ _ counted_sound alloc more
          (counted_books _ _ ▸ clear') room'
        exact ⟨rest_sound, counted_moves.trans rest_moves,
          fun other page used => rest_bits other page (counted_bits other page used)⟩

/-- The summary of a block is written behind its last covered page, and ends the block. -/
theorem summaryAdd_books (balanced : dev.books.Balanced) {block page : Nat}
    (allocated : dev.Allocated block page) (tags : ExtTags) :
    let after := dev.summaryAdd T tags (block * dev.param.chunksPerBlock + page)
    after.books.Balanced ∧ Books.Moves (fun _ => False) dev.books after.books ∧
      after.InUse block page := by
  have in_use_of (after : Dev Flash) (moves : Books.Moves (fun _ => False) dev.books after.books)
      (bits : ∀ other page, dev.chunkBits other page = true → after.chunkBits other page = true) :
      after.InUse block page := by
    refine ⟨?_, lt_of_lt_of_eq allocated.page_lt moves.chunksPerBlock.symm,
      bits block page allocated.used⟩
    change block ∈ after.books.blocks
    rw [moves.blocks]
    exact allocated.block_mem
  simp only [summaryAdd, page_of_chunk block allocated.page_lt]
  split
  case h_1 => exact ⟨balanced, .refl _, allocated.toInUse⟩
  case h_2 sumTags summaries =>
    have summaries' : dev.sumTags.isSome = true := by rw [summaries]; rfl
    let noted : Dev Flash :=
      { dev with sumTags := some (Function.update sumTags page (packTags2TagsOnly tags)) }
    have noted_books : noted.books = dev.books :=
      congrArg (fun summaries => { dev.books with layout.summaries := summaries }) summaries'.symm
    split
    case isTrue covered =>
      split
      case isTrue last =>
        obtain ⟨_, summary_lt, room⟩ := balanced.fits.2 summaries'
        change dev.chunksPerSummary < dev.param.chunksPerBlock at summary_lt
        obtain ⟨alloc, alloc_page⟩ := allocated.more (by omega)
        let sumTags' := Function.update sumTags page (packTags2TagsOnly tags)
        have length := noted.length_summaryBytes sumTags'
        have nonempty : noted.summaryBytes sumTags' ≠ [] := by
          rw [← List.length_pos_iff, length]
          exact Nat.mul_pos (by decide) (by change 0 < dev.chunksPerSummary; omega)
        have clear : noted.books.ClearFrom (noted.chunksPerSummary + 0) := by
          rw [noted_books]
          have from_page := balanced.clear
          change dev.books.ClearFrom dev.allocPage at from_page
          rwa [alloc_page, show page + 1 = dev.chunksPerSummary + 0 by omega] at from_page
        obtain ⟨sound, moves, bits⟩ := summaryWriteLoop_books T block
          (noted.summaryHeader block (noted.summaryBytes sumTags')) noted.summaryChunk
          (noted.summaryBytes sumTags').length 0 (noted.summaryBytes sumTags') noted
          (noted_books ▸ balanced.toSound) alloc nonempty clear (by rw [length]; exact room)
        let written := summaryWriteLoop T block
          (noted.summaryHeader block (noted.summaryBytes sumTags')) noted.summaryChunk
          (noted.summaryBytes sumTags').length 0 (noted.summaryBytes sumTags') noted
        let wrote := (noted.summaryWrite T block sumTags').summaryClear
        have wrote_books : wrote.books = written.2.books := by
          have cleared (dev : Dev Flash) : dev.summaryClear.books = dev.books := by
            simp [summaryClear, books]
          refine (cleared _).trans ?_
          simp only [summaryWrite]
          split
          · exact books_modifyBlockInfo_same _ block (fun info => { info with hasSummary := true })
              fun _ _ => rfl
          · rfl
        have wrote_bits : wrote.chunkBits = written.2.chunkBits := by
          simp only [wrote, summaryClear, summaryWrite]
          split <;> rfl
        have wrote_sound : wrote.books.Sound 0 0 0 := wrote_books ▸ sound
        obtain ⟨skipped, skip_moves, skip_bits⟩ := skipRestOfBlock_books wrote_sound
        have all_moves : Books.Moves (fun _ => False) dev.books wrote.skipRestOfBlock.books := by
          refine Books.Moves.trans ?_ skip_moves
          rw [wrote_books]
          exact noted_books ▸ moves
        refine ⟨skipped, all_moves, in_use_of _ all_moves fun other page used => ?_⟩
        rw [skip_bits, wrote_bits]
        exact bits other page used
      case isFalse =>
        exact ⟨noted_books ▸ balanced, noted_books ▸ .refl _, allocated.toInUse.of_books noted_books⟩
    case isFalse => exact ⟨balanced, .refl _, allocated.toInUse⟩

/-! ## Writing a new page -/

theorem Allocated.of_books {after : Dev Flash} {block page : Nat}
    (allocated : dev.Allocated block page) (same : after.books = dev.books) :
    after.Allocated block page where
  toInUse := allocated.toInUse.of_books same
  not_collecting := by
    have state := congrArg (fun books : Books => (books.sheet block).state) same
    exact fun collecting => allocated.not_collecting (state.symm.trans collecting)
  more more := by
    have pages : after.param.chunksPerBlock = dev.param.chunksPerBlock :=
      congrArg Books.chunksPerBlock same
    have alloc : after.allocBlock = dev.allocBlock := congrArg Books.allocBlock same
    have page_eq : after.allocPage = dev.allocPage := congrArg Books.allocPage same
    rw [alloc, page_eq]
    exact allocated.more (pages ▸ more)

/-- Writing an allocated page, whether it succeeds or not, leaves it in use. -/
theorem wrVerified_books (balanced : dev.books.Balanced) {block page : Nat}
    (allocated : dev.Allocated block page) (data : Buf) (tags : ExtTags) :
    let after :=
      (dev.wrVerified T block (block * dev.param.chunksPerBlock + page) data tags).2
    after.books.Balanced ∧ Books.Moves (fun _ => False) dev.books after.books ∧
      after.InUse block page := by
  let chunk := block * dev.param.chunksPerBlock + page
  have written (flash : Flash) (log : List Event) (tags' : ExtTags) :=
    have same : ({ dev with flash, log } : Dev Flash).books.Balanced := balanced
    summaryAdd_books T same (allocated.of_books rfl) tags'
  simp only [wrVerified]
  split
  · exact written _ _ _
  · obtain ⟨added, moves, in_use⟩ := written
      (dev.programPage T .guts chunk (some data)
        { tags with seqNumber := dev.seqNumber, chunkUsed := true }).2.flash
      (dev.programEntry .guts chunk { tags with seqNumber := dev.seqNumber, chunkUsed := true } ::
        dev.log)
      { tags with seqNumber := dev.seqNumber, chunkUsed := true }
    have same := books_rdChunkTagsNand T (dev.wrChunkTagsNand T chunk (some data) tags).2 chunk
    exact ⟨same ▸ added, same ▸ moves, in_use.of_books same⟩

/-- One attempt to write an allocated page. -/
theorem tryChunk_books (balanced : dev.books.Balanced) {block page : Nat}
    (allocated : dev.Allocated block page) (data : Buf) (tags : ExtTags) :
    let tried := dev.tryChunk T block page data tags
    tried.2.books.Balanced ∧ Books.Moves (fun _ => False) dev.books tried.2.books ∧
      (tried.1 = true → tried.2.InUse block page) := by
  have not_exempt (other : Nat) (collecting : (dev.books.sheet other).state = .collecting) :
      other ≠ block := by
    rintro rfl
    exact allocated.not_collecting collecting
  have prepared_books : ((dev.resetErasedCheck block).erasedCheck T block
      (block * dev.param.chunksPerBlock + page)).2.books = dev.books :=
    (books_erasedCheck T _ _ _).trans (dev.books_resetErasedCheck block)
  simp only [tryChunk]
  generalize (dev.resetErasedCheck block).erasedCheck T block
    (block * dev.param.chunksPerBlock + page) = erased at *
  have pages : erased.2.param.chunksPerBlock = dev.param.chunksPerBlock :=
    congrArg Books.chunksPerBlock prepared_books
  have erased_balanced : erased.2.books.Balanced := prepared_books ▸ balanced
  have erased_allocated := allocated.of_books prepared_books
  split
  case isTrue =>
    obtain ⟨deleted, moves⟩ := chunkDel_page_books T erased_balanced erased_allocated.toInUse true
    rw [pages] at deleted moves
    obtain ⟨skipped, skip_moves, _⟩ := skipRestOfBlock_books deleted.toSound
    rw [prepared_books] at moves
    refine ⟨skipped, Books.Moves.trans (moves.mono ?_) skip_moves, nofun⟩
    exact fun other collecting same => not_exempt other collecting same
  case isFalse =>
    obtain ⟨verified, moves, in_use⟩ := wrVerified_books T erased_balanced erased_allocated data tags
    rw [pages] at verified moves in_use
    rw [prepared_books] at moves
    split
    case isTrue =>
      have same := books_modifyBlockInfo_same
        (erased.2.wrVerified T block (block * dev.param.chunksPerBlock + page) data tags).2 block
        (fun info => { info with skipErasedCheck := true }) fun _ _ => rfl
      exact ⟨same ▸ verified, same ▸ moves, fun _ => in_use.of_books same⟩
    case isFalse =>
      obtain ⟨handled, handled_moves⟩ := handleChunkWrError_books T verified in_use erased.1
      rw [show (erased.2.wrVerified T block (block * dev.param.chunksPerBlock + page) data
        tags).2.param.chunksPerBlock = _ from moves.chunksPerBlock] at handled handled_moves
      have all_moves := (moves.mono fun _ _ exempted => exempted.elim).trans handled_moves
      exact ⟨handled, all_moves.mono fun other collecting same =>
        not_exempt other collecting same, nofun⟩

/-- Writing a new page keeps the books balanced, however many attempts it takes.  No block that is
being collected is touched, and a page that could be written is in use. -/
theorem writeNewChunkLoop_books (data : Buf) (tags : ExtTags) (useReserver : Bool)
    (fuel attempts : Nat) (dev : Dev Flash) (balanced : dev.books.Balanced) :
    let written := writeNewChunkLoop T data tags useReserver fuel attempts dev
    written.2.books.Balanced ∧ Books.Moves (fun _ => False) dev.books written.2.books ∧
      ∀ chunk, written.1 = some chunk →
        ∃ block page, chunk = block * dev.param.chunksPerBlock + page ∧
          written.2.InUse block page ∧ dev.blockState block ≠ .collecting := by
  induction fuel generalizing attempts dev with
  | zero => exact ⟨balanced, .refl _, nofun⟩
  | succ fuel ih =>
    obtain ⟨allocated, moves, page_allocated⟩ := allocChunk_books balanced useReserver
    simp only [writeNewChunkLoop]
    split
    case h_1 => exact ⟨allocated, moves, nofun⟩
    case h_2 block page found =>
      have page_allocated := page_allocated block page found
      obtain ⟨tried, tried_moves, in_use⟩ := tryChunk_books T allocated page_allocated data tags
      have moves' := moves.trans tried_moves
      have not_collecting (block : Nat)
          (after : (dev.allocChunk useReserver).2.blockState block ≠ .collecting) :
          dev.blockState block ≠ .collecting := by
        intro collecting
        have same := moves.collecting block not_false collecting
        exact after ((congrArg Sheet.state same).trans collecting)
      split
      case isTrue success =>
        refine ⟨tried, moves', fun chunk chunk_eq => ⟨block, page, ?_, in_use success,
          not_collecting block page_allocated.not_collecting⟩⟩
        exact (Option.some.inj chunk_eq).symm
      case isFalse =>
        split
        case isTrue =>
          obtain ⟨rest, rest_moves, rest_in_use⟩ := ih (attempts + 1) _ tried
          refine ⟨rest, moves'.trans rest_moves, fun chunk chunk_eq => ?_⟩
          obtain ⟨block, page, eq, in_use, after⟩ := rest_in_use chunk chunk_eq
          refine ⟨block, page, eq.trans ?_, in_use, fun collecting => after ?_⟩
          · exact congrArg (fun pages => block * pages + page) moves'.chunksPerBlock
          · exact (congrArg Sheet.state (moves'.collecting block not_false collecting)).trans
              collecting
        case isFalse => exact ⟨tried, moves', nofun⟩

/-- Invalidating the checkpoint keeps the books balanced. -/
theorem checkptInvalidate_balanced (balanced : dev.books.Balanced) :
    (dev.checkptInvalidate T).books.Balanced ∧
      Books.Moves (fun _ => False) dev.books (dev.checkptInvalidate T).books := by
  obtain ⟨only, sound⟩ := checkptInvalidate_books T balanced.toSound
  exact ⟨⟨sound, only.writable balanced.toSound balanced.toWritable⟩, only.moves⟩

theorem writeNewChunk_books (balanced : dev.books.Balanced) (data : Buf) (tags : ExtTags)
    (useReserver : Bool) :
    let written := dev.writeNewChunk T data tags useReserver
    written.2.books.Balanced ∧ Books.Moves (fun _ => False) dev.books written.2.books ∧
      ∀ chunk, written.1 = some chunk →
        ∃ block page, chunk = block * dev.param.chunksPerBlock + page ∧
          written.2.InUse block page ∧ dev.blockState block ≠ .collecting := by
  obtain ⟨invalidated, moves⟩ := checkptInvalidate_balanced T balanced
  obtain ⟨written, written_moves, in_use⟩ := writeNewChunkLoop_books T data tags useReserver
    (dev.checkptInvalidate T).writeFuel 0 (dev.checkptInvalidate T) invalidated
  refine ⟨written, moves.trans written_moves, fun chunk chunk_eq => ?_⟩
  obtain ⟨block, page, eq, in_use, not_collecting⟩ := in_use chunk chunk_eq
  refine ⟨block, page, eq.trans ?_, in_use, fun collecting => not_collecting ?_⟩
  · exact congrArg (fun pages => block * pages + page) moves.chunksPerBlock
  · exact (congrArg Sheet.state (moves.collecting block not_false collecting)).trans collecting

/-! ## Saving a checkpoint -/

/-- While the stream is written, the counters of free pages and erased blocks still include the
blocks taken for the checkpoint. -/
structure Spending (dev : Dev Flash) : Prop where
  sound : dev.books.Sound (dev.blocksInCheckpt * dev.param.chunksPerBlock) dev.blocksInCheckpt 0
  writable : dev.books.Writable

/-- The stream is open for writing, and its cursor is in no block or behind the first page of one. -/
structure Writing (dev : Dev Flash) : Prop extends Spending dev where
  openWrite : dev.checkptOpenWrite = true
  cursor : dev.checkptCurBlock < 0 ∨ 0 < dev.checkptCurChunk
  next : dev.checkptNextBlock < 0 ∨ dev.internalStartBlock ≤ dev.checkptNextBlock

/-- A flush of the stream takes an erased block of the device, or none. -/
def FlushFits (dev : Dev Flash) : Prop :=
  dev.checkptEnterBlock.checkptCurBlock < 0 ∨ dev.checkptEnterBlock.checkptCurChunk ≠ 0 ∨
    ∃ block ∈ dev.blocks, dev.checkptEnterBlock.checkptCurBlock = block ∧
      dev.blockState block = .empty

theorem enterBlock_books (dev : Dev Flash) : dev.checkptEnterBlock.books = dev.books := by
  simp only [checkptEnterBlock]
  split
  · rcases dev.checkptFindErasedBlock_cases with eq | ⟨_, _, _, _, _, eq⟩
    all_goals
      rw [eq]
      rfl
  · rfl

theorem Spending.of_books {after : Dev Flash} (spending : dev.Spending)
    (same : after.books = dev.books) : after.Spending where
  sound := by
    have pages : after.param.chunksPerBlock = dev.param.chunksPerBlock :=
      congrArg Books.chunksPerBlock same
    have count : after.blocksInCheckpt = dev.blocksInCheckpt := congrArg Books.blocksInCheckpt same
    rw [same, pages, count]
    exact spending.sound
  writable := same ▸ spending.writable

theorem Spending.takeBlock (spending : dev.Spending) {block : Nat} (block_mem : block ∈ dev.blocks)
    (empty : dev.blockState block = .empty) :
    ({ dev.setBlockState block .checkpoint with
      blocksInCheckpt := dev.blocksInCheckpt + 1 } : Dev Flash).Spending := by
  have taken : ({ dev.setBlockState block .checkpoint with
      blocksInCheckpt := dev.blocksInCheckpt + 1 } : Dev Flash).books =
      dev.books.takeCheckpt block :=
    congrArg (fun books : Books => { books with blocksInCheckpt := dev.blocksInCheckpt + 1 })
      (dev.books_setBlockState block .checkpoint)
  constructor
  case sound =>
    rw [taken]
    refine (spending.sound.takeCheckpt block_mem empty).cast ?_ ?_ rfl
    · change (dev.blocksInCheckpt * dev.param.chunksPerBlock : Int) + dev.param.chunksPerBlock =
        ((dev.blocksInCheckpt + 1 : Nat) : Int) * dev.param.chunksPerBlock
      push_cast
      ring
    · exact (Nat.cast_succ dev.blocksInCheckpt).symm
  case writable =>
    rw [taken]
    exact { spending.writable.setState block .checkpoint with }

/-- A flush that takes an erased block, or none, spends it. -/
theorem Spending.flush (spending : dev.Spending) (fits : dev.FlushFits) :
    (dev.checkptFlushBuffer T).2.Spending := by
  have entered := spending.of_books (enterBlock_books dev)
  rcases dev.checkptFlushBuffer_cases T with ⟨_, eq⟩ | ⟨inside, _, _, _, eq⟩
  · rw [eq]
    exact entered
  · rw [eq]
    have taken : dev.checkptEnterBlock.checkptTakeBlock.Spending := by
      simp only [checkptTakeBlock]
      split
      case isTrue first =>
        rcases fits with outside | later | ⟨block, block_mem, cur, empty⟩
        · omega
        · exact absurd first later
        · rw [cur, Int.toNat_natCast]
          refine entered.takeBlock ?_ ?_
          · change block ∈ dev.checkptEnterBlock.books.blocks
            rw [enterBlock_books]
            exact block_mem
          · exact (congrArg (fun books : Books => (books.sheet block).state)
              (enterBlock_books dev)).trans empty
      case isFalse => exact entered
    exact taken.of_books rfl

namespace Writing

/-- Where the cursor goes before a flush. -/
theorem enterBlock (writing : dev.Writing) :
    dev.FlushFits ∧ dev.checkptEnterBlock.checkptOpenWrite = true ∧
      (0 ≤ dev.checkptEnterBlock.checkptCurBlock → 0 ≤ dev.checkptEnterBlock.checkptCurChunk) ∧
      (dev.checkptEnterBlock.checkptNextBlock < 0 ∨
        dev.checkptEnterBlock.internalStartBlock ≤ dev.checkptEnterBlock.checkptNextBlock) := by
  by_cases outside : dev.checkptCurBlock < 0
  · have entered_eq : dev.checkptEnterBlock = { dev.checkptFindErasedBlock with checkptCurChunk := 0 } := by
      simp only [checkptEnterBlock, if_pos outside]
    rcases dev.checkptFindErasedBlock_cases with eq | ⟨block, hint, le_block, le_end, empty, eq⟩
    · rw [eq] at entered_eq
      refine ⟨.inl (by rw [entered_eq]; exact (by decide : (-1 : Int) < 0)), ?_⟩
      rw [entered_eq]
      exact ⟨writing.openWrite, fun inside => by simp at inside, .inl (by simp)⟩
    · rw [eq] at entered_eq
      have block_mem : block ∈ dev.blocks := by
        rw [mem_blocks]
        have next := writing.next
        omega
      refine ⟨.inr (.inr ⟨block, block_mem, by rw [entered_eq], empty⟩), ?_⟩
      rw [entered_eq]
      have bounds := (dev.mem_blocks block).mp block_mem
      exact ⟨writing.openWrite, fun _ => le_rfl, .inr (by simp only; omega)⟩
  · have entered_eq : dev.checkptEnterBlock = dev := by
      simp only [checkptEnterBlock, if_neg outside]
    have later : 0 < dev.checkptCurChunk := writing.cursor.resolve_left outside
    refine ⟨.inr (.inl (by rw [entered_eq]; omega)), ?_⟩
    rw [entered_eq]
    exact ⟨writing.openWrite, fun _ => later.le, writing.next⟩

theorem flush (writing : dev.Writing) : (dev.checkptFlushBuffer T).2.Writing := by
  obtain ⟨fits, openWrite, chunk, next⟩ := writing.enterBlock
  have spent := writing.toSpending.flush T fits
  have taken : dev.checkptEnterBlock.checkptTakeBlock.checkptOpenWrite =
        dev.checkptEnterBlock.checkptOpenWrite ∧
      dev.checkptEnterBlock.checkptTakeBlock.checkptCurChunk =
        dev.checkptEnterBlock.checkptCurChunk ∧
      dev.checkptEnterBlock.checkptTakeBlock.checkptNextBlock =
        dev.checkptEnterBlock.checkptNextBlock ∧
      dev.checkptEnterBlock.checkptTakeBlock.internalStartBlock =
        dev.checkptEnterBlock.internalStartBlock := by
    simp only [checkptTakeBlock]
    split <;> exact ⟨rfl, rfl, rfl, rfl⟩
  obtain ⟨open_eq, chunk_eq, next_eq, start_eq⟩ := taken
  rcases dev.checkptFlushBuffer_cases T with ⟨outside, eq⟩ | ⟨inside, flash, buffer, offs, eq⟩
  · rw [eq] at spent ⊢
    exact { spent with openWrite, cursor := .inl outside, next }
  · rw [eq] at spent ⊢
    refine { spent with openWrite := open_eq.trans openWrite, cursor := ?_, next := ?_ }
    · simp only [checkptAdvance]
      split
      · exact .inl (by simp)
      · refine .inr ?_
        have chunk := chunk inside
        change 0 < dev.checkptEnterBlock.checkptTakeBlock.checkptCurChunk + 1
        rw [chunk_eq]
        omega
    · change dev.checkptEnterBlock.checkptTakeBlock.checkptNextBlock < 0 ∨
        (dev.checkptEnterBlock.checkptTakeBlock.internalStartBlock : Int) ≤
          dev.checkptEnterBlock.checkptTakeBlock.checkptNextBlock
      rw [next_eq, start_eq]
      exact next

theorem rule : WriterInvariant T (fun dev : Dev Flash => dev.Writing) where
  putByte _ _ writing :=
    { writing.toSpending.of_books rfl with
      openWrite := writing.openWrite
      cursor := writing.cursor
      next := writing.next }
  flush _ writing := writing.flush T

end Writing

/-- Closing the stream settles the counters. -/
theorem Spending.settle (spending : dev.Spending) :
    ({ dev with
      nFreeChunks := dev.nFreeChunks - dev.blocksInCheckpt * dev.param.chunksPerBlock
      nErasedBlocks := dev.nErasedBlocks - dev.blocksInCheckpt } : Dev Flash).books.Balanced := by
  have settled := spending.sound.count
    (dev.nFreeChunks - dev.blocksInCheckpt * dev.param.chunksPerBlock)
    (dev.nErasedBlocks - dev.blocksInCheckpt) dev.blocksInCheckpt
  refine ⟨settled.cast ?_ ?_ ?_, { spending.writable with }⟩
  all_goals simp [books]

/-- Without blocks taken for the checkpoint nothing is spent. -/
theorem spending_of_none (sound : dev.books.Sound 0 0 0) (writable : dev.books.Writable)
    (none : dev.blocksInCheckpt = 0) : dev.Spending where
  sound := by
    rw [none]
    exact sound.cast (by simp) rfl rfl
  writable := writable

/-- Opening the stream for writing with balanced books. -/
theorem open_writing (balanced : dev.books.Balanced) (space : dev.checkptSpaceOk = true) :
    (dev.checkptOpen T true).1 = true ∧ (dev.checkptOpen T true).2.Writing := by
  have space' : ({ dev with checkptOpenWrite := true } : Dev Flash).checkptSpaceOk = true := space
  simp only [checkptOpen, space', if_true, not_true, and_false, if_false, true_and]
  let opened :=
    ({ dev with checkptOpenWrite := true } : Dev Flash).checkptRewind.clearCheckptBuffer
      |>.checkptInitChunkHdr
  have opened_sound : opened.books.Sound 0 0 0 := balanced.toSound
  obtain ⟨only, sound⟩ := checkptErase_books T opened_sound
  have spending := spending_of_none sound (only.writable balanced.toSound balanced.toWritable) rfl
  obtain ⟨_, _, _, _, _, eq⟩ := opened.checkptErase_frame T
  have cursor : (opened.checkptErase T).checkptOpenWrite = true ∧
      (opened.checkptErase T).checkptCurBlock = -1 ∧
      (opened.checkptErase T).checkptNextBlock = (opened.checkptErase T).internalStartBlock := by
    rw [eq]
    exact ⟨rfl, rfl, rfl⟩
  exact { spending with
    openWrite := cursor.1
    cursor := .inl (by
      change (opened.checkptErase T).checkptCurBlock < 0
      rw [cursor.2.1]
      decide)
    next := .inr cursor.2.2.ge }

/-- The close of a refused save spends no block of the device, or an erased one. -/
def RefusalFits (dev : Dev Flash) : Prop :=
  dev.checkptOpenWrite = false ∨ dev.checkptByteOffs = checkptChunkHdrSizeSize ∨ dev.FlushFits

/-- The save opens the stream, or the cursor left behind does no harm to the accounting. -/
def SaveBalances (dev : Dev Flash) : Prop :=
  dev.isCheckpointed = true ∨
    (dev.checkptInvalidate T).checkptRequired = true ∧
      (dev.checkptInvalidate T).checkptSpaceOk = true ∨
    RefusalFits (dev.refusedSave T)

/-- After the invalidation no block is counted for the checkpoint. -/
theorem checkptInvalidate_none (dev : Dev Flash) : (dev.checkptInvalidate T).blocksInCheckpt = 0 := by
  rcases dev.checkptInvalidate_cases T with ⟨_, none, eq⟩ | eq
  · rw [eq]
    exact none
  · rw [eq]
    rfl

/-- A save keeps the books balanced. -/
theorem checkpointSave_books (balanced : dev.books.Balanced) (fits : dev.SaveBalances T)
    (buckets : List (List (List (List UInt8)))) :
    (dev.checkpointSave T buckets).books.Balanced := by
  simp only [checkpointSave]
  split
  case isTrue => exact balanced
  case isFalse stale =>
    obtain ⟨invalidated, _⟩ := checkptInvalidate_balanced T balanced
    have of_opened (opened : (dev.checkptInvalidate T).checkptRequired = true ∧
        (dev.checkptInvalidate T).checkptSpaceOk = true) :
        ((dev.checkptInvalidate T).wrCheckptData T buckets).books.Balanced := by
      obtain ⟨success, writing⟩ := open_writing T invalidated opened.2
      have written := (Writing.rule T).wrParts buckets writing
      simp only [wrCheckptData, opened.1, if_true, andThen, success]
      have finished : Spending
          (((dev.checkptInvalidate T).checkptOpen T true).2.wrCheckptParts T buckets
            |>.2.checkptFinish T) := by
        simp only [checkptFinish, written.openWrite, if_true]
        split
        · exact (written.flush T).toSpending
        · exact written.toSpending
      exact finished.settle
    rcases fits with saved | opened | refusal
    · exact absurd saved stale
    · exact of_opened opened
    · rcases checkptOpening_cases T (dev.checkptInvalidate T) with opened | refused
      · exact of_opened opened
      · simp only [wrCheckptData, refused, andThen, Bool.false_eq_true, if_false]
        have spending : (dev.refusedSave T).Spending :=
          spending_of_none (show (dev.refusedSave T).books.Sound 0 0 0 from invalidated.toSound)
            invalidated.toWritable (checkptInvalidate_none T dev)
        have finished : ((dev.refusedSave T).checkptFinish T).Spending := by
          simp only [checkptFinish]
          split
          case isTrue writing =>
            split
            case isTrue unflushed =>
              rcases refusal with reading | flushed | fits
              · rw [reading] at writing
                cases writing
              · exact absurd flushed unflushed
              · exact spending.flush T fits
            case isFalse => exact spending
          case isFalse =>
            split
            · have none : (dev.refusedSave T).blocksInCheckpt = 0 := checkptInvalidate_none T dev
              simpa [none] using spending
            · exact spending
        exact finished.settle

end Dev

end Yaffs
