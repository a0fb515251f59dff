import Yaffs.BalancedRuns
import Yaffs.Quiet
import Mathlib.Data.Prod.Lex

/-!
# The order of page writes

Pages are written in the order of the pairs of sequence number and page.  The device is always at a
position in that order: the next page of the allocation block or, without one, the first page of the
block that will be allocated next.  Taking pages, leaving the rest of a block unused and allocating a
block only move the position forward, and a page is written just behind it.
-/

namespace Yaffs

open Growth

/-- Position of a data or header page in the order of writing: the sequence number in its tags, then
its number in the block.  Summary pages, checkpoint pages and bad block markers have none. -/
def Event.position (chunksPerBlock : Nat) (event : Event) : Option (Nat ×ₗ Nat) :=
  match event.layer, event.op with
  | .guts, .program chunk =>
    if event.tags.chunkUsed = true ∧ event.tags.objId ≠ objectIdSummary then
      some (toLex (event.tags.seqNumber, chunk.toNat % chunksPerBlock))
    else none
  | _, _ => none

/-- A data or header page is written with the sequence number of its block. -/
def Event.Stamped (chunksPerBlock : Nat) (event : Event) : Prop :=
  ∀ chunk, event.op = .program chunk → event.position chunksPerBlock ≠ none →
    event.tags.seqNumber = event.blockSeq (chunk.toNat / chunksPerBlock)

namespace Dev

variable {Flash : Type} {T : Tagger Flash} {dev : Dev Flash}

/-- Position of the next page that will be written, at the earliest. -/
def position (dev : Dev Flash) : Nat ×ₗ Nat :=
  match dev.allocBlock with
  | some _ => toLex (dev.seqNumber, dev.allocPage)
  | none => toLex (dev.seqNumber + 1, 0)

/-- No data or header page was written, and the position is as it was. -/
structure Steady (dev after : Dev Flash) : Prop where
  param : after.param = dev.param
  allocBlock : after.allocBlock = dev.allocBlock
  allocPage : after.allocPage = dev.allocPage
  seqNumber : after.seqNumber = dev.seqNumber
  log : Grows (fun event => event.position dev.param.chunksPerBlock = none) dev.log after.log

/-- Data and header pages were written in order and stamped with the sequence number of their block,
from the position `low` to the one after. -/
structure ForwardFrom (low : Nat ×ₗ Nat) (dev after : Dev Flash) : Prop where
  param : after.param = dev.param
  log : Ascends (Event.position dev.param.chunksPerBlock) low after.position dev.log after.log
  stamped : Grows (Event.Stamped dev.param.chunksPerBlock) dev.log after.log

/-- The same from the position before. -/
abbrev Forward (dev after : Dev Flash) : Prop := ForwardFrom dev.position dev after

namespace Steady

variable {first second third after : Dev Flash}

theorem refl (dev : Dev Flash) : Steady dev dev := ⟨rfl, rfl, rfl, rfl, .refl _⟩

theorem trans (left : Steady first second) (right : Steady second third) : Steady first third where
  param := right.param.trans left.param
  allocBlock := right.allocBlock.trans left.allocBlock
  allocPage := right.allocPage.trans left.allocPage
  seqNumber := right.seqNumber.trans left.seqNumber
  log := left.log.trans (left.param ▸ right.log)

theorem position (steady : Steady dev after) : after.position = dev.position := by
  simp only [Dev.position, steady.allocBlock, steady.allocPage, steady.seqNumber]

theorem forward (steady : Steady dev after) : Forward dev after where
  param := steady.param
  log := steady.log.ascends steady.position.ge
  stamped := steady.log.mono fun _ keyless _ _ key => absurd keyless key

/-- A quiet change that keeps the books. -/
theorem of_books (quiet : Quiet dev after) (books : after.books = dev.books) : Steady dev after where
  param := quiet.param
  allocBlock := congrArg Books.allocBlock books
  allocPage := congrArg Books.allocPage books
  seqNumber := congrArg Books.seqNumber books
  log := .of_eq quiet.log

/-- A quiet change of what is remembered for collection. -/
theorem of_retargeted (quiet : Quiet dev after) (retargeted : Retargeted dev after) :
    Steady dev after := by
  obtain ⟨_, _, _, _, books⟩ := retargeted.same
  exact
    { param := quiet.param
      allocBlock := congrArg Books.allocBlock books
      allocPage := congrArg Books.allocPage books
      seqNumber := congrArg Books.seqNumber books
      log := .of_eq quiet.log }

/-- An entry without a position. -/
theorem of_entry {event : Event} (keyless : event.position dev.param.chunksPerBlock = none)
    (flash : Flash) : Steady dev { dev with log := event :: dev.log, flash } :=
  ⟨rfl, rfl, rfl, rfl, .cons _ keyless⟩

theorem foldl {α : Type} {step : Dev Flash → α → Dev Flash}
    (steady : ∀ dev entry, Steady dev (step dev entry)) (entries : List α) (dev : Dev Flash) :
    Steady dev (entries.foldl step dev) := by
  induction entries generalizing dev with
  | nil => exact refl dev
  | cons entry entries ih => exact (steady dev entry).trans (ih (step dev entry))

end Steady

namespace ForwardFrom

variable {first second third after : Dev Flash} {low lower : Nat ×ₗ Nat}

theorem refl (dev : Dev Flash) : Forward dev dev := (Steady.refl dev).forward

theorem trans (left : ForwardFrom low first second) (right : Forward second third) :
    ForwardFrom low first third where
  param := right.param.trans left.param
  log := left.log.trans (left.param ▸ right.log)
  stamped := left.stamped.trans (left.param ▸ right.stamped)

theorem steady (left : ForwardFrom low first second) (right : Steady second third) :
    ForwardFrom low first third :=
  left.trans right.forward

theorem of_le (forward : ForwardFrom low first second) (le : lower ≤ low) :
    ForwardFrom lower first second :=
  { forward with log := forward.log.of_le le }

/-- A silent move of the position. -/
theorem of_position (param : after.param = dev.param) (log : after.log = dev.log)
    (le : dev.position ≤ after.position) : Forward dev after where
  param := param
  log := (Grows.of_eq log).ascends le
  stamped := .of_eq log

/-- Pages written after a change that writes none. -/
theorem after_steady (right : ForwardFrom low second third) (left : Steady first second) :
    ForwardFrom low first third where
  param := right.param.trans left.param
  log := (left.log.ascends le_rfl).trans (left.param ▸ right.log)
  stamped := left.forward.stamped.trans (left.param ▸ right.stamped)

/-- A silent move of the position, and pages written from there on. -/
theorem after_silent (param : second.param = first.param) (log : second.log = first.log)
    (right : ForwardFrom low second third) : ForwardFrom low first third where
  param := right.param.trans param
  log := log ▸ param ▸ right.log
  stamped := log ▸ param ▸ right.stamped

end ForwardFrom

/-! ## Changes that write no page -/

variable (T)

theorem steady_rdChunkTagsNand (dev : Dev Flash) (chunk : Nat) :
    Steady dev (dev.rdChunkTagsNand T chunk).2 :=
  .of_books (dev.quiet_rdChunkTagsNand T chunk) (dev.books_rdChunkTagsNand T chunk)

theorem steady_updateOldestDirtySeq (dev : Dev Flash) (block : Nat) :
    Steady dev (dev.updateOldestDirtySeq block) := by
  simp only [updateOldestDirtySeq]
  split
  · exact ⟨rfl, rfl, rfl, rfl, .refl _⟩
  · exact .refl dev

theorem steady_clearOldestDirtySeq (dev : Dev Flash) (block : Nat) :
    Steady dev (dev.clearOldestDirtySeq block) := by
  simp only [clearOldestDirtySeq]
  split
  · exact ⟨rfl, rfl, rfl, rfl, .refl _⟩
  · exact .refl dev

theorem steady_modifyBlockInfo (dev : Dev Flash) (block : Nat) (change : BlockInfo → BlockInfo) :
    Steady dev (dev.modifyBlockInfo block change) :=
  ⟨rfl, rfl, rfl, rfl, .refl _⟩

theorem steady_soilBlock (dev : Dev Flash) (block : Nat) : Steady dev (dev.soilBlock block) := by
  have forgotten := dev.steady_clearOldestDirtySeq block
  have dirty : Steady dev ((dev.clearOldestDirtySeq block).setBlockState block .dirty) :=
    forgotten.trans (steady_modifyBlockInfo _ block _)
  exact dirty.trans ⟨rfl, rfl, rfl, rfl, .refl _⟩

theorem steady_tnodesOnly {after : Dev Flash} (only : TnodesOnly dev after) : Steady dev after :=
  .of_books (dev.quiet_tnodesOnly only) (dev.books_tnodesOnly only)

theorem steady_eraseBlock (dev : Dev Flash) (block : Nat) : Steady dev (dev.eraseBlock T block).2 :=
  .of_entry rfl _

theorem steady_markBad (dev : Dev Flash) (block : Nat) : Steady dev (dev.markBad T block).2 := by
  simp only [markBad]
  split
  · exact .refl dev
  · exact .of_entry rfl _

theorem steady_writeBadMarker (dev : Dev Flash) (block : Nat) :
    Steady dev (dev.writeBadMarker T block) :=
  .of_entry rfl _

/-! ## The end of a block -/

theorem steady_checkptErase (dev : Dev Flash) : Steady dev (dev.checkptErase T) := by
  have blocks (blocks : List Nat) (dev : Dev Flash) :
      Steady dev (blocks.foldl (fun dev block => dev.checkptEraseBlock T block) dev) := by
    refine .foldl (fun dev block => ?_) blocks dev
    rcases dev.checkptEraseBlock_cases T block with ⟨_, eq⟩ | ⟨_, ⟨_, eq⟩ | ⟨_, eq⟩⟩
    · rw [eq]
      exact .refl dev
    · rw [eq]
      exact ⟨rfl, rfl, rfl, rfl, .cons _ rfl⟩
    · rw [eq]
      have erased : Steady dev (dev.emit .checkpt (.erase block)) := .of_entry rfl dev.flash
      exact erased.trans ⟨rfl, rfl, rfl, rfl, .cons _ rfl⟩
  exact (blocks dev.blockList dev).trans ⟨rfl, rfl, rfl, rfl, .refl _⟩

theorem steady_checkptInvalidate (dev : Dev Flash) : Steady dev (dev.checkptInvalidate T) := by
  rcases dev.checkptInvalidate_cases T with ⟨_, _, eq⟩ | eq
  · rw [eq]
    exact .refl dev
  · rw [eq]
    have unflagged : Steady dev { dev with isCheckpointed := false } := ⟨rfl, rfl, rfl, rfl, .refl _⟩
    exact unflagged.trans (steady_checkptErase T _)

theorem steady_retireBlock (dev : Dev Flash) (block : Nat) : Steady dev (dev.retireBlock T block) := by
  have prepared : Steady dev ((dev.checkptInvalidate T).clearOldestDirtySeq block) :=
    (dev.steady_checkptInvalidate T).trans (steady_clearOldestDirtySeq _ block)
  have marked := prepared.trans (steady_markBad T _ block)
  have retired (after : Dev Flash) (steady : Steady dev after) :
      Steady dev ((after.emit .guts (.retire block)).modifyBlockInfo block fun info =>
        { info with blockState := .dead, gcPrioritise := false, needsRetiring := false }) :=
    (steady.trans (.of_entry rfl after.flash)).trans (steady_modifyBlockInfo _ block _)
  simp only [retireBlock]
  refine retired _ ?_
  split
  · exact marked
  · have erased := marked.trans (steady_eraseBlock T _ block)
    split
    · exact erased.trans (steady_writeBadMarker T _ block)
    · exact erased

theorem steady_cleanBlock (dev : Dev Flash) (block : Nat) : Steady dev (dev.cleanBlock block) :=
  ⟨rfl, rfl, rfl, rfl, .refl _⟩

theorem steady_blockBecameDirty (dev : Dev Flash) (block : Nat) :
    Steady dev (dev.blockBecameDirty T block) := by
  have soiled := dev.steady_soilBlock block
  have erased : Steady dev ((dev.soilBlock block).eraseDirtyBlock T block).2 := by
    simp only [eraseDirtyBlock]
    split
    · exact soiled
    · exact (soiled.trans (steady_checkptInvalidate T _)).trans (steady_eraseBlock T _ block)
  simp only [blockBecameDirty]
  generalize (dev.soilBlock block).eraseDirtyBlock T block = answer at *
  split
  · have verified : Steady dev
        (if answer.2.param.verifyErasure then answer.2.verifyErased T block else answer.2) := by
      split
      · exact erased.trans (.of_books (quiet_verifyErased T _ block) (books_verifyErased T _ block))
      · exact erased
    exact verified.trans (steady_cleanBlock _ block)
  · have counted : Steady answer.2
        { answer.2 with nFreeChunks := answer.2.nFreeChunks - answer.2.param.chunksPerBlock } :=
      ⟨rfl, rfl, rfl, rfl, .refl _⟩
    exact (erased.trans counted).trans (steady_retireBlock T _ block)

/-! ## Deleting pages -/

theorem steady_releasePage (dev : Dev Flash) (block page : Nat) :
    Steady dev (dev.releasePage T block page) := by
  let released : Dev Flash :=
    (({ dev with nFreeChunks := dev.nFreeChunks + 1 } : Dev Flash).clearChunkBit block page).addPagesInUse
      block (-1)
  have steady : Steady dev released := ⟨rfl, rfl, rfl, rfl, .refl _⟩
  simp only [releasePage]
  split
  · split
    · exact steady.trans (steady_blockBecameDirty T released block)
    · exact steady
  · exact .refl dev

/-- Deleting a page writes none, in the new format. -/
theorem steady_chunkDel (dev : Dev Flash) (isYaffs2 : dev.param.isYaffs2 = true) (chunk : Int)
    (markFlash : Bool) : Steady dev (dev.chunkDel T chunk markFlash) := by
  simp only [chunkDel]
  split
  · exact .refl dev
  · have updated := dev.steady_updateOldestDirtySeq (chunk.toNat / dev.param.chunksPerBlock)
    generalize dev.updateOldestDirtySeq (chunk.toNat / dev.param.chunksPerBlock) = after at *
    have format : after.param.isYaffs2 = true := by rw [updated.param, isYaffs2]
    rw [if_neg (by simp [format])]
    exact updated.trans (steady_releasePage T _ _ _)

theorem forward_skipRestOfBlock (dev : Dev Flash) : Forward dev dev.skipRestOfBlock := by
  simp only [skipRestOfBlock]
  split
  case h_1 block alloc =>
    split
    · refine ForwardFrom.of_position rfl rfl ?_
      have before : dev.position = toLex (dev.seqNumber, dev.allocPage) := by
        simp only [position, alloc]
      rw [before]
      exact Prod.Lex.toLex_le_toLex.mpr (.inl (Nat.lt_succ_self dev.seqNumber))
    · exact ForwardFrom.refl dev
  case h_2 => exact ForwardFrom.refl dev

theorem forward_handleChunkWrError (dev : Dev Flash) (isYaffs2 : dev.param.isYaffs2 = true)
    (chunk : Nat) (erasedOk : Bool) : Forward dev (dev.handleChunkWrError T chunk erasedOk) := by
  let block := chunk / dev.param.chunksPerBlock
  have noted : Steady dev (dev.handleChunkError block) :=
    .of_books (dev.quiet_handleChunkError block) (dev.books_handleChunkError block)
  simp only [handleChunkWrError]
  refine ForwardFrom.trans (Steady.forward ?_) (forward_skipRestOfBlock _)
  split
  · have marked := noted.trans (steady_modifyBlockInfo _ block fun info =>
      { info with needsRetiring := true })
    exact marked.trans (steady_chunkDel T _ (marked.param ▸ isYaffs2) _ _)
  · exact noted.trans (steady_chunkDel T _ (noted.param ▸ isYaffs2) _ _)

/-! ## Summaries -/

theorem steady_countSummaryPage (dev : Dev Flash) (block page : Nat) :
    Steady dev (dev.countSummaryPage block page) :=
  ⟨rfl, rfl, rfl, rfl, .refl _⟩

theorem steady_summaryWriteLoop (block : Nat) (header : List UInt8) (chunk : Int) (fuel index : Nat)
    (bytes : List UInt8) (dev : Dev Flash) :
    Steady dev (summaryWriteLoop T block header chunk fuel index bytes dev).2 := by
  induction fuel generalizing index bytes dev with
  | zero => exact .refl dev
  | succ fuel ih =>
    have written (data : Option Buf) (tags : ExtTags) (summary : tags.objId = objectIdSummary) :
        Steady dev (dev.programPage T .guts (chunk + index) data tags).2 :=
      .of_entry (by simp [Event.position, programEntry, entry, summary]) _
    simp only [summaryWriteLoop]
    split
    · exact written _ _ rfl
    · have counted := (written (some fun i => (header ++ bytes.take
          (min bytes.length (dev.dataBytesPerChunk - summaryHeaderSize))).getD i 0)
        { objId := objectIdSummary
          chunkId := index + 1
          nBytes := min bytes.length (dev.dataBytesPerChunk - summaryHeaderSize) + summaryHeaderSize
          seqNumber := dev.seqNumber
          chunkUsed := true } rfl).trans
        (steady_countSummaryPage _ block (dev.chunksPerSummary + index))
      split
      · exact counted
      · exact counted.trans (ih _ _ _)

theorem steady_summaryWrite (dev : Dev Flash) (block : Nat) (sumTags : Nat → SummaryTags) :
    Steady dev (dev.summaryWrite T block sumTags) := by
  have written := steady_summaryWriteLoop T block (dev.summaryHeader block (dev.summaryBytes sumTags))
    dev.summaryChunk (dev.summaryBytes sumTags).length 0 (dev.summaryBytes sumTags) dev
  simp only [summaryWrite]
  split
  · exact written.trans (steady_modifyBlockInfo _ block _)
  · exact written

theorem forward_summaryAdd (dev : Dev Flash) (tags : ExtTags) (chunk : Nat) :
    Forward dev (dev.summaryAdd T tags chunk) := by
  simp only [summaryAdd]
  split
  · exact ForwardFrom.refl dev
  case h_2 sumTags _ =>
    split
    · let sumTags' := Function.update sumTags (chunk % dev.param.chunksPerBlock)
        (packTags2TagsOnly tags)
      have noted : Steady dev { dev with sumTags := some sumTags' } := ⟨rfl, rfl, rfl, rfl, .refl _⟩
      split
      · have written := noted.trans
          (steady_summaryWrite T _ (chunk / dev.param.chunksPerBlock) sumTags')
        have cleared (middle : Dev Flash) : Steady middle middle.summaryClear :=
          ⟨rfl, rfl, rfl, rfl, .refl _⟩
        exact (written.trans (cleared _)).forward.trans (forward_skipRestOfBlock _)
      · exact noted.forward
    · exact ForwardFrom.refl dev

/-! ## Writing a new page -/

/-- The page has just been taken: it carries the number of its block and lies behind the position. -/
structure Placed (dev : Dev Flash) (block page : Nat) : Prop where
  page_lt : page < dev.param.chunksPerBlock
  stamp : (dev.blockInfo block).seqNumber = dev.seqNumber
  behind : toLex (dev.seqNumber, page) < dev.position

theorem Placed.of_steady {after : Dev Flash} {block page : Nat} (placed : dev.Placed block page)
    (steady : Steady dev after)
    (seq : (after.blockInfo block).seqNumber = (dev.blockInfo block).seqNumber) :
    after.Placed block page where
  page_lt := steady.param ▸ placed.page_lt
  stamp := by rw [seq, placed.stamp, steady.seqNumber]
  behind := by
    rw [steady.seqNumber, steady.position]
    exact placed.behind

/-- Programming a page that has just been taken. -/
theorem Placed.wrChunkTagsNand {block page : Nat} (placed : dev.Placed block page)
    (data : Option Buf) (tags : ExtTags) :
    ForwardFrom (toLex (dev.seqNumber, page)) dev
      (dev.wrChunkTagsNand T (block * dev.param.chunksPerBlock + page) data tags).2 := by
  obtain ⟨block_eq, page_eq⟩ := page_of_chunk block placed.page_lt
  let stamped : ExtTags := { tags with seqNumber := dev.seqNumber, chunkUsed := true }
  have programmed : ForwardFrom (toLex (dev.seqNumber, page)) dev
      (dev.programPage T .guts ↑(block * dev.param.chunksPerBlock + page) data stamped).2 := by
    by_cases summary : tags.objId = objectIdSummary
    · have steady : Steady dev
          (dev.programPage T .guts ↑(block * dev.param.chunksPerBlock + page) data stamped).2 :=
        .of_entry (by simp [Event.position, programEntry, entry, stamped, summary]) _
      exact steady.forward.of_le placed.behind.le
    · have key : (dev.programEntry .guts ↑(block * dev.param.chunksPerBlock + page)
          stamped).position dev.param.chunksPerBlock = some (toLex (dev.seqNumber, page)) := by
        simp only [Event.position, programEntry, entry, Int.toNat_natCast, page_eq]
        exact if_pos ⟨rfl, summary⟩
      exact
        { param := rfl
          log := .cons _ key le_rfl placed.behind
          stamped := .cons _ fun chunk op_eq _ => by
            have chunk_eq : (↑(block * dev.param.chunksPerBlock + page) : Int) = chunk :=
              FlashOp.program.inj op_eq
            rw [← chunk_eq, Int.toNat_natCast, block_eq]
            exact placed.stamp.symm }
  exact programmed.trans (forward_summaryAdd T _ _ _)

theorem Placed.wrVerified {block page : Nat} (placed : dev.Placed block page) (data : Buf)
    (tags : ExtTags) :
    ForwardFrom (toLex (dev.seqNumber, page)) dev
      (dev.wrVerified T block (block * dev.param.chunksPerBlock + page) data tags).2 := by
  have written := placed.wrChunkTagsNand (T := T) (some data) tags
  simp only [Dev.wrVerified]
  split
  · exact written
  · exact written.steady (steady_rdChunkTagsNand T _ _)

/-- One attempt to write a page that has just been taken. -/
theorem Placed.tryChunk {block page : Nat} (placed : dev.Placed block page)
    (isYaffs2 : dev.param.isYaffs2 = true) (data : Buf) (tags : ExtTags) :
    ForwardFrom (toLex (dev.seqNumber, page)) dev (dev.tryChunk T block page data tags).2 := by
  have reset_books := dev.books_resetErasedCheck block
  have erased_books := books_erasedCheck T (dev.resetErasedCheck block) block
    (block * dev.param.chunksPerBlock + page)
  have prepared : Steady dev ((dev.resetErasedCheck block).erasedCheck T block
      (block * dev.param.chunksPerBlock + page)).2 :=
    .of_books ((dev.quiet_resetErasedCheck block).trans (quiet_erasedCheck T _ _ _))
      (erased_books.trans reset_books)
  have seq := congrArg (fun books : Books => (books.sheet block).seqNumber)
    (erased_books.trans reset_books)
  simp only [Dev.tryChunk]
  generalize (dev.resetErasedCheck block).erasedCheck T block
    (block * dev.param.chunksPerBlock + page) = erased at *
  have prepared_placed := placed.of_steady prepared seq
  have format : erased.2.param.isYaffs2 = true := by rw [prepared.param, isYaffs2]
  split
  · have deleted := prepared.trans (steady_chunkDel T erased.2 format
      ↑(block * dev.param.chunksPerBlock + page) true)
    exact (deleted.forward.of_le placed.behind.le).trans (forward_skipRestOfBlock _)
  · have verified := prepared_placed.wrVerified (T := T) data tags
    rw [prepared.param, prepared.seqNumber] at verified
    have written := verified.after_steady prepared
    generalize erased.2.wrVerified T block (block * dev.param.chunksPerBlock + page) data tags =
      answer at *
    have format : answer.2.param.isYaffs2 = true := by rw [written.param, isYaffs2]
    split
    · exact written.steady (steady_modifyBlockInfo answer.2 block fun info =>
        { info with skipErasedCheck := true })
    · exact written.trans (forward_handleChunkWrError T answer.2 format _ _)

/-- Looking for an erased block leaves the position alone, whether there is one or not. -/
theorem ensureAllocBlock_position (dev : Dev Flash) :
    dev.ensureAllocBlock.param = dev.param ∧ dev.ensureAllocBlock.log = dev.log ∧
      dev.ensureAllocBlock.position = dev.position := by
  have searched (left : Nat) (dev : Dev Flash) :
      ((findAllocBlockLoop left dev).1 = none →
        (findAllocBlockLoop left dev).2.seqNumber = dev.seqNumber) ∧
      ((findAllocBlockLoop left dev).1 ≠ none →
        (findAllocBlockLoop left dev).2.seqNumber = dev.seqNumber + 1) := by
    induction left generalizing dev with
    | zero => exact ⟨fun _ => rfl, fun found => absurd rfl found⟩
    | succ left ih =>
      rw [findAllocBlockLoop]
      split
      · exact ⟨by simp, fun _ => rfl⟩
      · exact ih dev.stepAllocFinder
  have quiet := dev.quiet_ensureAllocBlock
  refine ⟨quiet.param, quiet.log, ?_⟩
  have found : (dev.findAllocBlock.1 = none → dev.findAllocBlock.2.seqNumber = dev.seqNumber) ∧
      (dev.findAllocBlock.1 ≠ none → dev.findAllocBlock.2.seqNumber = dev.seqNumber + 1) := by
    simp only [findAllocBlock]
    split
    · exact ⟨fun _ => rfl, fun found => absurd rfl found⟩
    · exact searched dev.nBlocks dev
  simp only [ensureAllocBlock]
  split
  case h_1 => rfl
  case h_2 no_alloc =>
    cases block_eq : dev.findAllocBlock.1 with
    | none => simp [position, no_alloc, found.1 block_eq]
    | some block => simp [position, no_alloc, found.2 (by simp [block_eq])]

/-- A page that is taken lies at the position before, and the position moves behind it. -/
theorem takeAllocPage_placed (balanced : dev.books.Balanced) {block : Nat}
    (alloc : dev.allocBlock = some block) :
    (dev.takeAllocPage block).param = dev.param ∧ (dev.takeAllocPage block).log = dev.log ∧
      dev.position = toLex ((dev.takeAllocPage block).seqNumber, dev.allocPage) ∧
      (dev.takeAllocPage block).Placed block dev.allocPage := by
  obtain ⟨_, _, seq⟩ := balanced.allocBlock block alloc
  have page_lt := balanced.page_lt block alloc
  let taken : Dev Flash :=
    { (dev.addPagesInUse block 1).setChunkBit block dev.allocPage with
      allocPage := dev.allocPage + 1
      nFreeChunks := dev.nFreeChunks - 1 }
  have at_page : dev.position = toLex (dev.seqNumber, dev.allocPage) := by
    simp only [position, alloc]
  have taken_seq : (taken.blockInfo block).seqNumber = dev.seqNumber := by
    refine Eq.trans ?_ seq
    simp [taken, setChunkBit, putChunkBit, addPagesInUse, modifyBlockInfo, setBlockInfo, books, sheetOf]
  have result : dev.takeAllocPage block =
      if dev.param.chunksPerBlock ≤ dev.allocPage + 1 then
        { taken.setBlockState block .full with allocBlock := none }
      else taken := rfl
  rw [result]
  split
  case isTrue =>
    refine ⟨rfl, rfl, at_page, page_lt, ?_, ?_⟩
    · refine Eq.trans ?_ taken_seq
      simp [setBlockState, modifyBlockInfo, setBlockInfo]
    · exact Prod.Lex.toLex_lt_toLex.mpr (.inl (Nat.lt_succ_self dev.seqNumber))
  case isFalse =>
    have after : taken.position = toLex (dev.seqNumber, dev.allocPage + 1) := by
      have alloc' : taken.allocBlock = some block := alloc
      simp only [position, alloc']
      rfl
    refine ⟨rfl, rfl, at_page, page_lt, taken_seq, ?_⟩
    rw [after]
    exact Prod.Lex.toLex_lt_toLex.mpr (.inr ⟨rfl, Nat.lt_succ_self dev.allocPage⟩)

/-- An allocated page lies at or behind the position before and ahead of the one after. -/
theorem allocChunk_placed (balanced : dev.books.Balanced) (useReserver : Bool) :
    (dev.allocChunk useReserver).2.param = dev.param ∧
      (dev.allocChunk useReserver).2.log = dev.log ∧
      dev.position ≤ (dev.allocChunk useReserver).2.position ∧
      ∀ block page, (dev.allocChunk useReserver).1 = some (block, page) →
        dev.position ≤ toLex ((dev.allocChunk useReserver).2.seqNumber, page) ∧
          (dev.allocChunk useReserver).2.Placed block page := by
  obtain ⟨param, log, ensured_position⟩ := dev.ensureAllocBlock_position
  obtain ⟨ensured, _⟩ := ensureAllocBlock_books balanced
  have available : Steady dev.ensureAllocBlock (dev.ensureAllocBlock.mayAlloc useReserver).2 :=
    .of_books (quiet_mayAlloc _ useReserver) (books_mayAlloc _ useReserver)
  have balanced' : (dev.ensureAllocBlock.mayAlloc useReserver).2.books.Balanced :=
    books_mayAlloc dev.ensureAllocBlock useReserver ▸ ensured
  have before : (dev.ensureAllocBlock.mayAlloc useReserver).2.position = dev.position :=
    available.position.trans ensured_position
  have param' := available.param.trans param
  have log' : (dev.ensureAllocBlock.mayAlloc useReserver).2.log = dev.log :=
    (quiet_mayAlloc _ useReserver).log.trans log
  simp only [allocChunk]
  generalize dev.ensureAllocBlock.mayAlloc useReserver = answer at *
  split
  case isTrue => exact ⟨param', log', before.ge, nofun⟩
  case isFalse =>
    split
    case h_2 => exact ⟨param', log', before.ge, nofun⟩
    case h_1 block alloc =>
      obtain ⟨taken_param, taken_log, at_page, placed⟩ := takeAllocPage_placed balanced' alloc
      have le : dev.position ≤ toLex ((answer.2.takeAllocPage block).seqNumber, answer.2.allocPage) := by
        rw [← at_page, before]
      refine ⟨taken_param.trans param', taken_log.trans log', le.trans placed.behind.le,
        fun other page found => ?_⟩
      obtain ⟨rfl, rfl⟩ := Prod.mk.inj (Option.some.inj found)
      exact ⟨le, placed⟩

/-- Writing a new page goes forward, however many attempts it takes. -/
theorem forward_writeNewChunkLoop (data : Buf) (tags : ExtTags) (useReserver : Bool)
    (fuel attempts : Nat) (dev : Dev Flash) (balanced : dev.books.Balanced)
    (isYaffs2 : dev.param.isYaffs2 = true) :
    Forward dev (writeNewChunkLoop T data tags useReserver fuel attempts dev).2 := by
  induction fuel generalizing attempts dev with
  | zero => exact ForwardFrom.refl dev
  | succ fuel ih =>
    obtain ⟨allocated, _, page_allocated⟩ := allocChunk_books balanced useReserver
    obtain ⟨param, log, le, placed⟩ := allocChunk_placed balanced useReserver
    simp only [writeNewChunkLoop]
    split
    case h_1 => exact ForwardFrom.of_position param log le
    case h_2 block page found =>
      obtain ⟨position_le, placed⟩ := placed block page found
      obtain ⟨tried_balanced, _⟩ :=
        tryChunk_books T allocated (page_allocated block page found) data tags
      have tried := placed.tryChunk (T := T) (param ▸ isYaffs2) data tags
      have forward : Forward dev _ := (tried.of_le position_le).after_silent param log
      have format := forward.param ▸ isYaffs2
      split
      · exact forward
      · split
        · exact forward.trans (ih (attempts + 1) _ tried_balanced format)
        · exact forward

theorem forward_writeNewChunk (balanced : dev.books.Balanced) (isYaffs2 : dev.param.isYaffs2 = true)
    (data : Buf) (tags : ExtTags) (useReserver : Bool) :
    Forward dev (dev.writeNewChunk T data tags useReserver).2 := by
  have invalidated := dev.steady_checkptInvalidate T
  obtain ⟨invalidated_balanced, _⟩ := checkptInvalidate_balanced T balanced
  exact invalidated.forward.trans (forward_writeNewChunkLoop T data tags useReserver _ 0 _
    invalidated_balanced (invalidated.param ▸ isYaffs2))

end Dev

end Yaffs
