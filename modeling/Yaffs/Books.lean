import Yaffs.Types
import Yaffs.Library.Tally
import Mathlib.Order.Interval.Finset.Nat

/-!
# The books of the space accounting

A device keeps four counters besides its block table.  The books are what the accounting is about:
one sheet for each block, the counters, and the places where block numbers are remembered.  They are
sound up to the given differences while an operation is under way, and exact between operations.
-/

namespace Yaffs

/-- What the accounting knows of one block. -/
structure Sheet where
  state : BlockState
  pagesInUse : Int
  softDelPages : Int
  seqNumber : Nat
  inUse : Nat → Bool

namespace Sheet

/-- The state of a block that holds pages and is not being written. -/
def Held (state : BlockState) : Prop := state = .full ∨ state = .collecting

/-- Free pages of the block. -/
def free (chunksPerBlock : Nat) (sheet : Sheet) : Int :=
  if sheet.state.countsAsFree then chunksPerBlock - sheet.pagesInUse + sheet.softDelPages else 0

/-- Number of pages marked in use. -/
def marked (chunksPerBlock : Nat) (sheet : Sheet) : Int :=
  Tally.count (Finset.range chunksPerBlock) fun page => sheet.inUse page = true

/-- The counter of a block agrees with its marks, and only a block that is written, full or collected
has any. -/
structure Sound (chunksPerBlock : Nat) (sheet : Sheet) : Prop where
  softDel : sheet.softDelPages = 0
  counted : sheet.pagesInUse = sheet.marked chunksPerBlock
  unmarked : sheet.state ≠ .allocating → ¬Held sheet.state →
    ∀ page < chunksPerBlock, sheet.inUse page = false

variable {chunksPerBlock : Nat} {sheet : Sheet}

/-- Mark one page. -/
def put (sheet : Sheet) (page : Nat) (bit : Bool) (pagesInUse : Int) : Sheet :=
  { sheet with inUse := Function.update sheet.inUse page bit, pagesInUse }

theorem marked_put (sheet : Sheet) (page : Nat) (bit : Bool) (pagesInUse : Int) (page_lt : page < chunksPerBlock) :
    (sheet.put page bit pagesInUse).marked chunksPerBlock =
      sheet.marked chunksPerBlock + ((if bit then 1 else 0) - if sheet.inUse page then 1 else 0) := by
  have agree : ∀ other ∈ Finset.range chunksPerBlock, other ≠ page →
      (Function.update sheet.inUse page bit other = true ↔ sheet.inUse other = true) := by
    intro other _ differ
    rw [Function.update_of_ne differ]
  refine (Tally.count_of_agree (Finset.mem_range.mpr page_lt) agree).trans ?_
  rw [Function.update_self]
  rfl

theorem marked_nonneg (chunksPerBlock : Nat) (sheet : Sheet) : 0 ≤ sheet.marked chunksPerBlock := Tally.count_nonneg _

theorem marked_le (chunksPerBlock : Nat) (sheet : Sheet) :
    sheet.marked chunksPerBlock ≤ chunksPerBlock := by
  simpa [marked] using Tally.count_le_card (Finset.range chunksPerBlock)
    fun page => sheet.inUse page = true

theorem marked_eq_zero_iff :
    sheet.marked chunksPerBlock = 0 ↔ ∀ page < chunksPerBlock, sheet.inUse page = false := by
  simp [marked, Tally.count_eq_zero_iff]

theorem Sound.pagesInUse_of_unmarked (sound : sheet.Sound chunksPerBlock)
    (not_allocating : sheet.state ≠ .allocating) (not_held : ¬Held sheet.state) :
    sheet.pagesInUse = 0 := by
  rw [sound.counted, marked_eq_zero_iff]
  exact sound.unmarked not_allocating not_held

end Sheet

/-- What a block summary takes up. -/
structure Layout where
  isYaffs2 : Bool
  summaries : Bool
  /-- Pages covered by a summary. -/
  chunksPerSummary : Nat
  /-- Bytes of a summary. -/
  summaryBytes : Nat
  /-- Bytes of the summary that go into one page. -/
  summaryRoom : Nat

/-- The device has the new format, and a summary fits into the pages behind those it covers. -/
def Layout.Fits (layout : Layout) (chunksPerBlock : Nat) : Prop :=
  layout.isYaffs2 = true ∧
    (layout.summaries = true →
      0 < layout.summaryRoom ∧ layout.chunksPerSummary < chunksPerBlock ∧
        layout.summaryBytes ≤ (chunksPerBlock - layout.chunksPerSummary) * layout.summaryRoom)

/-- The part of the device that the accounting is about. -/
structure Books where
  layout : Layout
  chunksPerBlock : Nat
  first : Nat
  last : Nat
  sheet : Nat → Sheet
  nErasedBlocks : Int
  nFreeChunks : Int
  blocksInCheckpt : Nat
  allocBlock : Option Nat
  allocPage : Nat
  seqNumber : Nat
  gcBlock : Nat
  gcDirtiest : Nat
  oldestDirtySeq : Nat
  oldestDirtyBlock : Nat
  /-- Soft deleted files that are to be deleted when the collection of a block ends. -/
  gcCleanupList : List Nat

namespace Books

variable (books : Books)

/-- The blocks on the books. -/
def blocks : Finset Nat := Finset.Icc books.first books.last

/-- Replace one sheet. -/
def put (block : Nat) (sheet : Sheet) : Books :=
  { books with sheet := Function.update books.sheet block sheet }

/-- Free pages of all blocks. -/
def countFree : Int := ∑ block ∈ books.blocks, (books.sheet block).free books.chunksPerBlock

/-- Number of blocks in a state. -/
def countState (state : BlockState) : Int :=
  Tally.count books.blocks fun block => (books.sheet block).state = state

/-- Zero, or a block that holds pages. -/
def Target (block : Nat) : Prop :=
  block ≠ 0 → block ∈ books.blocks ∧ Sheet.Held (books.sheet block).state

/-- The books are sound up to differences of the three counters. -/
structure Sound (free erased checkpt : Int) : Prop where
  pages_pos : 0 < books.chunksPerBlock
  pages_le : books.chunksPerBlock ≤ 511
  fits : books.layout.Fits books.chunksPerBlock
  first_pos : 0 < books.first
  first_le : books.first ≤ books.last
  free_eq : books.nFreeChunks = books.countFree + free
  erased_eq : books.nErasedBlocks = books.countState .empty + erased
  checkpt_eq : (books.blocksInCheckpt : Int) = books.countState .checkpoint + checkpt
  sheet : ∀ block ∈ books.blocks, (books.sheet block).Sound books.chunksPerBlock
  allocating : ∀ block ∈ books.blocks, (books.sheet block).state = .allocating →
    books.allocBlock = some block
  allocBlock : ∀ block, books.allocBlock = some block →
    block ∈ books.blocks ∧ (books.sheet block).state = .allocating ∧
      (books.sheet block).seqNumber = books.seqNumber
  gcBlock : books.Target books.gcBlock
  gcDirtiest : books.Target books.gcDirtiest
  oldest : books.Target books.oldestDirtyBlock
  oldest_seq : books.oldestDirtyBlock ≠ 0 →
    (books.sheet books.oldestDirtyBlock).seqNumber = books.oldestDirtySeq
  oldest_le : books.oldestDirtySeq ≤ books.seqNumber
  gcCleanupList : books.gcCleanupList = []

/-- Pages of the allocation block from this one on are not in use. -/
def ClearFrom (page : Nat) : Prop :=
  ∀ block, books.allocBlock = some block → ∀ other, page ≤ other → other < books.chunksPerBlock →
    (books.sheet block).inUse other = false

/-- The next page of the allocation block can be taken. -/
structure Writable : Prop where
  page_lt : ∀ block, books.allocBlock = some block → books.allocPage < books.chunksPerBlock
  clear : books.ClearFrom books.allocPage

/-- The books between two operations. -/
structure Balanced : Prop extends Sound books 0 0 0, Writable books

variable {books} {free erased checkpt : Int} {block : Nat} {sheet : Sheet}

@[simp]
theorem put_sheet (other : Nat) :
    (books.put block sheet).sheet other = if other = block then sheet else books.sheet other := by
  simp [put, Function.update_apply]

@[simp]
theorem put_blocks : (books.put block sheet).blocks = books.blocks := rfl

theorem countFree_put (block_mem : block ∈ books.blocks) :
    (books.put block sheet).countFree = books.countFree +
      (sheet.free books.chunksPerBlock - (books.sheet block).free books.chunksPerBlock) := by
  refine (Tally.sum_of_agree (fun b => (books.sheet b).free books.chunksPerBlock) block_mem
    fun other _ differ => ?_).trans ?_
  · rw [put_sheet, if_neg differ]
    rfl
  · rw [put_sheet, if_pos rfl]
    rfl

theorem countState_put (block_mem : block ∈ books.blocks) (state : BlockState) :
    (books.put block sheet).countState state = books.countState state +
      ((if sheet.state = state then 1 else 0) -
        if (books.sheet block).state = state then 1 else 0) := by
  refine (Tally.count_of_agree (p := fun b => (books.sheet b).state = state)
    block_mem fun other _ differ => ?_).trans ?_
  · rw [put_sheet, if_neg differ]
  · simp only [put_sheet, if_true]
    rfl

/-! ## Changing one sheet -/

/-- The block is remembered for collection. -/
def Remembered (books : Books) (block : Nat) : Prop :=
  block = books.gcBlock ∨ block = books.gcDirtiest ∨ block = books.oldestDirtyBlock

namespace Sound

/-- A block that is remembered for collection holds pages. -/
theorem held_of_remembered (sound : books.Sound free erased checkpt)
    (block_mem : block ∈ books.blocks) (remembered : books.Remembered block) :
    Sheet.Held (books.sheet block).state := by
  have nonzero : block ≠ 0 := by
    have bounds := Finset.mem_Icc.mp block_mem
    have first_pos := sound.first_pos
    omega
  rcases remembered with rfl | rfl | rfl
  · exact (sound.gcBlock nonzero).2
  · exact (sound.gcDirtiest nonzero).2
  · exact (sound.oldest nonzero).2

/-- The three counts after one sheet has been replaced. -/
theorem counts_put (sound : books.Sound free erased checkpt) (block_mem : block ∈ books.blocks)
    (sheet : Sheet) :
    let old := books.sheet block
    let after := books.put block sheet
    after.nFreeChunks = after.countFree +
        (free + old.free books.chunksPerBlock - sheet.free books.chunksPerBlock) ∧
      after.nErasedBlocks = after.countState .empty +
        (erased + (if old.state = .empty then 1 else 0) - if sheet.state = .empty then 1 else 0) ∧
      (after.blocksInCheckpt : Int) = after.countState .checkpoint +
        (checkpt + (if old.state = .checkpoint then 1 else 0) -
          if sheet.state = .checkpoint then 1 else 0) := by
  have free_eq := sound.free_eq
  have erased_eq := sound.erased_eq
  have checkpt_eq := sound.checkpt_eq
  intro old after
  refine ⟨?_, ?_, ?_⟩
  · rw [countFree_put block_mem]
    change books.nFreeChunks = _
    rw [free_eq]
    ring
  · rw [countState_put block_mem]
    change books.nErasedBlocks = _
    rw [erased_eq]
    ring
  · rw [countState_put block_mem]
    change (books.blocksInCheckpt : Int) = _
    rw [checkpt_eq]
    ring

/-- A sheet is replaced and the allocation moves on.  A block that is remembered for collection still
holds pages, and keeps its sequence number. -/
theorem replace (sound : books.Sound free erased checkpt) (block_mem : block ∈ books.blocks)
    (sheet : Sheet) (allocBlock : Option Nat) (allocPage seqNumber : Nat)
    (sheet_sound : sheet.Sound books.chunksPerBlock)
    (remembered : books.Remembered block →
      Sheet.Held sheet.state ∧ sheet.seqNumber = (books.sheet block).seqNumber)
    (allocating : ∀ other ∈ books.blocks, ((books.put block sheet).sheet other).state = .allocating →
      allocBlock = some other)
    (alloc : ∀ other, allocBlock = some other →
      other ∈ books.blocks ∧ ((books.put block sheet).sheet other).state = .allocating ∧
        ((books.put block sheet).sheet other).seqNumber = seqNumber)
    (seq_le : books.seqNumber ≤ seqNumber) :
    Sound { books.put block sheet with allocBlock, allocPage, seqNumber }
      (free + (books.sheet block).free books.chunksPerBlock - sheet.free books.chunksPerBlock)
      (erased + (if (books.sheet block).state = .empty then 1 else 0) -
        if sheet.state = .empty then 1 else 0)
      (checkpt + (if (books.sheet block).state = .checkpoint then 1 else 0) -
        if sheet.state = .checkpoint then 1 else 0) := by
  obtain ⟨free_eq, erased_eq, checkpt_eq⟩ := sound.counts_put block_mem sheet
  have target (pointer : Nat) (was : books.Target pointer)
      (kept : block = pointer → books.Remembered block) :
      (books.put block sheet).Target pointer := by
    intro nonzero
    obtain ⟨pointer_mem, pointer_held⟩ := was nonzero
    refine ⟨pointer_mem, ?_⟩
    rw [put_sheet]
    split
    case isTrue same => exact (remembered (kept same.symm)).1
    case isFalse => exact pointer_held
  exact
    { pages_pos := sound.pages_pos
      pages_le := sound.pages_le
      fits := sound.fits
      first_pos := sound.first_pos
      first_le := sound.first_le
      free_eq, erased_eq, checkpt_eq, allocating
      allocBlock := alloc
      sheet := fun other other_mem => by
        change ((books.put block sheet).sheet other).Sound _
        rw [put_sheet]
        split
        · exact sheet_sound
        · exact sound.sheet other other_mem
      gcBlock := target _ sound.gcBlock .inl
      gcDirtiest := target _ sound.gcDirtiest fun same => .inr (.inl same)
      oldest := target _ sound.oldest fun same => .inr (.inr same)
      oldest_seq := fun nonzero => by
        change ((books.put block sheet).sheet books.oldestDirtyBlock).seqNumber = _
        rw [put_sheet]
        split
        case isTrue same =>
          rw [(remembered (.inr (.inr same.symm))).2, ← same]
          exact sound.oldest_seq nonzero
        case isFalse => exact sound.oldest_seq nonzero
      oldest_le := sound.oldest_le.trans seq_le
      gcCleanupList := sound.gcCleanupList }

/-- A sheet is replaced and the block stays, or stays out of, the one that is allocated off. -/
theorem put (sound : books.Sound free erased checkpt) (block_mem : block ∈ books.blocks)
    (sheet : Sheet) (sheet_sound : sheet.Sound books.chunksPerBlock)
    (remembered : books.Remembered block →
      Sheet.Held sheet.state ∧ sheet.seqNumber = (books.sheet block).seqNumber)
    (allocating : sheet.state = .allocating ↔ (books.sheet block).state = .allocating)
    (seq : sheet.state = .allocating → sheet.seqNumber = (books.sheet block).seqNumber) :
    (books.put block sheet).Sound
      (free + (books.sheet block).free books.chunksPerBlock - sheet.free books.chunksPerBlock)
      (erased + (if (books.sheet block).state = .empty then 1 else 0) -
        if sheet.state = .empty then 1 else 0)
      (checkpt + (if (books.sheet block).state = .checkpoint then 1 else 0) -
        if sheet.state = .checkpoint then 1 else 0) := by
  refine sound.replace block_mem sheet _ _ _ sheet_sound remembered (fun other other_mem state => ?_)
    (fun other alloc => ?_) le_rfl
  · refine sound.allocating other other_mem ?_
    rw [put_sheet] at state
    split at state
    case isTrue same => rwa [same, ← allocating]
    case isFalse => exact state
  · obtain ⟨other_mem, state, other_seq⟩ := sound.allocBlock other alloc
    refine ⟨other_mem, ?_⟩
    rw [put_sheet]
    split
    case isTrue same =>
      rw [same] at state other_seq
      exact ⟨allocating.mpr state, (seq (allocating.mpr state)).trans other_seq⟩
    case isFalse => exact ⟨state, other_seq⟩

/-- Moving the counters moves the differences. -/
theorem count (sound : books.Sound free erased checkpt) (nFreeChunks nErasedBlocks : Int)
    (blocksInCheckpt : Nat) :
    Sound { books with nFreeChunks, nErasedBlocks, blocksInCheckpt }
      (free + (nFreeChunks - books.nFreeChunks)) (erased + (nErasedBlocks - books.nErasedBlocks))
      (checkpt + (blocksInCheckpt - books.blocksInCheckpt)) :=
  { sound with
    free_eq := by
      have eq := sound.free_eq
      change nFreeChunks = books.countFree + _
      omega
    erased_eq := by
      have eq := sound.erased_eq
      change nErasedBlocks = books.countState .empty + _
      omega
    checkpt_eq := by
      have eq := sound.checkpt_eq
      change (blocksInCheckpt : Int) = books.countState .checkpoint + _
      omega }

theorem cast (sound : books.Sound free erased checkpt) {free' erased' checkpt' : Int}
    (free_eq : free = free') (erased_eq : erased = erased') (checkpt_eq : checkpt = checkpt') :
    books.Sound free' erased' checkpt' := by
  subst free_eq erased_eq checkpt_eq
  exact sound

end Sound

/-! ## Entries in the books -/

/-- Mark a page of a block in use. -/
def markPage (books : Books) (block page : Nat) : Books :=
  { books.put block
      ((books.sheet block).put page true ((books.sheet block).pagesInUse + 1)) with
    nFreeChunks := books.nFreeChunks - 1 }

/-- Mark a page of a block no longer in use. -/
def unmarkPage (books : Books) (block page : Nat) : Books :=
  { books.put block
      ((books.sheet block).put page false ((books.sheet block).pagesInUse - 1)) with
    nFreeChunks := books.nFreeChunks + 1 }

/-- Change the state of a block. -/
def setState (books : Books) (block : Nat) (state : BlockState) : Books :=
  books.put block { books.sheet block with state }

/-- Take an erased block for allocation. -/
def takeErased (books : Books) (block : Nat) : Books :=
  { books.put block
      { books.sheet block with state := .allocating, seqNumber := books.seqNumber + 1 } with
    seqNumber := books.seqNumber + 1
    nErasedBlocks := books.nErasedBlocks - 1
    allocBlock := some block
    allocPage := 0 }

/-- Stop to allocate off a block. -/
def closeAlloc (books : Books) (block : Nat) : Books :=
  { books.setState block .full with allocBlock := none }

/-- Make a block available again. -/
def clean (books : Books) (block : Nat) : Books :=
  { books.put block
      { state := .empty, pagesInUse := 0, softDelPages := 0, seqNumber := 0
        inUse := fun _ => false } with
    nErasedBlocks := books.nErasedBlocks + 1 }

/-- Make a block of the checkpoint available again. -/
def releaseCheckpt (books : Books) (block : Nat) : Books :=
  { books.setState block .empty with
    nErasedBlocks := books.nErasedBlocks + 1
    nFreeChunks := books.nFreeChunks + books.chunksPerBlock }

/-- Take an erased block for the checkpoint. -/
def takeCheckpt (books : Books) (block : Nat) : Books :=
  { books.setState block .checkpoint with blocksInCheckpt := books.blocksInCheckpt + 1 }

namespace Sound

theorem marked_sheet (sound : books.Sound free erased checkpt) (block_mem : block ∈ books.blocks)
    {page : Nat} (page_lt : page < books.chunksPerBlock) (bit : Bool)
    (changes : (books.sheet block).inUse page = !bit)
    (writing : (books.sheet block).state = .allocating ∨ Sheet.Held (books.sheet block).state) :
    ((books.sheet block).put page bit
      ((books.sheet block).pagesInUse + if bit then 1 else -1)).Sound books.chunksPerBlock := by
  have old := sound.sheet block block_mem
  refine ⟨old.softDel, ?_, fun not_allocating not_held => ?_⟩
  · rw [Sheet.marked_put _ _ _ _ page_lt, changes]
    change (books.sheet block).pagesInUse + _ = _
    rw [old.counted]
    cases bit <;> simp
  · exact absurd writing (not_or.mpr ⟨not_allocating, not_held⟩)

/-- A page of the allocation block is put in use. -/
theorem markPage (sound : books.Sound free erased checkpt) (block_mem : block ∈ books.blocks)
    {page : Nat} (page_lt : page < books.chunksPerBlock)
    (unused : (books.sheet block).inUse page = false)
    (allocating : (books.sheet block).state = .allocating) :
    (books.markPage block page).Sound free erased checkpt := by
  have put := sound.put block_mem _
    (sound.marked_sheet block_mem page_lt true unused (.inl allocating))
    (fun remembered => ⟨sound.held_of_remembered block_mem remembered, rfl⟩) Iff.rfl fun _ => rfl
  refine (put.count (books.nFreeChunks - 1) books.nErasedBlocks books.blocksInCheckpt).cast ?_ ?_ ?_
  all_goals simp [Sheet.free, Sheet.put, Books.put, allocating, BlockState.countsAsFree]
  omega

/-- A page in use is taken out of use. -/
theorem unmarkPage (sound : books.Sound free erased checkpt) (block_mem : block ∈ books.blocks)
    {page : Nat} (page_lt : page < books.chunksPerBlock)
    (used : (books.sheet block).inUse page = true)
    (writing : (books.sheet block).state = .allocating ∨ Sheet.Held (books.sheet block).state) :
    (books.unmarkPage block page).Sound free erased checkpt := by
  have put := sound.put block_mem _ (sound.marked_sheet block_mem page_lt false used writing)
    (fun remembered => ⟨sound.held_of_remembered block_mem remembered, rfl⟩) Iff.rfl fun _ => rfl
  have counts : (books.sheet block).state.countsAsFree = true := by
    rcases writing with state | state | state <;> rw [state] <;> rfl
  refine (put.count (books.nFreeChunks + 1) books.nErasedBlocks books.blocksInCheckpt).cast ?_ ?_ ?_
  all_goals simp [Sheet.free, Sheet.put, Books.put, counts]
  omega

/-- A page in use can only be in a block that is written or holds pages. -/
theorem writing_of_used (sound : books.Sound free erased checkpt) (block_mem : block ∈ books.blocks)
    {page : Nat} (page_lt : page < books.chunksPerBlock)
    (used : (books.sheet block).inUse page = true) :
    (books.sheet block).state = .allocating ∨ Sheet.Held (books.sheet block).state := by
  by_contra neither
  rw [not_or] at neither
  have unused := (sound.sheet block block_mem).unmarked neither.1 neither.2 page page_lt
  rw [used] at unused
  cases unused

/-- A sheet without marks stays sound in any state. -/
theorem unmarked_sheet (sound : books.Sound free erased checkpt) (block_mem : block ∈ books.blocks)
    (empty : (books.sheet block).pagesInUse = 0) (state : BlockState) :
    ({ books.sheet block with state } : Sheet).Sound books.chunksPerBlock := by
  have old := sound.sheet block block_mem
  refine ⟨old.softDel, old.counted, fun _ _ => ?_⟩
  have none_marked := old.counted.symm.trans empty
  exact Sheet.marked_eq_zero_iff.mp none_marked

/-- A full block is collected, or the collection ends. -/
theorem setState_held (sound : books.Sound free erased checkpt) (block_mem : block ∈ books.blocks)
    {state : BlockState} (held : Sheet.Held (books.sheet block).state) (after : Sheet.Held state) :
    (books.setState block state).Sound free erased checkpt := by
  have old := sound.sheet block block_mem
  have put := sound.put block_mem { books.sheet block with state }
    ⟨old.softDel, old.counted, fun _ not_held => absurd after not_held⟩ (fun _ => ⟨after, rfl⟩)
    (by rcases held with eq | eq <;> rcases after with eq' | eq' <;> simp [eq, eq']) fun _ => rfl
  refine put.cast ?_ ?_ ?_
  all_goals
    rcases held with eq | eq <;> rcases after with eq' | eq' <;>
      simp [Sheet.free, eq, eq', BlockState.countsAsFree]

/-- The allocation block is full or left alone. -/
theorem closeAlloc (sound : books.Sound free erased checkpt)
    (alloc : books.allocBlock = some block) :
    (books.closeAlloc block).Sound free erased checkpt := by
  obtain ⟨block_mem, state, _⟩ := sound.allocBlock block alloc
  have old := sound.sheet block block_mem
  have closed := sound.replace block_mem { books.sheet block with state := .full } none books.allocPage
    books.seqNumber
    ⟨old.softDel, old.counted, fun _ not_held => absurd (.inl rfl) not_held⟩
    (fun _ => ⟨.inl rfl, rfl⟩) ?_ (fun _ none => by cases none) le_rfl
  · refine closed.cast ?_ ?_ ?_
    all_goals simp [Sheet.free, state, BlockState.countsAsFree]
  · intro other other_mem other_state
    rw [put_sheet] at other_state
    split at other_state
    · cases other_state
    case isFalse differ =>
      have same := alloc.symm.trans (sound.allocating other other_mem other_state)
      exact absurd (Option.some.inj same).symm differ

/-- An erased block becomes the allocation block. -/
theorem takeErased (sound : books.Sound free erased checkpt) (block_mem : block ∈ books.blocks)
    (none : books.allocBlock = none) (empty : (books.sheet block).state = .empty) :
    (books.takeErased block).Sound free erased checkpt ∧ (books.takeErased block).Writable := by
  have old := sound.sheet block block_mem
  have unused := old.unmarked (by simp [empty]) (by simp [empty, Sheet.Held])
  have taken := sound.replace block_mem
    { books.sheet block with state := .allocating, seqNumber := books.seqNumber + 1 } (some block) 0
    (books.seqNumber + 1)
    ⟨old.softDel, old.counted, fun not_allocating => absurd rfl not_allocating⟩
    (fun remembered => by
      have held := sound.held_of_remembered block_mem remembered
      simp [empty, Sheet.Held] at held) ?_ ?_ (Nat.le_succ _)
  · refine ⟨(taken.count books.nFreeChunks (books.nErasedBlocks - 1) books.blocksInCheckpt).cast
      ?_ ?_ ?_, ⟨fun _ _ => sound.pages_pos, fun other alloc page _ page_lt => ?_⟩⟩
    · simp [Sheet.free, empty, BlockState.countsAsFree, Books.put]
    · simp [empty, Books.put]
    · simp [empty, Books.put]
    · obtain rfl : block = other := Option.some.inj alloc
      simpa [Books.takeErased, Books.put] using unused page page_lt
  · intro other other_mem other_state
    rw [put_sheet] at other_state
    split at other_state
    case isTrue same => rw [same]
    case isFalse =>
      have alloc := none.symm.trans (sound.allocating other other_mem other_state)
      cases alloc
  · rintro other alloc
    obtain rfl : block = other := Option.some.inj alloc
    simp [block_mem]

/-- A block without pages that is not remembered leaves the accounts. -/
theorem remove (sound : books.Sound free erased checkpt) (block_mem : block ∈ books.blocks)
    (held : Sheet.Held (books.sheet block).state) (empty : (books.sheet block).pagesInUse = 0)
    (forgotten : ¬books.Remembered block) :
    (books.setState block .dirty).Sound (free + books.chunksPerBlock) erased checkpt := by
  have old := sound.sheet block block_mem
  have put := sound.put block_mem _ (sound.unmarked_sheet block_mem empty .dirty)
    (fun remembered => absurd remembered forgotten)
    (by rcases held with eq | eq <;> simp [eq]) fun _ => rfl
  refine put.cast ?_ ?_ ?_
  all_goals
    rcases held with eq | eq <;>
      simp [Sheet.free, eq, BlockState.countsAsFree, empty, old.softDel]

/-- A block outside of the accounts moves to another state outside of them. -/
theorem setState_outside (sound : books.Sound free erased checkpt) (block_mem : block ∈ books.blocks)
    (dirty : (books.sheet block).state = .dirty) :
    (books.setState block .dead).Sound free erased checkpt := by
  have empty := (sound.sheet block block_mem).pagesInUse_of_unmarked (by simp [dirty])
    (by simp [dirty, Sheet.Held])
  have put := sound.put block_mem _ (sound.unmarked_sheet block_mem empty .dead)
    (fun remembered => by
      have held := sound.held_of_remembered block_mem remembered
      simp [dirty, Sheet.Held] at held)
    (by simp [dirty]) fun _ => rfl
  refine put.cast ?_ ?_ ?_
  all_goals simp [Sheet.free, dirty, BlockState.countsAsFree]

/-- A block outside of the accounts comes back erased. -/
theorem clean (sound : books.Sound free erased checkpt) (block_mem : block ∈ books.blocks)
    (dirty : (books.sheet block).state = .dirty) :
    (books.clean block).Sound (free - books.chunksPerBlock) erased checkpt := by
  have put := sound.put block_mem
    { state := .empty, pagesInUse := 0, softDelPages := 0, seqNumber := 0, inUse := fun _ => false }
    ⟨rfl, by simp [Sheet.marked, Tally.count], fun _ _ _ _ => rfl⟩
    (fun remembered => by
      have held := sound.held_of_remembered block_mem remembered
      simp [dirty, Sheet.Held] at held)
    (by simp [dirty]) (fun absurd_state => by simp at absurd_state)
  refine (put.count books.nFreeChunks (books.nErasedBlocks + 1) books.blocksInCheckpt).cast
    ?_ ?_ ?_
  all_goals simp [Sheet.free, dirty, BlockState.countsAsFree, Books.put]

/-- A block goes into or out of the checkpoint. -/
theorem setState_unheld (sound : books.Sound free erased checkpt) (block_mem : block ∈ books.blocks)
    {state : BlockState}
    (before : (books.sheet block).state = .empty ∨ (books.sheet block).state = .checkpoint)
    (after : state = .empty ∨ state = .checkpoint ∨ state = .dead) :
    (books.setState block state).Sound
      (free + (if (books.sheet block).state = .empty then (books.chunksPerBlock : Int) else 0) -
        if state = .empty then (books.chunksPerBlock : Int) else 0)
      (erased + (if (books.sheet block).state = .empty then 1 else 0) -
        if state = .empty then 1 else 0)
      (checkpt + (if (books.sheet block).state = .checkpoint then 1 else 0) -
        if state = .checkpoint then 1 else 0) := by
  have not_held : ¬Sheet.Held (books.sheet block).state := by
    rcases before with eq | eq <;> simp [eq, Sheet.Held]
  have old := sound.sheet block block_mem
  have empty := old.pagesInUse_of_unmarked (by rcases before with eq | eq <;> simp [eq]) not_held
  have put := sound.put block_mem _ (sound.unmarked_sheet block_mem empty state)
    (fun remembered => absurd (sound.held_of_remembered block_mem remembered) not_held)
    (by rcases before with eq | eq <;> rcases after with eq' | eq' | eq' <;> simp [eq, eq'])
    fun _ => rfl
  refine put.cast ?_ rfl rfl
  rcases before with eq | eq <;> rcases after with eq' | eq' | eq' <;>
    simp [Sheet.free, eq, eq', BlockState.countsAsFree, empty, old.softDel]

/-- A block of the checkpoint has been erased. -/
theorem releaseCheckpt (sound : books.Sound free erased checkpt) (block_mem : block ∈ books.blocks)
    (in_checkpoint : (books.sheet block).state = .checkpoint) :
    (books.releaseCheckpt block).Sound free erased (checkpt + 1) := by
  have moved := sound.setState_unheld block_mem (.inr in_checkpoint) (.inl rfl)
  refine (moved.count (books.nFreeChunks + books.chunksPerBlock) (books.nErasedBlocks + 1)
    books.blocksInCheckpt).cast ?_ ?_ ?_
  all_goals simp [in_checkpoint, Books.setState, Books.put]

/-- A block of the checkpoint has failed to erase. -/
theorem loseCheckpt (sound : books.Sound free erased checkpt) (block_mem : block ∈ books.blocks)
    (in_checkpoint : (books.sheet block).state = .checkpoint) :
    (books.setState block .dead).Sound free erased (checkpt + 1) := by
  refine (sound.setState_unheld block_mem (.inr in_checkpoint) (.inr (.inr rfl))).cast ?_ ?_ ?_
  all_goals simp [in_checkpoint]

/-- An erased block goes into the checkpoint.  The counters of erased blocks and free pages follow
when the stream is closed. -/
theorem takeCheckpt (sound : books.Sound free erased checkpt) (block_mem : block ∈ books.blocks)
    (empty : (books.sheet block).state = .empty) :
    (books.takeCheckpt block).Sound (free + books.chunksPerBlock) (erased + 1) checkpt := by
  have moved := sound.setState_unheld block_mem (.inl empty) (.inr (.inl rfl))
  refine (moved.count books.nFreeChunks books.nErasedBlocks (books.blocksInCheckpt + 1)).cast
    ?_ ?_ ?_
  all_goals simp [empty, Books.setState, Books.put]

/-- Without blocks in the checkpoint, their count is zero. -/
theorem settleCheckpt (sound : books.Sound free erased checkpt)
    (none : ∀ block ∈ books.blocks, (books.sheet block).state ≠ .checkpoint) :
    Sound { books with blocksInCheckpt := 0 } free erased 0 :=
  { sound with
    checkpt_eq := by
      change ((0 : Nat) : Int) = books.countState .checkpoint + 0
      rw [countState, (Tally.count_eq_zero_iff _).mpr none]
      rfl }

end Sound

/-! ## Blocks that are left alone -/

/-- The same blocks, and no block that is being collected was touched, other than those exempt. -/
structure Moves (exempt : Nat → Prop) (before after : Books) : Prop where
  layout : after.layout = before.layout
  chunksPerBlock : after.chunksPerBlock = before.chunksPerBlock
  first : after.first = before.first
  last : after.last = before.last
  collecting : ∀ block, ¬exempt block → (before.sheet block).state = .collecting →
    after.sheet block = before.sheet block

namespace Moves

variable {first second third after : Books} {exempt : Nat → Prop}

theorem refl (books : Books) : Moves exempt books books := ⟨rfl, rfl, rfl, rfl, fun _ _ _ => rfl⟩

theorem trans (left : Moves exempt first second) (right : Moves exempt second third) :
    Moves exempt first third where
  layout := right.layout.trans left.layout
  chunksPerBlock := right.chunksPerBlock.trans left.chunksPerBlock
  first := right.first.trans left.first
  last := right.last.trans left.last
  collecting block not_exempt state := by
    have same := left.collecting block not_exempt state
    rw [right.collecting block not_exempt (by rw [same, state]), same]

theorem blocks (moves : Moves exempt first second) : second.blocks = first.blocks := by
  rw [Books.blocks, Books.blocks, moves.first, moves.last]

theorem mono {wider : Nat → Prop} (moves : Moves exempt first second)
    (weaker : ∀ block, (first.sheet block).state = .collecting → exempt block → wider block) :
    Moves wider first second :=
  { moves with
    collecting := fun block not_exempt state =>
      moves.collecting block (fun exempted => not_exempt (weaker block state exempted)) state }

/-- Replacing a sheet. -/
theorem put (books : Books) (block : Nat) (sheet : Sheet) :
    Moves (· = block) books (books.put block sheet) where
  layout := rfl
  chunksPerBlock := rfl
  first := rfl
  last := rfl
  collecting other differ _ := by rw [put_sheet, if_neg differ]

end Moves

/-- The allocation can go on where no page has been put in use behind its back. -/
theorem Writable.of_shrinks {after : Books} (writable : books.Writable)
    (chunksPerBlock : after.chunksPerBlock = books.chunksPerBlock)
    (allocBlock : after.allocBlock = books.allocBlock) (allocPage : after.allocPage = books.allocPage)
    (shrinks : ∀ block, books.allocBlock = some block → ∀ page,
      (after.sheet block).inUse page = true → (books.sheet block).inUse page = true) :
    after.Writable where
  page_lt block alloc := by
    rw [allocPage, chunksPerBlock]
    exact writable.page_lt block (allocBlock ▸ alloc)
  clear block alloc page page_ge page_lt := by
    rw [allocBlock] at alloc
    by_contra used
    rw [Bool.not_eq_false] at used
    have was := shrinks block alloc page used
    rw [writable.clear block alloc page (allocPage ▸ page_ge) (chunksPerBlock ▸ page_lt)] at was
    cases was

/-- A change of state puts no page in use. -/
theorem Writable.setState (writable : books.Writable) (block : Nat) (state : BlockState) :
    (books.setState block state).Writable := by
  refine writable.of_shrinks rfl rfl rfl fun other _ page used => ?_
  rw [Books.setState, put_sheet] at used
  split at used
  case isTrue same => exact same ▸ used
  case isFalse => exact used

theorem Moves.clean (block : Nat) : Moves (· = block) books (books.clean block) :=
  { Moves.put books block
      { state := .empty, pagesInUse := 0, softDelPages := 0, seqNumber := 0
        inUse := fun _ => false } with }

theorem Moves.setState {exempt : Nat → Prop} (block : Nat) (state : BlockState)
    (not_collecting : (books.sheet block).state ≠ .collecting) :
    Moves exempt books (books.setState block state) :=
  (Moves.put books block { books.sheet block with state }).mono fun other collecting same => by
    obtain rfl : other = block := same
    exact absurd collecting not_collecting

/-! ## Balanced books -/

theorem Balanced.unmarkPage (balanced : books.Balanced) (block_mem : block ∈ books.blocks)
    {page : Nat} (page_lt : page < books.chunksPerBlock)
    (used : (books.sheet block).inUse page = true) : (books.unmarkPage block page).Balanced := by
  refine ⟨balanced.toSound.unmarkPage block_mem page_lt used
    (balanced.writing_of_used block_mem page_lt used), ?_⟩
  refine balanced.toWritable.of_shrinks rfl rfl rfl fun other _ page' used' => ?_
  change ((books.put block _).sheet other).inUse page' = true at used'
  rw [put_sheet] at used'
  split at used'
  case isTrue same =>
    rw [same]
    simp only [Sheet.put, Function.update_apply] at used'
    split at used'
    · cases used'
    · exact used'
  case isFalse => exact used'

theorem Balanced.closeAlloc (balanced : books.Balanced) (alloc : books.allocBlock = some block) :
    (books.closeAlloc block).Balanced :=
  ⟨balanced.toSound.closeAlloc alloc, ⟨nofun, nofun⟩⟩

theorem Balanced.setState_held (balanced : books.Balanced) (block_mem : block ∈ books.blocks)
    {state : BlockState} (held : Sheet.Held (books.sheet block).state) (after : Sheet.Held state) :
    (books.setState block state).Balanced :=
  ⟨balanced.toSound.setState_held block_mem held after, balanced.toWritable.setState block state⟩

theorem Moves.unmarkPage (block page : Nat) : Moves (· = block) books (books.unmarkPage block page) :=
  { Moves.put books block
      ((books.sheet block).put page false ((books.sheet block).pagesInUse - 1)) with }

theorem Moves.markPage (block page : Nat) : Moves (· = block) books (books.markPage block page) :=
  { Moves.put books block
      ((books.sheet block).put page true ((books.sheet block).pagesInUse + 1)) with }

theorem Moves.closeAlloc (block : Nat) : Moves (· = block) books (books.closeAlloc block) :=
  { Moves.put books block { books.sheet block with state := .full } with }

/-- The next page of the allocation block is taken. -/
def takePage (books : Books) (block : Nat) : Books :=
  { books.markPage block books.allocPage with allocPage := books.allocPage + 1 }

theorem markPage_inUse (page page' : Nat) (other : Nat) :
    ((books.markPage block page).sheet other).inUse page' =
      (decide (other = block ∧ page' = page) || (books.sheet other).inUse page') := by
  change ((books.put block _).sheet other).inUse page' = _
  rw [put_sheet]
  by_cases same : other = block
  · subst same
    by_cases same_page : page' = page
    · simp [Sheet.put, same_page]
    · simp [Sheet.put, same_page]
  · simp [same]

/-- A page has been taken, and the block can be allocated off further if it is not full. -/
theorem Balanced.takePage (balanced : books.Balanced) (alloc : books.allocBlock = some block) :
    (books.takePage block).Sound 0 0 0 ∧
      (books.allocPage + 1 < books.chunksPerBlock → (books.takePage block).Writable) := by
  obtain ⟨block_mem, state, _⟩ := balanced.allocBlock block alloc
  have page_lt := balanced.page_lt block alloc
  have unused := balanced.clear block alloc books.allocPage le_rfl page_lt
  have marked := balanced.toSound.markPage block_mem page_lt unused state
  refine ⟨{ marked with }, fun more => ⟨fun _ _ => more, ?_⟩⟩
  intro other other_alloc page page_ge page_lt
  change books.allocBlock = some other at other_alloc
  change books.allocPage + 1 ≤ page at page_ge
  change ((books.markPage block books.allocPage).sheet other).inUse page = false
  rw [markPage_inUse, balanced.clear other other_alloc page (by omega) page_lt]
  simp only [Bool.or_false, decide_eq_false_iff_not, not_and]
  omega

end Books

end Yaffs
