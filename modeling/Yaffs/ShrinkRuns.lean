import Yaffs.ShrinkHeaders

/-!
# Runs with shrink headers

Collecting a block keeps the blocks ranked, unless it drops a block summary and then fails to copy
the first page.  A run therefore only ever chooses blocks that are safe as long as every collection
gets that far, and no page is deleted from a full block that is older than a remembered block with a
shrink header.
-/

namespace Yaffs

namespace BlockAges

variable {ages after : BlockAges} {block : Nat}

/-- A full block is going to be collected. -/
theorem Ranked.collect (ranked : ages.Ranked) (full : (ages.age block).state = .full) :
    (ages.put block { ages.age block with state := .collecting }).Ranked := by
  obtain ⟨isYaffs2, pages_pos, first_pos, first_le, page_lt, allocating, allocBlock,
    seq_le, gcBlock,
    gcDirtiest, oldest, oldest_seq, oldest_le, low, clear⟩ := ranked
  constructor <;> simp only [put_age, Target, Low, Clear, blocks] at * <;> grind [put, Sheet.Held]

/-- The pages of a block that is being collected are counted anew. -/
theorem Ranked.recount (ranked : ages.Ranked) (collecting : (ages.age block).state = .collecting)
    (discarded : Bool) : (ages.put block { ages.age block with discarded }).Ranked := by
  obtain ⟨isYaffs2, pages_pos, first_pos, first_le, page_lt, allocating, allocBlock,
    seq_le, gcBlock,
    gcDirtiest, oldest, oldest_seq, oldest_le, low, clear⟩ := ranked
  constructor <;> simp only [put_age, Target, Low, Clear, blocks] at * <;> grind [put, Sheet.Held]

/-- The block is known to be dirty if pages of it have been discarded. -/
def Noted (ages : BlockAges) (block : Nat) : Prop :=
  (ages.age block).discarded = true → ages.Low block

/-- A block that has not been collected to its end is full again. -/
theorem Ranked.restore (ranked : ages.Ranked) (collecting : (ages.age block).state = .collecting)
    (pointed : ages.gcBlock = block) (noted : ages.Noted block) :
    (ages.put block { ages.age block with state := .full }).Ranked := by
  obtain ⟨isYaffs2, pages_pos, first_pos, first_le, page_lt, allocating, allocBlock,
    seq_le, gcBlock,
    gcDirtiest, oldest, oldest_seq, oldest_le, low, clear⟩ := ranked
  constructor <;> simp only [put_age, Target, Low, Clear, blocks, Noted] at * <;>
    grind [put, Sheet.Held]

/-- A block that is collected stays known to be dirty. -/
theorem Shifts.noted (shifts : Shifts ages after) (ranked : ages.Ranked) (noted : ages.Noted block)
    (state : (after.age block).state = .collecting) : after.Noted block := by
  obtain ⟨-, -, low, -, known⟩ := shifts.collecting ranked state
  intro discarded
  rcases known with known | same
  · exact known
  · exact low (noted (same ▸ discarded))

end BlockAges

namespace Fs

open Dev BlockAges

variable {Flash : Type} (T : Tagger Flash) {fs : Fs Flash}

/-! ## Copying pages -/

theorem mayDelete_of_collecting {dev : Dev Flash} {block : Nat} (mem : block ∈ dev.blocks)
    (collecting : dev.blockState block = .collecting) : dev.MayDelete block :=
  ⟨mem, .inr (.inr collecting), fun full => absurd (collecting.symm.trans full) nofun⟩

theorem ages_tnodesOnly {dev after : Dev Flash} (only : TnodesOnly dev after) :
    after.ages = dev.ages := by
  obtain ⟨_, _, _, rfl⟩ := only
  rfl

/-- Entering a page in an object, where a page for an object that is no file is deleted. -/
theorem shifts_putChunkInFile (ranked : fs.dev.ages.Ranked) (number inodeChunk : Nat)
    {nandChunk : Nat}
    (may : 0 < nandChunk → fs.dev.MayDelete (nandChunk / fs.dev.param.chunksPerBlock)) :
    Shifts fs.dev.ages (fs.putChunkInFile T number inodeChunk nandChunk).2.dev.ages := by
  simp only [Fs.putChunkInFile]
  split
  case h_1 => exact .refl
  case h_2 obj _ =>
    split
    case isTrue =>
      exact (shifts_chunkDel T ranked nandChunk true (by simpa using may)).1
    case isFalse =>
      have same : Shifts fs.dev.ages (fs.dev.addFindTnode0 obj.file inodeChunk none).2.2.ages :=
        ages_tnodesOnly (fs.dev.addFindTnode0_only obj.file inodeChunk none) ▸ .refl
      split
      · exact same
      · split <;> exact same

/-- Entering a copied page. -/
theorem shifts_gcMove (ranked : fs.dev.ages.Ranked) (obj : Obj) (tags : ExtTags) {newChunk : Nat}
    (written : fs.dev.Written (newChunk / fs.dev.param.chunksPerBlock)) :
    Shifts fs.dev.ages (fs.gcMove T obj tags newChunk).dev.ages := by
  simp only [Fs.gcMove]
  split
  · exact .refl
  · refine shifts_putChunkInFile T ranked obj.objId tags.chunkId fun _ => ?_
    exact ⟨written.fresh.mem, written.fresh.busy, fun _ _ => written.fresh.clear ranked⟩

/-- A page of the block that is collected is copied elsewhere, and deleted in its block, which is
then known to be dirty. -/
theorem shifts_gcProcessChunk (balanced : fs.Balanced) (ranked : fs.dev.ages.Ranked)
    {block page : Nat} (in_use : fs.dev.InUse block page)
    (collecting : fs.dev.blockState block = .collecting) :
    let processed := fs.gcProcessChunk T block (block * fs.dev.param.chunksPerBlock + page)
    Shifts fs.dev.ages processed.2.dev.ages ∧ (processed.1 = true →
      processed.2.dev.blockState block = .collecting → processed.2.dev.ages.Low block) := by
  have read_ages := fs.dev.ages_rdChunkTagsNand T (block * fs.dev.param.chunksPerBlock + page)
  have read_books := fs.dev.books_rdChunkTagsNand T (block * fs.dev.param.chunksPerBlock + page)
  obtain ⟨block_eq, -⟩ := page_of_chunk block in_use.page_lt
  have chunk_pos : 0 < block * fs.dev.param.chunksPerBlock + page :=
    Nat.add_pos_left (Nat.mul_pos (Nat.pos_of_ne_zero (ranked.nonzero in_use.block_mem))
      ranked.pages_pos) _
  simp only [Fs.gcProcessChunk]
  generalize fs.dev.rdChunkTagsNand T (block * fs.dev.param.chunksPerBlock + page) = read at *
  -- The page is deleted last, when its block is still being collected.
  have deleted (after : Fs Flash) (shifts : Shifts fs.dev.ages after.dev.ages)
      (still : after.dev.blockState block = .collecting) :
      let gone := after.dev.chunkDel T (block * fs.dev.param.chunksPerBlock + page : Nat) true
      Shifts fs.dev.ages gone.ages ∧
        (gone.blockState block = .collecting → gone.ages.Low block) := by
    have pages : after.dev.param.chunksPerBlock = fs.dev.param.chunksPerBlock :=
      shifts.chunksPerBlock_eq
    have mem : block ∈ after.dev.blocks :=
      (Finset.ext_iff.mp shifts.blocks_eq block).mpr in_use.block_mem
    have own : ((block * fs.dev.param.chunksPerBlock + page : Nat) : Int).toNat /
        after.dev.param.chunksPerBlock = block := by
      rw [Int.toNat_natCast, pages, block_eq]
    have del := shifts_chunkDel T (shifts.ranked ranked)
      (block * fs.dev.param.chunksPerBlock + page : Nat) true
      fun _ => by rw [own]; exact mayDelete_of_collecting mem still
    rw [own] at del
    exact ⟨shifts.trans del.1, del.2 (by exact_mod_cast chunk_pos)⟩
  have read_state : read.2.blockState block = .collecting := by
    have same := congrArg (fun ages : BlockAges => (ages.age block).state) read_ages
    exact same.trans collecting
  have read_balanced : ({ fs with dev := read.2 } : Fs Flash).Balanced :=
    ⟨read_books ▸ balanced.books, balanced.not_softDel⟩
  split
  case h_1 =>
    obtain ⟨shifts, low⟩ := deleted { fs with dev := read.2 } (read_ages ▸ .refl) read_state
    exact ⟨shifts, fun _ => low⟩
  case h_2 obj found =>
    have hard : obj.softDel = false := read_balanced.findByNumber found
    rw [if_neg (by simp [hard])]
    obtain ⟨write_books, moves, copied⟩ := writeNewChunk_books T read_balanced.books
      (gcCopy read.2.swapEndian obj read.1.2.1 read.1.2.2).1
      (gcCopy read.2.swapEndian obj read.1.2.1 read.1.2.2).2 true
    obtain ⟨write, written⟩ := shifts_writeNewChunk T (read_ages ▸ ranked)
      (gcCopy read.2.swapEndian obj read.1.2.1 read.1.2.2).1
      (gcCopy read.2.swapEndian obj read.1.2.1 read.1.2.2).2 true
    generalize read.2.writeNewChunk T (gcCopy read.2.swapEndian obj read.1.2.1 read.1.2.2).1
      (gcCopy read.2.swapEndian obj read.1.2.1 read.1.2.2).2 true = wrote at *
    have wrote_ranked : wrote.2.ages.Ranked := write.ranked (read_ages ▸ ranked)
    rw [read_ages] at write
    split
    case h_1 => exact ⟨write, by simp⟩
    case h_2 newChunk new_eq =>
      obtain ⟨newBlock, newPage, rfl, new_in_use, not_collecting⟩ := copied newChunk new_eq
      have pages : wrote.2.param.chunksPerBlock = read.2.param.chunksPerBlock :=
        moves.chunksPerBlock
      have placed := written _ new_eq
      rw [← pages] at placed ⊢
      have wrote_balanced : ({ fs with dev := wrote.2 } : Fs Flash).Balanced :=
        ⟨write_books, balanced.not_softDel⟩
      obtain ⟨-, moved_moves⟩ := wrote_balanced.gcMove T obj
        (gcCopy read.2.swapEndian obj read.1.2.1 read.1.2.2).2 new_in_use
      let wroteFs : Fs Flash := { fs with dev := wrote.2 }
      have placed' : wroteFs.dev.Written _ := placed
      have moved := shifts_gcMove T wrote_ranked obj
        (gcCopy read.2.swapEndian obj read.1.2.1 read.1.2.2).2 placed'
      have differs : ¬block = newBlock := fun same => not_collecting (same ▸ read_state)
      have wrote_state : wrote.2.blockState block = .collecting :=
        (congrArg Sheet.state (moves.collecting block not_false read_state)).trans read_state
      have still := (congrArg Sheet.state (moved_moves.collecting block differs wrote_state)).trans
        wrote_state
      obtain ⟨shifts, low⟩ := deleted _ (write.trans moved) still
      exact ⟨shifts, fun _ => low⟩

/-- One page of the block that is collected, if it is in use. -/
theorem shifts_gcPage (balanced : fs.Balanced) (ranked : fs.dev.ages.Ranked) {block : Nat}
    (mem : block ∈ fs.dev.blocks) (collecting : fs.dev.blockState block = .collecting)
    (page_lt : fs.dev.gcChunk < fs.dev.param.chunksPerBlock) :
    Shifts fs.dev.ages (fs.gcPage T block).2.dev.ages ∧
      (fs.dev.checkChunkBit block fs.dev.gcChunk = true → (fs.gcPage T block).1 = true →
        (fs.gcPage T block).2.dev.blockState block = .collecting →
          (fs.gcPage T block).2.dev.ages.Low block) := by
  simp only [Fs.gcPage]
  split
  case isTrue used =>
    obtain ⟨shifts, low⟩ := shifts_gcProcessChunk T balanced ranked ⟨mem, page_lt, used⟩ collecting
    exact ⟨shifts, fun _ => low⟩
  case isFalse unused => exact ⟨.refl, fun used => absurd used unused⟩

theorem shifts_gcCopyLoop (balanced : fs.Balanced) (ranked : fs.dev.ages.Ranked) {block : Nat}
    (mem : block ∈ fs.dev.blocks) (left copies : Nat) :
    Shifts fs.dev.ages (gcCopyLoop T block left copies fs).2.dev.ages := by
  induction left generalizing copies fs with
  | zero => exact .refl
  | succ left ih =>
    simp only [Fs.gcCopyLoop]
    split
    case isTrue => exact .refl
    case isFalse going_on =>
      simp only [not_or, not_le, ne_eq, not_not] at going_on
      obtain ⟨stepped, -⟩ := balanced.gcPage T mem going_on.2.1 going_on.1
      obtain ⟨shifts, -⟩ := shifts_gcPage T balanced ranked mem going_on.2.1 going_on.1
      have mem' : block ∈ (fs.gcPage T block).2.dev.blocks :=
        (Finset.ext_iff.mp shifts.blocks_eq block).mpr mem
      split
      · exact shifts.trans (ih stepped (shifts.ranked ranked) mem' _)
      · exact shifts

/-- The first page in use that the collection comes to is taken out of the block. -/
def CopiesFirst (fs : Fs Flash) (block : Nat) : Prop :=
  ∃ skipped, fs.dev.gcChunk + skipped < fs.dev.param.chunksPerBlock ∧
    (∀ before < skipped, fs.dev.checkChunkBit block (fs.dev.gcChunk + before) = false) ∧
    fs.dev.checkChunkBit block (fs.dev.gcChunk + skipped) = true ∧
    ((fs.mapDev fun dev => { dev with gcChunk := dev.gcChunk + skipped }).gcPage T block).1 = true

theorem low_gcCopyLoop (balanced : fs.Balanced) (ranked : fs.dev.ages.Ranked) {block : Nat}
    (mem : block ∈ fs.dev.blocks) (copies_first : fs.CopiesFirst T block)
    {left copies : Nat} (reach : fs.dev.param.chunksPerBlock ≤ fs.dev.gcChunk + left)
    (some_copies : copies ≠ 0)
    (state : (gcCopyLoop T block left copies fs).2.dev.blockState block = .collecting) :
    (gcCopyLoop T block left copies fs).2.dev.ages.Low block := by
  induction left generalizing fs with
  | zero =>
    obtain ⟨skipped, inside, -⟩ := copies_first
    omega
  | succ left ih =>
    have was : fs.dev.blockState block = .collecting :=
      ((shifts_gcCopyLoop T balanced ranked mem (left + 1) copies).collecting ranked state).1
    obtain ⟨skipped, inside, skips, used, copied⟩ := copies_first
    revert state
    simp only [Fs.gcCopyLoop]
    rw [if_neg (by simp [was, some_copies]; omega)]
    obtain ⟨stepped, -⟩ := balanced.gcPage T mem was (by omega)
    obtain ⟨shifts, low⟩ := shifts_gcPage T balanced ranked mem was (by omega)
    have ranked' := shifts.ranked ranked
    have mem' : block ∈ (fs.gcPage T block).2.dev.blocks :=
      (Finset.ext_iff.mp shifts.blocks_eq block).mpr mem
    cases skipped with
    | zero =>
      have rest := shifts_gcCopyLoop T stepped ranked' mem' left
        (if fs.dev.checkChunkBit block fs.dev.gcChunk then copies - 1 else copies)
      have copied' : (fs.gcPage T block).1 = true := copied
      rw [if_pos copied']
      intro state
      obtain ⟨state', -, kept, -⟩ := rest.collecting ranked' state
      exact kept (low used copied' state')
    | succ skipped =>
      have unused : ¬fs.dev.checkChunkBit block fs.dev.gcChunk = true := by
        simpa using skips 0 (Nat.succ_pos _)
      have eq : fs.gcPage T block =
          (true, fs.mapDev fun dev => { dev with gcChunk := dev.gcChunk + 1 }) := by
        simp only [Fs.gcPage, if_neg unused]
      rw [eq] at stepped ranked' mem' ⊢
      rw [if_pos rfl, if_neg unused]
      refine ih stepped ranked' mem' ⟨skipped, ?_, ?_, ?_, ?_⟩ ?_
      · change fs.dev.gcChunk + 1 + skipped < fs.dev.param.chunksPerBlock
        omega
      · intro before before_lt
        have next := skips (before + 1) (by omega)
        rwa [← add_assoc, add_right_comm] at next
      · rwa [← add_assoc, add_right_comm] at used
      · have same : ((fs.mapDev fun dev => { dev with gcChunk := dev.gcChunk + 1 }).mapDev
            fun dev => { dev with gcChunk := dev.gcChunk + skipped }) =
            fs.mapDev fun dev => { dev with gcChunk := dev.gcChunk + (skipped + 1) } := by
          simp only [Fs.mapDev, add_assoc, add_comm 1]
        rw [same]
        exact copied
      · change fs.dev.param.chunksPerBlock ≤ fs.dev.gcChunk + 1 + left
        omega

/-! ## Collecting a block -/

/-- The collector has started on a block. -/
structure Started (dev : Dev Flash) (block : Nat) : Prop where
  ranked : dev.ages.Ranked
  mem : block ∈ dev.blocks
  collecting : dev.blockState block = .collecting
  pointed : dev.gcBlock = block
  others : ∀ other ∈ dev.blocks, other ≠ block → dev.blockState other ≠ .collecting

/-- The pages of the summary are dropped, and the block is not known to be dirty by that. -/
theorem started_summaryGc {dev : Dev Flash} {block : Nat} (started : Started dev block) :
    Started (dev.summaryGc block) block ∧
      (dev.ages.Low block → (dev.summaryGc block).ages.Low block) := by
  have dropped (pages : List Nat) (after : Dev Flash) (started : Started after block)
      (low : dev.ages.Low block → after.ages.Low block) :
      Started (pages.foldl (dropSummaryPage block) after) block ∧
        (dev.ages.Low block → (pages.foldl (dropSummaryPage block) after).ages.Low block) := by
    induction pages generalizing after with
    | nil => exact ⟨started, low⟩
    | cons page pages ih =>
      suffices next : Started (after.dropSummaryPage block page) block ∧
          (after.ages.Low block → (after.dropSummaryPage block page).ages.Low block) from
        ih _ next.1 (next.2 ∘ low)
      simp only [dropSummaryPage]
      split
      case isFalse => exact ⟨started, id⟩
      case isTrue =>
        obtain ⟨ranked, mem, collecting, pointed, others⟩ := started
        have counted : ((after.clearChunkBit block page).addPagesInUse block (-1)).ages =
            after.ages.put block { after.ages.age block with
              discarded := (((after.clearChunkBit block page).addPagesInUse block (-1)).ages.age
                block).discarded } := by
          rw [addPagesInUse, ages_modifyBlockInfo, put_age, if_pos rfl]
          rfl
        have state : ((after.clearChunkBit block page).addPagesInUse block (-1)).blockState block =
            .collecting := by
          have same := congrArg (fun ages : BlockAges => (ages.age block).state) counted
          exact same.trans (by simp; exact collecting)
        refine ⟨⟨?_, mem, state, pointed, ?_⟩, ?_⟩
        · exact counted ▸ ranked.recount collecting _
        · intro other other_mem differs
          have same := congrArg (fun ages : BlockAges => (ages.age other).state) counted
          have untouched := others other other_mem differs
          rw [put_age, if_neg differs] at same
          exact fun now => untouched (same.symm.trans now)
        · intro low
          change ((after.clearChunkBit block page).addPagesInUse block (-1)).ages.Low block
          rw [counted]
          simpa [BlockAges.Low, put] using low
  simp only [summaryGc]
  split
  · exact ⟨started, id⟩
  · exact dropped _ dev started id

/-- The collection of a full block starts.  The block is known to be dirty if pages of it have been
discarded, unless the pages of a summary are dropped. -/
theorem started_gcStart {dev : Dev Flash} (ranked : dev.ages.Ranked) {block : Nat}
    (mem : block ∈ dev.blocks) (full : dev.blockState block = .full) (pointed : dev.gcBlock = block)
    (rested : ∀ other ∈ dev.blocks, dev.blockState other ≠ .collecting) :
    Started (gcStart dev block) block ∧
      ((dev.blockInfo block).hasSummary = false ∨ dev.ages.Low block →
        (gcStart dev block).ages.Noted block) := by
  let cleared : Dev Flash :=
    { (dev.setBlockState block .collecting).modifyBlockInfo block fun info =>
        { info with hasShrinkHdr := false } with gcDisable := true }
  have eq : gcStart dev block = cleared.summaryGc block := by
    simp only [gcStart, if_pos full]
    rfl
  have collected : (dev.setBlockState block .collecting).ages =
      dev.ages.put block { dev.ages.age block with state := .collecting } := by
    rw [setBlockState, ages_modifyBlockInfo]
    rfl
  have cleared_ages : cleared.ages = (dev.setBlockState block .collecting).ages.put block
      { (dev.setBlockState block .collecting).ages.age block with hasShrinkHdr := false } := by
    change ((dev.setBlockState block .collecting).modifyBlockInfo block fun info =>
      { info with hasShrinkHdr := false }).ages = _
    rw [ages_modifyBlockInfo]
    rfl
  have age : cleared.ages.age block =
      { dev.ages.age block with state := .collecting, hasShrinkHdr := false } := by
    rw [cleared_ages, collected]
    simp
  have cleared_ranked : cleared.ages.Ranked := by
    rw [cleared_ages]
    exact (collected ▸ ranked.collect full :
      (dev.setBlockState block .collecting).ages.Ranked).shift
      (.unmark _ block)
  have low : dev.ages.Low block → cleared.ages.Low block := by
    intro low known
    rw [age]
    exact low known
  have others (other : Nat) (other_mem : other ∈ cleared.blocks) (differs : other ≠ block) :
      cleared.blockState other ≠ .collecting := by
    have same : cleared.ages.age other = dev.ages.age other := by
      rw [cleared_ages, collected]
      simp [differs]
    exact fun now => rested other other_mem ((congrArg BlockAge.state same).symm.trans now)
  have started : Started cleared block :=
    ⟨cleared_ranked, mem, congrArg BlockAge.state age, pointed, others⟩
  obtain ⟨started', kept⟩ := started_summaryGc started
  rw [eq]
  refine ⟨started', fun known discarded => ?_⟩
  rcases known with plain | known
  · have same : cleared.summaryGc block = cleared := by
      have no_summary : (cleared.blockInfo block).hasSummary = false := by
        simp [cleared, blockInfo_modifyBlockInfo, setBlockState, plain]
      simp only [summaryGc, no_summary, Bool.false_eq_true, not_false_eq_true, if_true]
    rw [same] at discarded ⊢
    rw [age] at discarded
    exact low (ranked.low block mem full discarded)
  · exact kept (low known)

/-- Between operations the blocks are ranked, and none is being collected. -/
structure Settled (fs : Fs Flash) : Prop where
  balanced : fs.Balanced
  ranked : fs.dev.ages.Ranked
  rested : ∀ block ∈ fs.dev.blocks, fs.dev.blockState block ≠ .collecting

/-- A change of the blocks by shifts. -/
theorem Settled.of_shifts {after : Fs Flash} (settled : fs.Settled) (balanced : after.Balanced)
    (shifts : Shifts fs.dev.ages after.dev.ages) : after.Settled where
  balanced := balanced
  ranked := shifts.ranked settled.ranked
  rested block mem collecting :=
    settled.rested block ((Finset.ext_iff.mp shifts.blocks_eq block).mp mem)
      (shifts.collecting settled.ranked collecting).1

/-- The collection of a block ends.  It is full again if it has not been collected to its end. -/
theorem ranked_gcFinish {start : Dev Flash} {block : Nat} (started : Started start block)
    (balanced : fs.Balanced) (shifts : Shifts start.ages fs.dev.ages)
    (noted : fs.dev.blockState block = .collecting → fs.dev.ages.Noted block) :
    (fs.gcFinish T block).dev.ages.Ranked ∧
      ∀ other ∈ (fs.gcFinish T block).dev.blocks,
        (fs.gcFinish T block).dev.blockState other ≠ .collecting := by
  have ranked := shifts.ranked started.ranked
  have others (other : Nat) (mem : other ∈ fs.dev.blocks) (differs : other ≠ block) :
      fs.dev.blockState other ≠ .collecting := fun collecting =>
    started.others other ((Finset.ext_iff.mp shifts.blocks_eq other).mp mem) differs
      (shifts.collecting started.ranked collecting).1
  simp only [Fs.gcFinish]
  split
  case isTrue collecting =>
    have pointed := (shifts.collecting started.ranked collecting).2.2.2.1 started.pointed
    have restored : (fs.dev.setBlockState block .full).ages =
        fs.dev.ages.put block { fs.dev.ages.age block with state := .full } := by
      rw [setBlockState, ages_modifyBlockInfo]
      rfl
    constructor
    · change (fs.dev.setBlockState block .full).ages.Ranked
      rw [restored]
      exact ranked.restore collecting pointed (noted collecting)
    · intro other mem
      change (fs.dev.setBlockState block .full).blockState other ≠ .collecting
      rw [blockState_setBlockState]
      split
      case isTrue => simp
      case isFalse differs => exact others other mem differs
  case isFalse ended =>
    have no_files : fs.dev.gcCleanupList = [] := balanced.books.gcCleanupList
    rw [no_files, List.foldl_nil]
    have idle : fs.dev.gcBlock = 0 :=
      (shifts.pointed started.ranked started.collecting started.pointed).resolve_left
        fun still => ended still.1
    constructor
    · have same : ({ fs.dev with gcBlock := 0, gcChunk := 0, gcCleanupList := [] } :
      Dev Flash).ages =
          { fs.dev.ages with gcBlock := 0 } := rfl
      change ({ fs.dev with gcBlock := 0, gcChunk := 0, gcCleanupList := [] } :
        Dev Flash).ages.Ranked
      rw [same]
      exact ranked.point idle fun nonzero => absurd rfl nonzero
    · intro other mem
      by_cases differs : other = block
      · exact differs ▸ ended
      · exact others other mem differs

variable (fs) in
/-- The collection of the block that has been chosen cannot leave a block behind that has lost pages
and is not known to be dirty: the block has no summary, is known to be dirty already, has no page in
use, or its first page in use can be copied. -/
def CollectsNoted : Prop :=
  0 < fs.dev.gcBlock →
    (fs.dev.blockInfo fs.dev.gcBlock).hasSummary = false ∨ fs.dev.ages.Low fs.dev.gcBlock ∨
      (gcStart fs.dev fs.dev.gcBlock).stillSomeChunks fs.dev.gcBlock = false ∨
        CopiesFirst T (fs.mapDev fun dev => gcStart dev fs.dev.gcBlock) fs.dev.gcBlock

/-- Collecting the block that has been chosen, as a whole or in part. -/
theorem Settled.gcBlock (settled : fs.Settled) (chosen : 0 < fs.dev.gcBlock)
    (collects : fs.CollectsNoted T) (wholeBlock : Bool) :
    (fs.gcBlock T fs.dev.gcBlock wholeBlock).2.Settled := by
  obtain ⟨balanced, ranked, rested⟩ := settled
  have collects := collects chosen
  have target : fs.dev.gcBlock ∈ fs.dev.blocks ∧ Sheet.Held (fs.dev.blockState fs.dev.gcBlock) :=
    ranked.gcBlock chosen.ne'
  generalize pointed : fs.dev.gcBlock = block at *
  obtain ⟨mem, held⟩ := target
  have full : fs.dev.blockState block = .full := held.resolve_right (rested _ mem)
  obtain ⟨started, known⟩ := started_gcStart ranked mem full pointed rested
  obtain ⟨started_books, -, -⟩ := gcStart_books balanced.books mem held
  have started_balanced : (fs.mapDev fun dev => gcStart dev block).Balanced :=
    balanced.mapDev started_books
  have collected := balanced.gcBlock T mem held wholeBlock
  have not_checkpoint : ¬fs.dev.blockState block = .checkpoint := by simp [full]
  revert collected
  simp only [Fs.gcBlock, not_checkpoint, decide_false, Bool.false_eq_true, false_or]
  split
  case isTrue unused =>
    intro collected
    obtain ⟨dirty, -⟩ := started_balanced.dropUnused T started.mem (.inr started.collecting) unused
    obtain ⟨shifts, ended⟩ := shifts_blockBecameDirty T started.ranked started.mem
      (.inr started.collecting)
    obtain ⟨ranked', rested'⟩ := ranked_gcFinish T started dirty shifts fun still =>
      absurd still ended
    exact ⟨collected, ranked', rested'⟩
  case isFalse some_used =>
    intro collected
    let pages := (fs.mapDev fun dev => gcStart dev block).dev.param.chunksPerBlock
    have some_copies : (if wholeBlock then pages else 5) ≠ 0 := by
      have pages_pos : 0 < pages := started.ranked.pages_pos
      split
      · exact pages_pos.ne'
      · decide
    have shifts := shifts_gcCopyLoop T started_balanced started.ranked started.mem pages
      (if wholeBlock then pages else 5)
    obtain ⟨copied, -⟩ := started_balanced.gcCopyLoop T started.mem pages
      (if wholeBlock then pages else 5)
    obtain ⟨ranked', rested'⟩ := ranked_gcFinish T started copied shifts fun still => by
      rcases collects with plain | low | unused | copies_first
      · exact shifts.noted started.ranked (known (.inl plain)) still
      · exact shifts.noted started.ranked (known (.inr low)) still
      · have none_used : (fs.mapDev fun dev => gcStart dev block).dev.stillSomeChunks block =
            false := unused
        exact absurd (by simp [none_used]) some_used
      · exact fun _ => low_gcCopyLoop T started_balanced started.ranked started.mem copies_first
          (Nat.le_add_left _ _) some_copies still
    exact ⟨collected, ranked', rested'⟩

/-- While no block is being collected, the collector is pointed at the block that has been chosen.
-/
theorem Settled.point (settled : fs.Settled) (idle : fs.dev.gcBlock = 0) {chosen : Nat × Dev Flash}
    (choice : fs.dev.Choice chosen) (safe : fs.dev.SafeChoice chosen) :
    (fs.mapDev fun _ =>
      { chosen.2 with gcBlock := chosen.1, gcChunk := 0, gcCleanupList := [] }).Settled := by
  have same : ({ chosen.2 with gcBlock := chosen.1, gcChunk := 0, gcCleanupList := [] } :
      Dev Flash).ages = { chosen.2.ages with gcBlock := chosen.1 } := rfl
  obtain ⟨_, _, _, eq⟩ := safe.same
  have blocks : chosen.2.ages.blocks = fs.dev.ages.blocks := by
    rw [eq]
    rfl
  have age : chosen.2.ages.age = fs.dev.ages.age := by rw [eq]
  refine ⟨settled.balanced.point choice, ?_, fun block mem collecting => ?_⟩
  · change ({ chosen.2 with gcBlock := chosen.1, gcChunk := 0, gcCleanupList := [] } :
      Dev Flash).ages.Ranked
    rw [same]
    exact safe.ranked.point (safe.toAims.gcBlock.trans idle) (safe.toAims.target.mpr safe.target)
  · refine settled.rested block ((Finset.ext_iff.mp blocks block).mp mem) ?_
    exact (congrArg (fun age => (age block).state) age).symm.trans collecting

/-- A block is chosen for collection if none is being collected. -/
theorem Settled.chooseGcBlock (settled : fs.Settled) (aggressive background : Bool) :
    (fs.chooseGcBlock aggressive background).Settled := by
  have refreshed : (fs.chooseRefreshBlock aggressive).Settled := by
    simp only [Fs.chooseRefreshBlock]
    split
    case isTrue idle =>
      exact settled.point (by omega) (findRefreshBlock_choice settled.balanced.books)
        (safe_findRefreshBlock settled.ranked)
    case isFalse => exact settled
  simp only [Fs.chooseGcBlock]
  split
  case isTrue idle =>
    exact refreshed.point (by omega)
      (findGcBlock_choice refreshed.balanced.books aggressive background)
      (safe_findGcBlock refreshed.ranked (by omega) aggressive background)
  case isFalse => exact refreshed

end Fs

namespace Dev

open BlockAges

variable {Flash : Type} (T : Tagger Flash) {start dev : Dev Flash}

/-! ## Saving a checkpoint -/

/-- A flush of the stream takes an erased block, or none. -/
theorem shifts_flush (fits : dev.FlushFits) : Shifts dev.ages
    (dev.checkptFlushBuffer T).2.ages := by
  have entered : dev.checkptEnterBlock.ages = dev.ages := by
    simp only [checkptEnterBlock]
    split
    · rcases dev.checkptFindErasedBlock_cases with eq | ⟨_, _, _, _, _, eq⟩
      · rw [eq]
        rfl
      · rw [eq]
        rfl
    · rfl
  have taken (inside : ¬dev.checkptEnterBlock.checkptCurBlock < 0) :
      Shifts dev.ages dev.checkptEnterBlock.checkptTakeBlock.ages := by
    simp only [checkptTakeBlock]
    split
    case isFalse => exact entered ▸ .refl
    case isTrue first =>
      rcases fits with outside | later | ⟨block, -, cur, empty⟩
      · exact absurd outside inside
      · exact absurd first later
      · rw [cur, Int.toNat_natCast]
        have same : ({ dev.checkptEnterBlock.setBlockState block .checkpoint with
            blocksInCheckpt := dev.checkptEnterBlock.blocksInCheckpt + 1 } : Dev Flash).ages =
              (dev.checkptEnterBlock.setBlockState block .checkpoint).ages := rfl
        rw [same, setBlockState, ages_modifyBlockInfo, entered]
        refine .single (.idle dev.ages block _ ?_ ?_)
        · change ¬(dev.blockState block).Busy
          simp [empty, BlockState.Busy, Sheet.Held]
        · simp [BlockInfo.age, BlockState.Busy, Sheet.Held]
  rcases dev.checkptFlushBuffer_cases T with ⟨-, eq⟩ | ⟨inside, _, _, _, eq⟩
  · rw [eq]
    exact entered ▸ .refl
  · rw [eq]
    exact taken (by omega)

/-- The stream is being written, by shifts of blocks since the start. -/
theorem shiftsRule (start : Dev Flash) :
    WriterInvariant T fun dev : Dev Flash => dev.Writing ∧ Shifts start.ages dev.ages where
  putByte dev byte holds := ⟨(Writing.rule T).putByte dev byte holds.1, holds.2⟩
  flush dev holds :=
    ⟨(Writing.rule T).flush dev holds.1, holds.2.trans (shifts_flush T holds.1.enterBlock.1)⟩

/-- A save takes no block but erased ones and those of an older checkpoint. -/
theorem shifts_checkpointSave (balanced : dev.books.Balanced) (fits : dev.SaveBalances T)
    (buckets : List (List (List (List UInt8)))) :
    Shifts dev.ages (dev.checkpointSave T buckets).ages := by
  simp only [checkpointSave]
  split
  case isTrue => exact .refl
  case isFalse stale =>
    have prepared := shifts_checkptInvalidate T dev
    obtain ⟨invalidated, -⟩ := checkptInvalidate_balanced T balanced
    have of_opened (opened : (dev.checkptInvalidate T).checkptRequired = true ∧
        (dev.checkptInvalidate T).checkptSpaceOk = true) :
        Shifts dev.ages ((dev.checkptInvalidate T).wrCheckptData T buckets).ages := by
      obtain ⟨success, writing⟩ := open_writing T invalidated opened.2
      have opens : Shifts dev.ages ((dev.checkptInvalidate T).checkptOpen T true).2.ages := by
        simp only [checkptOpen, if_true]
        split
        · exact prepared
        · exact prepared.trans (shifts_checkptErase T (({ dev.checkptInvalidate T with
            checkptOpenWrite := true } : Dev Flash).checkptRewind.clearCheckptBuffer
              |>.checkptInitChunkHdr))
      obtain ⟨written, shifts⟩ := (shiftsRule T dev).wrParts buckets ⟨writing, opens⟩
      simp only [wrCheckptData, opened.1, if_true, andThen, success]
      have finished : Shifts dev.ages
          (((dev.checkptInvalidate T).checkptOpen T true).2.wrCheckptParts T buckets
            |>.2.checkptFinish T).ages := by
        simp only [checkptFinish, written.openWrite, if_true]
        split
        · exact shifts.trans (shifts_flush T written.enterBlock.1)
        · exact shifts
      exact finished
    rcases fits with saved | opened | refusal
    · exact absurd saved stale
    · exact of_opened opened
    · rcases checkptOpening_cases T (dev.checkptInvalidate T) with opened | refused
      · exact of_opened opened
      · simp only [wrCheckptData, refused, andThen, Bool.false_eq_true, if_false]
        have finished : Shifts dev.ages ((dev.refusedSave T).checkptFinish T).ages := by
          simp only [checkptFinish]
          split
          case isTrue writing =>
            split
            case isTrue unflushed =>
              rcases refusal with reading | flushed | fits
              · rw [reading] at writing
                cases writing
              · exact absurd flushed unflushed
              · exact prepared.trans (shifts_flush T fits)
            case isFalse => exact prepared
          case isFalse =>
            split
            · have none : (dev.refusedSave T).blocksInCheckpt = 0 := checkptInvalidate_none T dev
              rw [none, List.take_zero, List.takeWhile_nil, List.foldl_nil]
              exact prepared
            · exact prepared
        exact finished

/-! ## Header pages -/

/-- Write an object header, delete the page of the header it replaces, and mark the block of a
header that shrinks a file. -/
def updateOh (prevChunkId : Int) (data : Buf) (tags : ExtTags) (isShrink : Bool) (dev : Dev Flash) :
    Dev Flash :=
  let written := dev.writeNewChunk T data tags (decide (0 < prevChunkId))
  match written.1 with
  | none => written.2
  | some newChunkId =>
    let dev :=
      if 0 < prevChunkId then written.2.chunkDel T prevChunkId true else written.2
    if isShrink then
      dev.modifyBlockInfo (newChunkId / dev.param.chunksPerBlock) fun info =>
        { info with hasShrinkHdr := true }
    else dev

/-- Deleting a page of the block keeps the order: the block is not full, is the one that is being
collected, or is no older than a remembered block with a shrink header. -/
def KeepsOrder (dev : Dev Flash) (block : Nat) : Prop :=
  dev.blockState block = .full → block ≠ dev.gcBlock → dev.ages.Clear block

theorem mayDelete_of_inUse (balanced : dev.books.Balanced) {block page : Nat}
    (in_use : dev.InUse block page) (keeps : dev.KeepsOrder block) : dev.MayDelete block := by
  refine ⟨in_use.block_mem, ?_, keeps⟩
  by_contra idle
  rw [BlockState.Busy, not_or] at idle
  have unused : dev.chunkBits block page = false :=
    (balanced.sheet block in_use.block_mem).unmarked idle.1 idle.2 page in_use.page_lt
  exact absurd in_use.used (by simp [unused])

/-- What a header write asks for: the page that it deletes is in use, and keeps the order. -/
def UpdateFits (prevChunkId : Int) (data : Buf) (tags : ExtTags) (dev : Dev Flash) : Prop :=
  let written := dev.writeNewChunk T data tags (decide (0 < prevChunkId))
  0 < prevChunkId → written.1.isSome = true →
    written.2.InUse (prevChunkId.toNat / dev.param.chunksPerBlock)
        (prevChunkId.toNat % dev.param.chunksPerBlock) ∧
      written.2.KeepsOrder (prevChunkId.toNat / dev.param.chunksPerBlock)

theorem shifts_updateOh (balanced : dev.books.Balanced) (ranked : dev.ages.Ranked)
    (prevChunkId : Int) (data : Buf) (tags : ExtTags) (isShrink : Bool)
    (fits : dev.UpdateFits T prevChunkId data tags) :
    (dev.updateOh T prevChunkId data tags isShrink).books.Balanced ∧
      Shifts dev.ages (dev.updateOh T prevChunkId data tags isShrink).ages := by
  obtain ⟨books, moves, -⟩ := writeNewChunk_books T balanced data tags (decide (0 < prevChunkId))
  obtain ⟨write, placed⟩ := shifts_writeNewChunk T ranked data tags (decide (0 < prevChunkId))
  have pages : (dev.writeNewChunk T data tags (decide (0 < prevChunkId))).2.param.chunksPerBlock =
      dev.param.chunksPerBlock := moves.chunksPerBlock
  simp only [UpdateFits] at fits
  simp only [updateOh]
  generalize dev.writeNewChunk T data tags (decide (0 < prevChunkId)) = written at *
  split
  case h_1 => exact ⟨books, write⟩
  case h_2 newChunkId found =>
    have ranked' := write.ranked ranked
    have deleted : (if 0 < prevChunkId then written.2.chunkDel T prevChunkId true
          else written.2).books.Balanced ∧
        Shifts written.2.ages (if 0 < prevChunkId then written.2.chunkDel T prevChunkId true
          else written.2).ages := by
      split
      case isTrue positive =>
        obtain ⟨in_use, keeps⟩ := fits positive (by simp [found])
        rw [← pages] at in_use keeps
        exact ⟨(chunkDel_books T books prevChunkId true fun _ => in_use).1,
          (shifts_chunkDel T ranked' prevChunkId true
            fun _ => mayDelete_of_inUse books in_use keeps).1⟩
      case isFalse => exact ⟨books, .refl⟩
    have apart := (placed newChunkId found).apart
    have mem := (placed newChunkId found).fresh.mem
    generalize (if 0 < prevChunkId then written.2.chunkDel T prevChunkId true else
      written.2) = after
      at *
    obtain ⟨after_books, after_shifts⟩ := deleted
    split
    case isFalse => exact ⟨after_books, write.trans after_shifts⟩
    case isTrue =>
      constructor
      · rw [books_modifyBlockInfo_same after _ (fun info => { info with hasShrinkHdr := true })
          fun _ _ => rfl]
        exact after_books
      · rw [ages_modifyBlockInfo]
        refine (write.trans after_shifts).tail (.mark after.ages _ ?_)
        have after_pages : after.param.chunksPerBlock = dev.param.chunksPerBlock :=
          after_shifts.chunksPerBlock_eq.trans pages
        rw [after_pages]
        rcases after_shifts.gcDirtiest with same | forgotten
        · exact same.trans_ne apart
        · exact forgotten.trans_ne (ranked'.nonzero mem).symm

end Dev

/-! ## Runs -/

/-- An operation that matters for the order of collection.  A turn of the collector is a choice and
the collection of the chosen block. -/
inductive CollectorStep (Flash : Type)
  | op (step : FsStep Flash)
  | updateOh (prevChunkId : Int) (data : Buf) (tags : ExtTags) (isShrink : Bool)
  | choose (aggressive background : Bool)
  | collect (wholeBlock : Bool)

namespace FsStep

variable {Flash : Type}

/-- What the order of collection asks of an operation: a page that is deleted keeps the order, and
memory that is not modelled holds nothing that a choice reads. -/
def KeepsOrder : FsStep Flash → Fs Flash → Prop
  | chunkDel chunk _, fs =>
    0 < chunk → fs.dev.KeepsOrder (chunk.toNat / fs.dev.param.chunksPerBlock)
  | putChunkInFile _ _ nandChunk, fs =>
    0 < nandChunk → fs.dev.KeepsOrder (nandChunk / fs.dev.param.chunksPerBlock)
  | memory change, fs => (change fs).dev.ages = fs.dev.ages
  | gcBlock _ _, _ => False
  | checkGc _, _ => False
  | _, _ => True

end FsStep

namespace Dev

variable {Flash : Type} (dev : Dev Flash)

/-- Pages of the block have been discarded. -/
def HasDiscarded (block : Nat) : Prop :=
  u32OfInt ((dev.blockInfo block).pagesInUse - (dev.blockInfo block).softDelPages) <
    dev.param.chunksPerBlock

instance (block : Nat) : Decidable (dev.HasDiscarded block) := inferInstanceAs (Decidable (_ < _))

/-- If the block holds a shrink header, then no full block with a smaller sequence number has
discarded pages. -/
def SafeToCollect (block : Nat) : Prop :=
  (dev.blockInfo block).hasShrinkHdr = true → ∀ older ∈ dev.blocks, dev.blockState older = .full →
    (dev.blockInfo older).seqNumber < (dev.blockInfo block).seqNumber → ¬dev.HasDiscarded older

variable {dev}

theorem safeToCollect_iff {block : Nat} : dev.SafeToCollect block ↔ dev.ages.Safe block := by
  constructor
  · intro safe shrink older mem full discarded
    by_contra lower
    exact safe shrink older mem full (Nat.lt_of_not_le lower) (of_decide_eq_true discarded)
  · intro safe shrink older mem full lower discarded
    exact absurd (safe shrink older mem full (decide_eq_true discarded)) (Nat.not_le_of_lt lower)

end Dev

namespace Fs

variable {Flash : Type} (fs : Fs Flash)

/-- The device has just been mounted: the books are balanced, nothing is remembered for collection,
no block is being collected, and no block is younger than the current sequence number. -/
structure FreshlyMounted : Prop where
  balanced : fs.Balanced
  gcBlock : fs.dev.gcBlock = 0
  gcDirtiest : fs.dev.gcDirtiest = 0
  oldestDirtySeq : fs.dev.oldestDirtySeq = 0
  oldestDirtyBlock : fs.dev.oldestDirtyBlock = 0
  rested : ∀ block ∈ fs.dev.blocks, fs.dev.blockState block ≠ .collecting
  seq_le : ∀ block ∈ fs.dev.blocks, fs.dev.blockState block = .full →
    (fs.dev.blockInfo block).seqNumber ≤ fs.dev.seqNumber

variable {fs}

theorem FreshlyMounted.settled (mounted : fs.FreshlyMounted) : fs.Settled where
  balanced := mounted.balanced
  rested := mounted.rested
  ranked :=
    { isYaffs2 := mounted.balanced.books.fits.1
      pages_pos := mounted.balanced.books.pages_pos
      first_pos := mounted.balanced.books.first_pos
      first_le := mounted.balanced.books.first_le
      page_lt := mounted.balanced.books.page_lt
      allocating := mounted.balanced.books.allocating
      allocBlock := mounted.balanced.books.allocBlock
      seq_le := fun block mem held =>
        mounted.seq_le block mem (held.resolve_right (mounted.rested block mem))
      gcBlock := fun remembered => absurd mounted.gcBlock remembered
      gcDirtiest := fun remembered => absurd mounted.gcDirtiest remembered
      oldest := fun known => absurd mounted.oldestDirtyBlock known
      oldest_seq := fun known => absurd mounted.oldestDirtyBlock known
      oldest_le := mounted.oldestDirtySeq.trans_le (Nat.zero_le _)
      low := fun _ _ _ _ known => absurd mounted.oldestDirtySeq known
      clear := fun _ _ _ _ _ remembered => absurd mounted.gcDirtiest remembered }

end Fs

namespace CollectorStep

open Dev BlockAges Execution

variable {Flash : Type} (T : Tagger Flash)

/-- Carry out one operation. -/
def exec : CollectorStep Flash → Fs Flash → Fs Flash
  | op step, fs => step.exec T fs
  | updateOh prevChunkId data tags isShrink, fs =>
    fs.mapDev fun dev => dev.updateOh T prevChunkId data tags isShrink
  | choose aggressive background, fs => fs.chooseGcBlock aggressive background
  | collect wholeBlock, fs =>
    if 0 < fs.dev.gcBlock then (fs.gcBlock T fs.dev.gcBlock wholeBlock).2 else fs

/-- No page is deleted out of order, and no collection leaves a dirty block behind unnoticed. -/
def Orderly : CollectorStep Flash → Fs Flash → Prop
  | op step, fs => step.Accountable T fs ∧ step.KeepsOrder fs
  | updateOh prevChunkId data tags _, fs => fs.dev.UpdateFits T prevChunkId data tags
  | choose _ _, _ => True
  | collect _, fs => fs.CollectsNoted T

variable {T}

/-- Every operation keeps the blocks ranked. -/
theorem exec_settled (step : CollectorStep Flash) (fs : Fs Flash) (orderly : step.Orderly T fs)
    (settled : fs.Settled) : (step.exec T fs).Settled := by
  have ranked := settled.ranked
  have books := settled.balanced.books
  cases step with
  | op step =>
    obtain ⟨accountable, keeps⟩ := orderly
    refine settled.of_shifts (step.exec_balanced fs accountable settled.balanced) ?_
    cases step with
    | writeNewChunk data tags useReserver => exact
      (shifts_writeNewChunk T ranked data tags useReserver).1
    | chunkDel chunk markFlash =>
      exact (shifts_chunkDel T ranked chunk markFlash fun positive =>
        mayDelete_of_inUse books (accountable positive) (keeps positive)).1
    | blockBecameDirty block =>
      exact (shifts_blockBecameDirty T ranked accountable.1 accountable.2.1).1
    | skipRestOfBlock => exact shifts_skipRestOfBlock fs.dev
    | readChunk chunk =>
      have same : (fs.dev.rdChunkTagsNand T chunk).2.ages = fs.dev.ages :=
        fs.dev.ages_rdChunkTagsNand T chunk
      exact same ▸ .refl
    | putChunkInFile number inodeChunk nandChunk =>
      exact Fs.shifts_putChunkInFile T ranked number inodeChunk fun positive =>
        mayDelete_of_inUse books (accountable positive) (keeps positive)
    | gcBlock => exact keeps.elim
    | checkGc => exact keeps.elim
    | checkptInvalidate => exact shifts_checkptInvalidate T fs.dev
    | checkpointSave buckets => exact shifts_checkpointSave T books accountable buckets
    | memory change => exact Eq.subst keeps.symm .refl
  | updateOh prevChunkId data tags isShrink =>
    obtain ⟨books', shifts⟩ := shifts_updateOh T books ranked prevChunkId data tags isShrink orderly
    exact settled.of_shifts (settled.balanced.mapDev books') shifts
  | choose aggressive background => exact settled.chooseGcBlock aggressive background
  | collect wholeBlock =>
    simp only [exec]
    split
    case isTrue chosen => exact settled.gcBlock T chosen orderly wholeBlock
    case isFalse => exact settled

/-- Part of a turn of the collector: a choice, a collection, or a change of counters that neither
the order of collection nor the accounting knows of. -/
def OfCollector : CollectorStep Flash → Prop
  | choose _ _ => True
  | collect _ => True
  | op (.memory change) => ∀ fs : Fs Flash, (change fs).dev.ages = fs.dev.ages ∧
      (change fs).dev.books = fs.dev.books ∧ (change fs).buckets = fs.buckets
  | _ => False

theorem gcMode_memory (fs : Fs Flash) (background : Bool) :
    (fs.gcMode background).2.dev.ages = fs.dev.ages ∧
      (fs.gcMode background).2.dev.books = fs.dev.books ∧
        (fs.gcMode background).2.buckets = fs.buckets := by
  have ages := ages_calcCheckptBlocksRequired fs.dev
  have books := fs.dev.books_calcCheckptBlocksRequired
  simp only [Fs.gcMode]
  split
  · exact ⟨ages, books, rfl⟩
  · split
    · exact ⟨ages, books, rfl⟩
    · split <;> exact ⟨ages, books, rfl⟩

/-- A turn of the collector is a run of its parts. -/
theorem gcTurn_run (fs : Fs Flash) (background : Bool) (turn : Fs.GcTurn) :
    ∃ steps, (∀ step ∈ steps, OfCollector step) ∧
      run (exec T) steps fs = (fs.gcTurn T background turn).2 := by
  let deciding : CollectorStep Flash := op (.memory fun fs => (fs.gcMode background).2)
  have decides : OfCollector deciding := fun fs => gcMode_memory fs background
  simp only [Fs.gcTurn]
  split
  case isTrue =>
    exact ⟨[deciding], by simpa using decides, rfl⟩
  case isFalse =>
    refine ⟨[deciding, op (.memory fun fs => fs.mapDev fun dev => { dev with gcSkip := 5 }),
      choose (decide ((fs.gcMode background).1 = .aggressive)) background,
      collect (decide ((fs.gcMode background).1 = .aggressive))], ?_, ?_⟩
    · intro step mem
      simp only [List.mem_cons, List.not_mem_nil, or_false] at mem
      rcases mem with rfl | rfl | rfl | rfl
      · exact decides
      · exact fun _ => ⟨rfl, rfl, rfl⟩
      · trivial
      · trivial
    · simp only [run_cons, run_nil, exec, FsStep.exec, deciding]
      split <;> rfl

/-- Collecting garbage is a run of choices and collections. -/
theorem checkGc_run (fs : Fs Flash) (background : Bool) :
    ∃ steps, (∀ step ∈ steps, OfCollector step) ∧
      run (exec T) steps fs = (fs.checkGc T background).2 := by
  obtain ⟨first, first_parts, first_run⟩ := gcTurn_run (T := T) fs background {}
  simp only [Fs.checkGc]
  split
  case isTrue => exact ⟨[], fun _ listed => absurd listed List.not_mem_nil, rfl⟩
  case isFalse =>
    split
    case isTrue =>
      obtain ⟨second, second_parts, second_run⟩ := gcTurn_run (T := T) (fs.gcTurn T background {}).2
        background (fs.gcTurn T background {}).1
      refine ⟨first ++ second, ?_, ?_⟩
      · intro step mem
        rcases List.mem_append.mp mem with mem | mem
        · exact first_parts step mem
        · exact second_parts step mem
      · rw [run_append, first_run, second_run]
    case isFalse => exact ⟨first, first_parts, first_run⟩

/-- In every state of a run in which no page is deleted from a full block that is older than a
remembered block with a shrink header, no block is left dirty unnoticed, and no save is refused on a
block that is not erased, the blocks that are chosen are safe, and no full block with discarded
pages is older than the oldest dirty block that is known. -/
theorem safe_choices (steps : List (CollectorStep Flash)) (fs : Fs Flash)
    (mounted : fs.FreshlyMounted)
    (orderly : Guarded (exec T) (Orderly T) steps fs) :
    let dev := (run (exec T) steps fs).dev
    (dev.SafeToCollect dev.findRefreshBlock.1 ∨ dev.findRefreshBlock.1 = 0) ∧
      (dev.gcBlock = 0 → ∀ aggressive background,
        dev.SafeToCollect (dev.findGcBlock aggressive background).1 ∨
          (dev.findGcBlock aggressive background).1 = 0) ∧
      (dev.oldestDirtySeq ≠ 0 → ∀ block ∈ dev.blocks, dev.blockState block = .full →
        dev.HasDiscarded block → dev.oldestDirtySeq ≤ (dev.blockInfo block).seqNumber) := by
  obtain ⟨-, ranked, -⟩ := run_invariant exec_settled orderly mounted.settled
  generalize (run (exec T) steps fs).dev = dev at *
  refine ⟨?_, fun idle aggressive background => ?_, fun known block mem full discarded => ?_⟩
  · by_cases none : dev.findRefreshBlock.1 = 0
    · exact .inr none
    · exact .inl (safeToCollect_iff.mpr ((safe_findRefreshBlock ranked).safe none))
  · by_cases none : (dev.findGcBlock aggressive background).1 = 0
    · exact .inr none
    · exact .inl (safeToCollect_iff.mpr
      ((safe_findGcBlock ranked idle aggressive background).safe none))
  · exact ranked.low block mem full (decide_eq_true discarded) known

/-- A mounted device with two full blocks.  All pages of the first are in use.  The second is
younger, holds a shrink header, and has lost ten of its sixteen pages. -/
def twoFullBlocks : Fs RamFlash where
  dev :=
    { ramDevice with
      param :=
        { ramDevice.param with
          chunksPerBlock := 16
          startBlock := 0
          endBlock := 19
          nReservedBlocks := 2 }
      internalStartBlock := 1
      internalEndBlock := 20
      chunkOffset := 16
      seqNumber := 20
      blockInfo := fun block =>
        if block = 1 then { blockState := .full, seqNumber := 10, pagesInUse := 16 }
        else if block = 2 then
          { blockState := .full, seqNumber := 20, pagesInUse := 6, hasShrinkHdr := true }
        else { blockState := .empty }
      chunkBits := fun block page => decide (block = 1 ∨ block = 2 ∧ page < 6)
      nErasedBlocks := 18
      nFreeChunks := 298 }

theorem twoFullBlocks_sheet (block : Nat) :
    (twoFullBlocks.dev.books.sheet block).Sound twoFullBlocks.dev.books.chunksPerBlock := by
  by_cases first : block = 1
  · subst first
    exact ⟨rfl, by decide +kernel, fun _ idle => absurd (.inl rfl) idle⟩
  · by_cases second : block = 2
    · subst second
      exact ⟨rfl, by decide +kernel, fun _ idle => absurd (.inl rfl) idle⟩
    · have sheet : twoFullBlocks.dev.books.sheet block =
          sheetOf { blockState := .empty } fun _ => false := by
        simp [twoFullBlocks, books, first, second]
      rw [sheet]
      exact ⟨rfl, (Sheet.marked_eq_zero_iff.mpr fun _ _ => rfl).symm, fun _ _ _ _ => rfl⟩

theorem twoFullBlocks_balanced : twoFullBlocks.dev.books.Balanced where
  pages_pos := by decide
  pages_le := by decide
  fits := ⟨rfl, nofun⟩
  first_pos := by decide
  first_le := by decide
  free_eq := by decide +kernel
  erased_eq := by decide +kernel
  checkpt_eq := by decide +kernel
  sheet block _ := twoFullBlocks_sheet block
  allocating := by decide +kernel
  allocBlock := nofun
  gcBlock := target_zero _
  gcDirtiest := target_zero _
  oldest := target_zero _
  oldest_seq nonzero := absurd rfl nonzero
  oldest_le := Nat.zero_le _
  gcCleanupList := rfl
  page_lt := nofun
  clear := nofun

theorem twoFullBlocks_mounted : twoFullBlocks.FreshlyMounted where
  balanced := ⟨twoFullBlocks_balanced, fun _ _ => nofun⟩
  gcBlock := rfl
  gcDirtiest := rfl
  oldestDirtySeq := rfl
  oldestDirtyBlock := rfl
  rested := by decide +kernel
  seq_le := by decide +kernel

/-- When the page is deleted first, the younger block is not remembered. -/
theorem safe_choices_after_delete :
    let dev := (run (exec (ramTagger 16)) [op (.chunkDel 16 true), choose false true]
      twoFullBlocks).dev
    dev.SafeToCollect (dev.findGcBlock true false).1 ∨ (dev.findGcBlock true false).1 = 0 :=
  (safe_choices [op (.chunkDel 16 true), choose false true] twoFullBlocks twoFullBlocks_mounted
    ⟨⟨fun _ => ⟨by decide +kernel, by decide +kernel, by decide +kernel⟩,
      fun _ _ _ remembered => absurd rfl remembered⟩, trivial, trivial⟩).2.1
        (by decide +kernel) true false

/-- The younger block is remembered, but not chosen yet.  Then a page of the older one is deleted,
and the next choice falls on the younger one. -/
theorem remembered_block_overtaken :
    let found := exec (ramTagger 16) (choose false true) twoFullBlocks
    let deleted := exec (ramTagger 16) (op (.chunkDel 16 true)) found
    twoFullBlocks.FreshlyMounted ∧ found.dev.gcBlock = 0 ∧
      (FsStep.chunkDel 16 true).Accountable (ramTagger 16) found ∧ deleted.dev.gcBlock = 0 ∧
      (deleted.dev.findGcBlock false true).1 = 2 ∧ ¬deleted.dev.SafeToCollect 2 := by
  refine ⟨twoFullBlocks_mounted, by decide +kernel, ?_, by decide +kernel, by decide +kernel, ?_⟩
  · exact fun _ => ⟨by decide +kernel, by decide +kernel, by decide +kernel⟩
  · exact fun safe => safe (by decide +kernel) 1 (by decide +kernel) (by decide +kernel)
      (by decide +kernel) (by decide +kernel)

end CollectorStep

end Yaffs
