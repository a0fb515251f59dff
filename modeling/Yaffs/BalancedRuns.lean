import Yaffs.Accounting
import Yaffs.Scan

/-!
# Balanced runs

Choosing a block for collection only moves what the books remember, collecting it keeps them
balanced, and so does a run of any operations.  The one exception is a save that is refused while the
cursor of the stream is at the first page of a block that is not erased.
-/

namespace Yaffs

namespace Dev

variable {Flash : Type} {T : Tagger Flash} {dev : Dev Flash}

/-! ## What is remembered for collection -/

/-- Only what is remembered for collection has changed, and it is right. -/
structure Retargeted (dev after : Dev Flash) : Prop where
  balanced : after.books.Balanced
  same : ∃ gcBlock gcDirtiest oldestDirtySeq oldestDirtyBlock,
    after.books = { dev.books with gcBlock, gcDirtiest, oldestDirtySeq, oldestDirtyBlock }

namespace Retargeted

variable {first second third after : Dev Flash}

theorem of_books (balanced : dev.books.Balanced) (same : after.books = dev.books) :
    Retargeted dev after :=
  ⟨same ▸ balanced, _, _, _, _, same⟩

theorem trans (left : Retargeted first second) (right : Retargeted second third) :
    Retargeted first third := by
  obtain ⟨_, _, _, _, left_eq⟩ := left.same
  obtain ⟨_, _, _, _, right_eq⟩ := right.same
  exact ⟨right.balanced, _, _, _, _, by rw [right_eq, left_eq]⟩

/-- Whether a block may be collected does not depend on what is remembered. -/
theorem target (retargeted : Retargeted dev after) (block : Nat) :
    after.books.Target block ↔ dev.books.Target block := by
  obtain ⟨_, _, _, _, eq⟩ := retargeted.same
  rw [eq]
  rfl

end Retargeted

theorem target_zero (books : Books) : books.Target 0 := fun nonzero => absurd rfl nonzero

/-- A full block of the device may be collected. -/
theorem target_of_full {block : Nat} (block_mem : block ∈ dev.blocks)
    (full : dev.blockState block = .full) : dev.books.Target block :=
  fun _ => ⟨block_mem, .inl full⟩

/-- The collector turns to another block, or to none. -/
theorem retarget_gcBlock (balanced : dev.books.Balanced) {gcBlock gcChunk : Nat}
    (target : dev.books.Target gcBlock) :
    Retargeted dev { dev with gcBlock, gcChunk, gcCleanupList := [] } := by
  refine ⟨⟨{ balanced.toSound with gcBlock := target, gcCleanupList := rfl },
    { balanced.toWritable with }⟩, gcBlock, dev.gcDirtiest, dev.oldestDirtySeq,
      dev.oldestDirtyBlock, ?_⟩
  have none : dev.gcCleanupList = [] := balanced.gcCleanupList
  simp [books, none]

theorem retarget_gcDirtiest (balanced : dev.books.Balanced) {gcDirtiest : Nat} (gcPagesInUse : Nat)
    (target : dev.books.Target gcDirtiest) :
    Retargeted dev { dev with gcDirtiest, gcPagesInUse } :=
  ⟨⟨{ balanced.toSound with gcDirtiest := target }, { balanced.toWritable with }⟩, _, _, _, _, rfl⟩

/-! ## The oldest dirty block -/

/-- The best candidate so far: none, or a full block with its sequence number. -/
def Candidate (dev : Dev Flash) (oldest : Nat × Nat) : Prop :=
  oldest.2 ≠ 0 → oldest.2 ∈ dev.blocks ∧ dev.blockState oldest.2 = .full ∧
    (dev.blockInfo oldest.2).seqNumber = oldest.1

theorem Candidate.target {oldest : Nat × Nat} (candidate : dev.Candidate oldest) :
    dev.books.Target oldest.2 := fun nonzero =>
  ⟨(candidate nonzero).1, .inl (candidate nonzero).2.1⟩

/-- Looking through the blocks for the oldest one ends with a candidate. -/
theorem candidate_foldl {look : Nat × Nat → Nat → Nat × Nat}
    (step : ∀ oldest, ∀ block ∈ dev.blocks, look oldest block = oldest ∨
      look oldest block = ((dev.blockInfo block).seqNumber, block) ∧ dev.blockState block = .full)
    (blocks : List Nat) (inside : ∀ block ∈ blocks, block ∈ dev.blocks) (oldest : Nat × Nat)
    (candidate : dev.Candidate oldest) : dev.Candidate (blocks.foldl look oldest) := by
  induction blocks generalizing oldest with
  | nil => exact candidate
  | cons block blocks ih =>
    refine ih (fun other other_mem => inside other (List.mem_cons_of_mem _ other_mem)) _ ?_
    have block_mem := inside block List.mem_cons_self
    rcases step oldest block block_mem with eq | ⟨eq, full⟩
    · rw [eq]
      exact candidate
    · rw [eq]
      exact fun _ => ⟨block_mem, full, rfl⟩

/-- The sequence number that is looked up never goes up. -/
theorem olderDirty_le (blocks : List Nat) (oldest : Nat × Nat) :
    (blocks.foldl dev.olderDirty oldest).1 ≤ oldest.1 := by
  induction blocks generalizing oldest with
  | nil => exact le_rfl
  | cons block blocks ih =>
    refine (ih _).trans ?_
    simp only [olderDirty]
    split
    case isTrue younger => exact younger.2.le
    case isFalse => exact le_rfl

/-- A block other than the first one is found only at a lower sequence number. -/
theorem olderDirty_lt (blocks : List Nat) (oldest : Nat × Nat) :
    blocks.foldl dev.olderDirty oldest = oldest ∨
      (blocks.foldl dev.olderDirty oldest).1 < oldest.1 := by
  induction blocks generalizing oldest with
  | nil => exact .inl rfl
  | cons block blocks ih =>
    rw [List.foldl_cons]
    by_cases older : dev.isDirtyFull block = true ∧ (dev.blockInfo block).seqNumber < oldest.1
    · have eq : dev.olderDirty oldest block = ((dev.blockInfo block).seqNumber, block) := by
        simp only [olderDirty, if_pos older]
      rw [eq]
      exact .inr ((dev.olderDirty_le blocks _).trans_lt older.2)
    · have eq : dev.olderDirty oldest block = oldest := by simp only [olderDirty, if_neg older]
      rw [eq]
      exact ih oldest

theorem findOldestDirtySeq_retargeted (balanced : dev.books.Balanced) :
    Retargeted dev dev.findOldestDirtySeq := by
  have same : Retargeted dev dev := .of_books balanced rfl
  simp only [findOldestDirtySeq]
  split
  case isFalse => exact same
  case isTrue =>
    simp only [calcOldestDirtySeq]
    split
    case isTrue => exact same
    case isFalse =>
      have candidate : dev.Candidate
          (dev.blockList.foldl dev.olderDirty (dev.seqNumber + 1, 0)) := by
        refine candidate_foldl (fun oldest block _ => ?_) _ (fun block => (dev.mem_blockList block).mp)
          _ fun nonzero => absurd rfl nonzero
        simp only [olderDirty]
        split
        case isTrue older =>
          have full := older.1
          simp only [isDirtyFull, decide_eq_true_eq] at full
          exact .inr ⟨rfl, full.1⟩
        case isFalse => exact .inl rfl
      have bounded := dev.olderDirty_lt dev.blockList (dev.seqNumber + 1, 0)
      generalize dev.blockList.foldl dev.olderDirty (dev.seqNumber + 1, 0) = oldest at *
      split
      case isTrue nonzero =>
        have seq_le : oldest.1 ≤ dev.seqNumber := by
          rcases bounded with start | lower
          · rw [start] at nonzero
            exact absurd rfl nonzero
          · exact Nat.lt_succ_iff.mp lower
        exact ⟨⟨{ balanced.toSound with
          oldest := candidate.target
          oldest_seq := fun nonzero => (candidate nonzero).2.2
          oldest_le := seq_le }, { balanced.toWritable with }⟩, _, _, _, _, rfl⟩
      case isFalse => exact same

theorem blockOkForGc_retargeted (balanced : dev.books.Balanced) (block : Nat) :
    Retargeted dev (dev.blockOkForGc block).2 := by
  simp only [blockOkForGc]
  split
  · exact .of_books balanced rfl
  · exact findOldestDirtySeq_retargeted balanced

/-! ## Choosing a block -/

/-- A choice of a block to collect: the block may be collected, and nothing but what is remembered
has changed. -/
structure Choice (dev : Dev Flash) (chosen : Nat × Dev Flash) : Prop extends
    Retargeted dev chosen.2 where
  chosen : dev.books.Target chosen.1

theorem Choice.none {after : Dev Flash} (retargeted : Retargeted dev after) :
    dev.Choice (0, after) :=
  { retargeted with chosen := target_zero _ }

theorem Choice.ite {condition : Prop} [Decidable condition] {yes no : Nat × Dev Flash}
    (left : dev.Choice yes) (right : dev.Choice no) :
    dev.Choice (if condition then yes else no) := by
  split
  · exact left
  · exact right

/-- Making a second choice when the first one is no block. -/
theorem Choice.orElse {first : Nat × Dev Flash} {next : Dev Flash → Nat × Dev Flash}
    (choice : dev.Choice first) (second : ∀ dev : Dev Flash, dev.books.Balanced → dev.Choice (next dev)) :
    dev.Choice (if first.1 = 0 then next first.2 else first) := by
  split
  case isTrue =>
    have chosen := second first.2 choice.balanced
    exact
      { choice.toRetargeted.trans chosen.toRetargeted with
        chosen := (choice.target _).mp chosen.chosen }
  case isFalse => exact choice

theorem findRefreshBlock_choice (balanced : dev.books.Balanced) : dev.Choice dev.findRefreshBlock := by
  simp only [findRefreshBlock]
  split
  · exact .none (.of_books balanced rfl)
  · split
    · exact .none (.of_books balanced rfl)
    · have candidate : dev.Candidate (dev.blockList.foldl dev.olderFull (0, 0)) := by
        refine candidate_foldl (fun oldest block _ => ?_) _ (fun block => (dev.mem_blockList block).mp)
          _ fun nonzero => absurd rfl nonzero
        simp only [olderFull]
        split
        case isTrue older => exact .inr ⟨rfl, older.1⟩
        case isFalse => exact .inl rfl
      have same : Retargeted dev { dev with refreshSkip := dev.param.refreshPeriod } :=
        .of_books balanced rfl
      exact { same with chosen := candidate.target }

theorem findPrioritised_choice (blocks : List Nat) (found : Bool) (dev : Dev Flash)
    (inside : ∀ block ∈ blocks, block ∈ dev.blocks) (balanced : dev.books.Balanced) :
    dev.Choice ((findPrioritised blocks found dev).1.2, (findPrioritised blocks found dev).2) := by
  induction blocks generalizing found dev with
  | nil => exact .none (.of_books balanced rfl)
  | cons block rest ih =>
    have inside_rest : ∀ other ∈ rest, other ∈ dev.blocks := fun other other_mem =>
      inside other (List.mem_cons_of_mem _ other_mem)
    simp only [findPrioritised]
    split
    · split
      case isTrue full =>
        have allowed := blockOkForGc_retargeted balanced block
        have target := target_of_full (inside block List.mem_cons_self) full
        split
        case isTrue => exact { allowed with chosen := target }
        case isFalse =>
          have blocks_eq : (dev.blockOkForGc block).2.blocks = dev.blocks := by
            obtain ⟨_, _, _, _, eq⟩ := allowed.same
            exact congrArg Books.blocks eq
          have chosen := ih true _ (by rwa [blocks_eq]) allowed.balanced
          exact
            { allowed.trans chosen.toRetargeted with
              chosen := (allowed.target _).mp chosen.chosen }
      case isFalse => exact ih true dev inside_rest balanced
    · exact ih found dev inside_rest balanced

theorem selectPrioritised_choice (balanced : dev.books.Balanced) :
    dev.Choice dev.selectPrioritised := by
  have cleared : Retargeted dev { dev with gcDirtiest := 0 } :=
    retarget_gcDirtiest balanced dev.gcPagesInUse (target_zero _)
  have found := findPrioritised_choice dev.blockList false { dev with gcDirtiest := 0 }
    (fun block => (dev.mem_blockList block).mp) cleared.balanced
  have retargeted := cleared.trans found.toRetargeted
  have target := (cleared.target _).mp found.chosen
  simp only [selectPrioritised]
  generalize findPrioritised dev.blockList false { dev with gcDirtiest := 0 } = selected at *
  have chosen : dev.books.Target
      (if selected.1.1 = true ∧ selected.1.2 = 0 ∧ 0 < selected.2.oldestDirtyBlock then
        selected.2.oldestDirtyBlock else selected.1.2) := by
    split
    case isTrue => exact (retargeted.target _).mp retargeted.balanced.oldest
    case isFalse => exact target
  have after : Retargeted dev
      (if selected.1.1 = true then selected.2
        else { selected.2 with hasPendingPrioritisedGc := false }) := by
    split
    · exact retargeted
    · exact retargeted.trans (.of_books retargeted.balanced rfl)
  exact { after with chosen }

theorem considerDirty_retargeted (balanced : dev.books.Balanced) :
    Retargeted dev dev.considerDirty := by
  have stepped : Retargeted dev dev.stepGcFinder := .of_books balanced rfl
  have inside : dev.stepGcFinder.gcBlockFinder ∈ dev.stepGcFinder.blocks := by
    have first_le : dev.internalStartBlock ≤ dev.internalEndBlock := balanced.first_le
    simp only [stepGcFinder, mem_blocks]
    split <;> omega
  simp only [considerDirty]
  split
  case isTrue dirty =>
    have allowed := blockOkForGc_retargeted stepped.balanced dev.stepGcFinder.gcBlockFinder
    have target := (allowed.target _).mpr (target_of_full inside dirty.1)
    split
    case isTrue =>
      exact stepped.trans (allowed.trans (retarget_gcDirtiest allowed.balanced _ target))
    case isFalse => exact stepped.trans allowed
  case isFalse => exact stepped

theorem searchDirty_retargeted (left : Nat) (dev : Dev Flash) (balanced : dev.books.Balanced) :
    Retargeted dev (searchDirty left dev) := by
  induction left generalizing dev with
  | zero => exact .of_books balanced rfl
  | succ left ih =>
    rw [searchDirty]
    split
    · have considered := considerDirty_retargeted balanced
      exact considered.trans (ih _ considered.balanced)
    · exact .of_books balanced rfl

theorem selectDirtiest_choice (balanced : dev.books.Balanced) (aggressive background : Bool) :
    dev.Choice (dev.selectDirtiest aggressive background) := by
  have searched := searchDirty_retargeted (dev.gcIterations aggressive) dev balanced
  refine { searched with chosen := ?_ }
  simp only [selectDirtiest]
  split
  · exact (searched.target _).mp searched.balanced.gcDirtiest
  · exact target_zero _

theorem selectOldest_choice (balanced : dev.books.Balanced) (background : Bool) :
    dev.Choice (dev.selectOldest background) := by
  have found := findOldestDirtySeq_retargeted balanced
  have oldest : dev.Choice (dev.findOldestDirtySeq.oldestDirtyBlock, dev.findOldestDirtySeq) :=
    { found with chosen := (found.target _).mp found.balanced.oldest }
  exact .ite (.ite oldest (.none (found.trans (.of_books found.balanced rfl))))
    (.none (.of_books balanced rfl))

theorem noteSelection_retargeted (balanced : dev.books.Balanced) (selected : Nat) :
    Retargeted dev (dev.noteSelection selected) := by
  simp only [noteSelection]
  split
  · exact (retarget_gcDirtiest balanced 0 (target_zero _)).trans
      (.of_books (retarget_gcDirtiest balanced 0 (target_zero _)).balanced rfl)
  · exact .of_books balanced rfl

/-- Whatever block is found may be collected. -/
theorem findGcBlock_choice (balanced : dev.books.Balanced) (aggressive background : Bool) :
    dev.Choice (dev.findGcBlock aggressive background) := by
  have prioritised : dev.Choice
      (if dev.hasPendingPrioritisedGc = true ∧ ¬aggressive = true then dev.selectPrioritised
        else (0, dev)) := by
    split
    · exact selectPrioritised_choice balanced
    · exact .none (.of_books balanced rfl)
  have oldest := (prioritised.orElse fun _ balanced =>
      selectDirtiest_choice balanced aggressive background).orElse
    fun _ balanced => selectOldest_choice balanced background
  have noted := noteSelection_retargeted oldest.balanced
  exact { oldest.toRetargeted.trans (noted _) with chosen := oldest.chosen }

end Dev

/-! ## Collecting a block -/

/-- A page of a block that is being collected stays in use while nothing happens to such blocks. -/
theorem Dev.InUse.of_moves {Flash : Type} {dev after : Dev Flash} {block page : Nat}
    (in_use : dev.InUse block page) (moves : Books.Moves (fun _ => False) dev.books after.books)
    (collecting : dev.blockState block = .collecting) : after.InUse block page where
  block_mem := by
    change block ∈ after.books.blocks
    rw [moves.blocks]
    exact in_use.block_mem
  page_lt := lt_of_lt_of_eq in_use.page_lt moves.chunksPerBlock.symm
  used := by
    have same := congrArg Sheet.inUse (moves.collecting block not_false collecting)
    exact (congrFun same page).trans in_use.used

namespace Fs

open Dev

variable {Flash : Type} (T : Tagger Flash) {fs : Fs Flash}

/-- The books are balanced, and no file is soft deleted: with the new format a file that is deleted
gives up its pages at once. -/
structure Balanced (fs : Fs Flash) : Prop where
  books : fs.dev.books.Balanced
  not_softDel : ∀ bucket, ∀ obj ∈ fs.buckets bucket, obj.softDel = false

namespace Balanced

/-- A change of the device alone. -/
theorem mapDev (balanced : fs.Balanced) {change : Dev Flash → Dev Flash}
    (books : (change fs.dev).books.Balanced) : (fs.mapDev change).Balanced :=
  ⟨books, balanced.not_softDel⟩

/-- A change that the books do not show. -/
theorem of_books (balanced : fs.Balanced) {change : Dev Flash → Dev Flash}
    (same : (change fs.dev).books = fs.dev.books) : (fs.mapDev change).Balanced :=
  balanced.mapDev (same ▸ balanced.books)

theorem modifyObj (balanced : fs.Balanced) (number : Nat) {change : Obj → Obj}
    (keeps : ∀ obj, (change obj).softDel = obj.softDel) : (fs.modifyObj number change).Balanced := by
  refine ⟨balanced.books, fun bucket obj obj_mem => ?_⟩
  simp only [Fs.modifyObj, Function.update_apply] at obj_mem
  split at obj_mem
  case isTrue =>
    obtain ⟨old, old_mem, rfl⟩ := List.mem_map.mp obj_mem
    have was := balanced.not_softDel _ old old_mem
    split
    · rw [keeps, was]
    · exact was
  case isFalse => exact balanced.not_softDel bucket obj obj_mem

theorem findByNumber (balanced : fs.Balanced) {number : Nat} {obj : Obj}
    (found : fs.findByNumber number = some obj) : obj.softDel = false := by
  simp only [Fs.findByNumber] at found
  split at found
  case h_1 hit =>
    split at found
    · cases found
    · obtain rfl := Option.some.inj found
      exact balanced.not_softDel _ _ (List.mem_of_find?_eq_some hit)
  case h_2 => cases found

/-- Deleting a page in use. -/
theorem chunkDel (balanced : fs.Balanced) {block page : Nat} (in_use : fs.dev.InUse block page)
    (markFlash : Bool) :
    (fs.mapDev fun dev =>
      dev.chunkDel T (block * fs.dev.param.chunksPerBlock + page : Nat) markFlash).Balanced :=
  balanced.mapDev (chunkDel_page_books T balanced.books in_use markFlash).1

/-- Entering a page in an object, where a page for an object that is no file is deleted. -/
theorem putChunkInFile (balanced : fs.Balanced) (number inodeChunk : Nat) {nandChunk : Nat}
    (in_use : 0 < nandChunk → fs.dev.InUse (nandChunk / fs.dev.param.chunksPerBlock)
      (nandChunk % fs.dev.param.chunksPerBlock)) :
    (fs.putChunkInFile T number inodeChunk nandChunk).2.Balanced ∧
      Books.Moves (· = nandChunk / fs.dev.param.chunksPerBlock) fs.dev.books
        (fs.putChunkInFile T number inodeChunk nandChunk).2.dev.books := by
  simp only [Fs.putChunkInFile]
  split
  case h_1 => exact ⟨balanced, .refl _⟩
  case h_2 obj _ =>
    have same := books_tnodesOnly fs.dev (fs.dev.addFindTnode0_only obj.file inodeChunk none)
    have found : ({ fs with dev := (fs.dev.addFindTnode0 obj.file inodeChunk none).2.2 } :
        Fs Flash).Balanced := ⟨same ▸ balanced.books, balanced.not_softDel⟩
    split
    case isTrue =>
      have deleted := chunkDel_books T balanced.books nandChunk true
        (by simpa using in_use)
      exact ⟨⟨deleted.1, balanced.not_softDel⟩, deleted.2⟩
    case isFalse =>
      have moves : Books.Moves (· = nandChunk / fs.dev.param.chunksPerBlock) fs.dev.books
          (fs.dev.addFindTnode0 obj.file inodeChunk none).2.2.books := same ▸ .refl _
      split
      · exact ⟨found.modifyObj number fun _ => rfl, moves⟩
      · split
        · exact ⟨found.modifyObj number fun _ => rfl, moves⟩
        · exact ⟨found.modifyObj number fun _ => rfl, moves⟩

/-- Entering a copied page, which lies in another block than the one collected. -/
theorem gcMove (balanced : fs.Balanced) (obj : Obj) (tags : ExtTags) {block page : Nat}
    (in_use : fs.dev.InUse block page) :
    (fs.gcMove T obj tags (block * fs.dev.param.chunksPerBlock + page)).Balanced ∧
      Books.Moves (· = block) fs.dev.books
        (fs.gcMove T obj tags (block * fs.dev.param.chunksPerBlock + page)).dev.books := by
  simp only [Fs.gcMove]
  split
  · exact ⟨balanced.modifyObj obj.objId fun _ => rfl, .refl _⟩
  · obtain ⟨block_eq, page_eq⟩ := page_of_chunk block in_use.page_lt
    have copied_in_use : 0 < block * fs.dev.param.chunksPerBlock + page →
        fs.dev.InUse ((block * fs.dev.param.chunksPerBlock + page) / fs.dev.param.chunksPerBlock)
          ((block * fs.dev.param.chunksPerBlock + page) % fs.dev.param.chunksPerBlock) :=
      fun _ => by rwa [block_eq, page_eq]
    have entered := balanced.putChunkInFile T obj.objId tags.chunkId copied_in_use
    rw [block_eq] at entered
    exact entered

/-- A page of the block that is collected is copied elsewhere, and deleted in its block. -/
theorem gcProcessChunk (balanced : fs.Balanced) {block page : Nat}
    (in_use : fs.dev.InUse block page) (collecting : fs.dev.blockState block = .collecting) :
    (fs.gcProcessChunk T block (block * fs.dev.param.chunksPerBlock + page)).2.Balanced ∧
      Books.Moves (· = block) fs.dev.books
        (fs.gcProcessChunk T block (block * fs.dev.param.chunksPerBlock + page)).2.dev.books := by
  have read_books := fs.dev.books_rdChunkTagsNand T (block * fs.dev.param.chunksPerBlock + page)
  simp only [Fs.gcProcessChunk]
  generalize fs.dev.rdChunkTagsNand T (block * fs.dev.param.chunksPerBlock + page) = read at *
  have read_balanced : ({ fs with dev := read.2 } : Fs Flash).Balanced :=
    ⟨read_books ▸ balanced.books, balanced.not_softDel⟩
  -- The page is deleted last, when nothing has happened to its block yet.
  have deleted (after : Fs Flash) (after_balanced : after.Balanced)
      (moves : Books.Moves (fun _ => False) read.2.books after.dev.books) :
      (after.mapDev fun dev => dev.chunkDel T
          (block * fs.dev.param.chunksPerBlock + page : Nat) true).Balanced ∧
        Books.Moves (· = block) fs.dev.books (after.dev.chunkDel T
          (block * fs.dev.param.chunksPerBlock + page : Nat) true).books := by
    rw [read_books] at moves
    have in_use_after := in_use.of_moves moves collecting
    have pages : after.dev.param.chunksPerBlock = fs.dev.param.chunksPerBlock :=
      moves.chunksPerBlock
    obtain ⟨gone, gone_moves⟩ := chunkDel_page_books T after_balanced.books in_use_after true
    rw [pages] at gone gone_moves
    exact ⟨⟨gone, after_balanced.not_softDel⟩,
      (moves.mono fun _ _ exempted => exempted.elim).trans gone_moves⟩
  split
  case h_1 => exact deleted _ read_balanced (.refl _)
  case h_2 obj found =>
    have hard : obj.softDel = false := read_balanced.findByNumber found
    rw [if_neg (by simp [hard])]
    obtain ⟨written, moves, copied⟩ := writeNewChunk_books T read_balanced.books
      (gcCopy read.2.swapEndian obj read.1.2.1 read.1.2.2).1
      (gcCopy read.2.swapEndian obj read.1.2.1 read.1.2.2).2 true
    generalize read.2.writeNewChunk T (gcCopy read.2.swapEndian obj read.1.2.1 read.1.2.2).1
      (gcCopy read.2.swapEndian obj read.1.2.1 read.1.2.2).2 true = wrote at *
    have wrote_balanced : ({ fs with dev := wrote.2 } : Fs Flash).Balanced :=
      ⟨written, balanced.not_softDel⟩
    split
    case h_1 =>
      rw [read_books] at moves
      exact ⟨wrote_balanced, moves.mono fun _ _ exempted => exempted.elim⟩
    case h_2 newChunk new_eq =>
      obtain ⟨newBlock, newPage, rfl, new_in_use, not_collecting⟩ := copied newChunk new_eq
      obtain ⟨moved, moved_moves⟩ := wrote_balanced.gcMove T obj
        (gcCopy read.2.swapEndian obj read.1.2.1 read.1.2.2).2 new_in_use
      rw [show wrote.2.param.chunksPerBlock = read.2.param.chunksPerBlock
        from moves.chunksPerBlock] at moved moved_moves
      refine deleted _ moved ?_
      refine ((moves.mono fun _ _ exempted => exempted.elim).trans moved_moves).mono ?_
      intro other other_collecting same
      exact not_collecting (same ▸ other_collecting)

/-- One page of the block that is collected, if it is in use. -/
theorem gcPage (balanced : fs.Balanced) {block : Nat} (block_mem : block ∈ fs.dev.blocks)
    (collecting : fs.dev.blockState block = .collecting)
    (page_lt : fs.dev.gcChunk < fs.dev.param.chunksPerBlock) :
    (fs.gcPage T block).2.Balanced ∧
      Books.Moves (· = block) fs.dev.books (fs.gcPage T block).2.dev.books := by
  simp only [Fs.gcPage]
  split
  case isTrue used =>
    obtain ⟨processed, moves⟩ := balanced.gcProcessChunk T ⟨block_mem, page_lt, used⟩ collecting
    exact ⟨processed.of_books rfl, moves⟩
  case isFalse => exact ⟨balanced.of_books rfl, .refl _⟩

theorem gcCopyLoop (balanced : fs.Balanced) {block : Nat} (block_mem : block ∈ fs.dev.blocks)
    (left copies : Nat) :
    (gcCopyLoop T block left copies fs).2.Balanced ∧
      Books.Moves (· = block) fs.dev.books (Fs.gcCopyLoop T block left copies fs).2.dev.books := by
  induction left generalizing copies fs with
  | zero => exact ⟨balanced, .refl _⟩
  | succ left ih =>
    simp only [Fs.gcCopyLoop]
    split
    case isTrue => exact ⟨balanced, .refl _⟩
    case isFalse going_on =>
      simp only [not_or, not_le, ne_eq, not_not] at going_on
      obtain ⟨stepped, moves⟩ := balanced.gcPage T block_mem going_on.2.1 going_on.1
      have still_mem : block ∈ (fs.gcPage T block).2.dev.books.blocks := moves.blocks ▸ block_mem
      split
      · obtain ⟨rest, rest_moves⟩ := ih stepped still_mem _
        exact ⟨rest, moves.trans rest_moves⟩
      · exact ⟨stepped, moves⟩

end Balanced

/-- The pages of the summary are given up when its block is collected. -/
theorem summaryGc_books {dev : Dev Flash} (balanced : dev.books.Balanced) {block : Nat}
    (block_mem : block ∈ dev.blocks) :
    (dev.summaryGc block).books.Balanced ∧ (dev.summaryGc block).blocks = dev.blocks ∧
      (dev.summaryGc block).blockState block = dev.blockState block := by
  have dropped (pages : List Nat) (inside : ∀ page ∈ pages, page < dev.param.chunksPerBlock)
      (after : Dev Flash) (balanced : after.books.Balanced) (blocks : after.blocks = dev.blocks)
      (chunksPerBlock : after.param.chunksPerBlock = dev.param.chunksPerBlock)
      (state : after.blockState block = dev.blockState block) :
      (pages.foldl (dropSummaryPage block) after).books.Balanced ∧
        (pages.foldl (dropSummaryPage block) after).blocks = dev.blocks ∧
        (pages.foldl (dropSummaryPage block) after).blockState block = dev.blockState block := by
    induction pages generalizing after with
    | nil => exact ⟨balanced, blocks, state⟩
    | cons page pages ih =>
      have page_lt := inside page List.mem_cons_self
      refine ih (fun other other_mem => inside other (List.mem_cons_of_mem _ other_mem)) _ ?_ ?_ ?_ ?_
      all_goals
        simp only [dropSummaryPage]
        split
      case refine_1.isTrue used =>
        have after_mem : block ∈ after.blocks := blocks ▸ block_mem
        rw [books_unmarkPage balanced.toSound after_mem page _ rfl]
        exact balanced.unmarkPage after_mem (lt_of_lt_of_eq page_lt chunksPerBlock.symm) used
      case refine_1.isFalse => exact balanced
      case refine_2.isTrue => exact blocks
      case refine_2.isFalse => exact blocks
      case refine_3.isTrue => exact chunksPerBlock
      case refine_3.isFalse => exact chunksPerBlock
      case refine_4.isTrue =>
        refine Eq.trans ?_ state
        change ((after.clearChunkBit block page).addPagesInUse block (-1)).blockState block = _
        simp [addPagesInUse, blockState_modifyBlockInfo]
        rfl
      case refine_4.isFalse => exact state
  simp only [summaryGc]
  split
  case isTrue => exact ⟨balanced, rfl, rfl⟩
  case isFalse =>
    refine dropped _ (fun page page_mem => ?_) dev balanced rfl rfl rfl
    obtain ⟨_, page_lt⟩ := List.mem_range'_1.mp page_mem
    omega

/-- A block that holds pages is being collected from here on. -/
theorem gcStart_books {dev : Dev Flash} (balanced : dev.books.Balanced) {block : Nat}
    (block_mem : block ∈ dev.blocks) (held : Sheet.Held (dev.blockState block)) :
    (gcStart dev block).books.Balanced ∧ (gcStart dev block).blocks = dev.blocks ∧
      (gcStart dev block).blockState block = .collecting := by
  let marked := if dev.blockState block = .full then dev.setBlockState block .collecting else dev
  have marked_eq : marked.books = dev.books.setState block .collecting ∧
      marked.blockState block = .collecting := by
    simp only [marked]
    split
    case isTrue => exact ⟨dev.books_setBlockState block .collecting, by simp⟩
    case isFalse not_full =>
      have collecting : dev.blockState block = .collecting := held.resolve_left not_full
      refine ⟨?_, collecting⟩
      have sheet_eq : { dev.books.sheet block with state := .collecting } = dev.books.sheet block := by
        rw [← show (dev.books.sheet block).state = .collecting from collecting]
      rw [Books.setState, sheet_eq, Books.put, Function.update_eq_self]
  let cleared : Dev Flash :=
    { marked.modifyBlockInfo block fun info => { info with hasShrinkHdr := false } with
      gcDisable := true }
  have cleared_books : cleared.books = dev.books.setState block .collecting :=
    (marked.books_modifyBlockInfo_same block (fun info => { info with hasShrinkHdr := false })
      fun _ _ => rfl).trans marked_eq.1
  have cleared_balanced : cleared.books.Balanced := by
    rw [cleared_books]
    exact balanced.setState_held block_mem held (.inr rfl)
  have blocks : cleared.blocks = dev.blocks := congrArg Books.blocks cleared_books
  have state : cleared.blockState block = .collecting :=
    (congrArg (fun books : Books => (books.sheet block).state) cleared_books).trans (by
      simp [Books.setState])
  have cleared_mem : block ∈ cleared.blocks := blocks ▸ block_mem
  obtain ⟨after, after_blocks, after_state⟩ :=
    summaryGc_books cleared_balanced cleared_mem
  exact ⟨after, after_blocks.trans blocks, after_state.trans state⟩

namespace Balanced

/-- A collection that is not complete leaves the block full. -/
theorem gcFinish (balanced : fs.Balanced) {block : Nat} (block_mem : block ∈ fs.dev.blocks) :
    (fs.gcFinish T block).Balanced := by
  simp only [Fs.gcFinish]
  split
  case isTrue collecting =>
    have full : (fs.dev.setBlockState block .full).books.Balanced := by
      rw [books_setBlockState]
      exact balanced.books.setState_held block_mem (.inr collecting) (.inl rfl)
    exact (balanced.mapDev full).of_books rfl
  case isFalse =>
    have no_files : fs.dev.gcCleanupList = [] := balanced.books.gcCleanupList
    rw [no_files, List.foldl_nil]
    have forgotten : (fs.mapDev fun dev =>
        { dev with gcBlock := 0, gcChunk := 0, gcCleanupList := [] }).Balanced :=
      balanced.mapDev (retarget_gcBlock balanced.books (target_zero _)).balanced
    exact forgotten.of_books rfl

/-- A block without pages in use is given up. -/
theorem dropUnused (balanced : fs.Balanced) {block : Nat} (block_mem : block ∈ fs.dev.blocks)
    (held : Sheet.Held (fs.dev.blockState block))
    (no_chunks : ¬fs.dev.stillSomeChunks block = true) :
    (fs.mapDev fun dev => dev.blockBecameDirty T block).Balanced ∧
      Books.Moves (· = block) fs.dev.books (fs.dev.blockBecameDirty T block).books := by
  have unmarked : ∀ page < fs.dev.param.chunksPerBlock, fs.dev.chunkBits block page = false := by
    simpa [stillSomeChunks] using no_chunks
  have empty : (fs.dev.blockInfo block).pagesInUse = 0 :=
    (balanced.books.sheet block block_mem).counted.trans (Sheet.marked_eq_zero_iff.mpr unmarked)
  obtain ⟨dirty, moves⟩ := blockBecameDirty_books T balanced.books block_mem held empty
  exact ⟨balanced.mapDev dirty, moves⟩

/-- Collecting a block that holds pages, as a whole or in part, and whether its pages can be copied
or not. -/
theorem gcBlock (balanced : fs.Balanced) {block : Nat} (block_mem : block ∈ fs.dev.blocks)
    (held : Sheet.Held (fs.dev.blockState block)) (wholeBlock : Bool) :
    (fs.gcBlock T block wholeBlock).2.Balanced := by
  obtain ⟨started, blocks, collecting⟩ := gcStart_books balanced.books block_mem held
  have started_balanced : (fs.mapDev fun dev => gcStart dev block).Balanced := balanced.mapDev started
  have started_mem : block ∈ (gcStart fs.dev block).blocks := blocks ▸ block_mem
  have not_checkpoint : fs.dev.blockState block ≠ .checkpoint := by
    rcases held with full | collecting
    · simp [full]
    · simp [collecting]
  simp only [Fs.gcBlock]
  split
  case isTrue unused =>
    obtain ⟨dirty, moves⟩ := dropUnused T started_balanced started_mem (.inr collecting)
      (unused.resolve_left (by simp [not_checkpoint]))
    exact gcFinish T dirty ((Finset.ext_iff.mp moves.blocks block).mpr started_mem)
  case isFalse =>
    obtain ⟨copied, moves⟩ := started_balanced.gcCopyLoop T started_mem
      (fs.mapDev fun dev => gcStart dev block).dev.param.chunksPerBlock
      (if wholeBlock then (fs.mapDev fun dev => gcStart dev block).dev.param.chunksPerBlock else 5)
    exact copied.gcFinish T ((Finset.ext_iff.mp moves.blocks block).mpr started_mem)

/-- The collector is pointed at the block that has been chosen. -/
theorem point (balanced : fs.Balanced) {chosen : Nat × Dev Flash} (choice : fs.dev.Choice chosen) :
    (fs.mapDev fun _ =>
      { chosen.2 with gcBlock := chosen.1, gcChunk := 0, gcCleanupList := [] }).Balanced :=
  balanced.mapDev
    (retarget_gcBlock choice.balanced ((choice.target _).mpr choice.chosen)).balanced

theorem chooseRefreshBlock (balanced : fs.Balanced) (aggressive : Bool) :
    (fs.chooseRefreshBlock aggressive).Balanced := by
  simp only [Fs.chooseRefreshBlock]
  split
  · exact balanced.point (findRefreshBlock_choice balanced.books)
  · exact balanced

theorem chooseGcBlock (balanced : fs.Balanced) (aggressive background : Bool) :
    (fs.chooseGcBlock aggressive background).Balanced := by
  have refreshed := balanced.chooseRefreshBlock aggressive
  simp only [Fs.chooseGcBlock]
  split
  · exact refreshed.point (findGcBlock_choice refreshed.books aggressive background)
  · exact refreshed

theorem gcMode (balanced : fs.Balanced) (background : Bool) :
    (fs.gcMode background).2.Balanced := by
  have required : ({ fs with dev := fs.dev.calcCheckptBlocksRequired.2 } : Fs Flash).Balanced :=
    ⟨fs.dev.books_calcCheckptBlocksRequired ▸ balanced.books, balanced.not_softDel⟩
  simp only [Fs.gcMode]
  split
  · exact required
  · split
    · exact required
    · split <;> exact ⟨required.books, required.not_softDel⟩

theorem gcTurn (balanced : fs.Balanced) (background : Bool) (turn : GcTurn) :
    (fs.gcTurn T background turn).2.Balanced := by
  have mode_balanced := balanced.gcMode background
  simp only [Fs.gcTurn]
  generalize fs.gcMode background = mode at *
  have skipped : (mode.2.mapDev fun dev => { dev with gcSkip := 5 }).Balanced :=
    mode_balanced.of_books rfl
  split
  · exact mode_balanced
  · have chosen := skipped.chooseGcBlock (decide (mode.1 = .aggressive)) background
    generalize (mode.2.mapDev fun dev => { dev with gcSkip := 5 }).chooseGcBlock
      (decide (mode.1 = .aggressive)) background = choice at *
    have target : choice.dev.books.Target choice.dev.gcBlock := chosen.books.gcBlock
    split
    case isTrue positive =>
      obtain ⟨block_mem, held⟩ := target (Nat.pos_iff_ne_zero.mp positive)
      exact chosen.gcBlock T block_mem held (decide (mode.1 = .aggressive))
    case isFalse => exact chosen

theorem checkGc (balanced : fs.Balanced) (background : Bool) :
    (fs.checkGc T background).2.Balanced := by
  have first := balanced.gcTurn T background {}
  simp only [Fs.checkGc]
  split
  · exact balanced
  · simp only
    split
    · exact first.gcTurn T _ _
    · exact first

end Balanced

end Fs

/-! ## Runs -/

namespace FsStep

open Dev Execution

variable {Flash : Type} {T : Tagger Flash}

variable (T) in
/-- What the accounting asks of an operation: a page is deleted only when it is in use, a block is
erased only when it holds no page in use and collected only when it holds pages, memory that is not
modelled is not on the books, and a save that is refused spends no block but an erased one. -/
def Accountable : FsStep Flash → Fs Flash → Prop
  | chunkDel chunk _, fs => 0 < chunk →
    fs.dev.InUse (chunk.toNat / fs.dev.param.chunksPerBlock)
      (chunk.toNat % fs.dev.param.chunksPerBlock)
  | blockBecameDirty block, fs =>
    block ∈ fs.dev.blocks ∧ Sheet.Held (fs.dev.blockState block) ∧
      (fs.dev.blockInfo block).pagesInUse = 0
  | putChunkInFile _ _ nandChunk, fs => 0 < nandChunk →
    fs.dev.InUse (nandChunk / fs.dev.param.chunksPerBlock) (nandChunk % fs.dev.param.chunksPerBlock)
  | gcBlock block _, fs => block ∈ fs.dev.blocks ∧ Sheet.Held (fs.dev.blockState block)
  | checkpointSave _, fs => fs.dev.SaveBalances T
  | memory change, fs =>
    (change fs).dev.books = fs.dev.books ∧
      ∀ bucket, ∀ obj ∈ (change fs).buckets bucket, obj.softDel = false
  | _, _ => True

/-- Every operation keeps the books balanced. -/
theorem exec_balanced (step : FsStep Flash) (fs : Fs Flash) (accountable : step.Accountable T fs)
    (balanced : fs.Balanced) : (step.exec T fs).Balanced := by
  cases step with
  | writeNewChunk data tags useReserver =>
    exact ⟨(writeNewChunk_books T balanced.books data tags useReserver).1, balanced.not_softDel⟩
  | chunkDel chunk markFlash =>
    exact ⟨(chunkDel_books T balanced.books chunk markFlash accountable).1, balanced.not_softDel⟩
  | blockBecameDirty block =>
    obtain ⟨block_mem, held, empty⟩ := accountable
    exact ⟨(blockBecameDirty_books T balanced.books block_mem held empty).1, balanced.not_softDel⟩
  | skipRestOfBlock => exact balanced.mapDev (skipRestOfBlock_books balanced.books.toSound).1
  | readChunk chunk => exact ⟨(fs.dev.books_rdChunkTagsNand T chunk).symm ▸ balanced.books, balanced.not_softDel⟩
  | putChunkInFile number inodeChunk nandChunk =>
    exact (balanced.putChunkInFile T number inodeChunk accountable).1
  | gcBlock block wholeBlock => exact balanced.gcBlock T accountable.1 accountable.2 wholeBlock
  | checkGc background => exact balanced.checkGc T background
  | checkptInvalidate => exact ⟨(checkptInvalidate_balanced T balanced.books).1, balanced.not_softDel⟩
  | checkpointSave buckets =>
    exact ⟨checkpointSave_books T balanced.books accountable buckets, balanced.not_softDel⟩
  | memory change => exact ⟨accountable.1 ▸ balanced.books, accountable.2⟩

/-- The counters agree with the block table in every state of a run, if no save is refused while the
cursor left behind is at the first page of a block that is not erased. -/
theorem accounts_of_run (steps : List (FsStep Flash)) (fs : Fs Flash) (balanced : fs.Balanced)
    (accountable : Guarded (exec T) (Accountable T) steps fs) :
    (run (exec T) steps fs).dev.Accounts :=
  accounts_of_balanced _ (run_invariant exec_balanced accountable balanced).books

/-- Write one page of a file. -/
def writeFilePage : FsStep RamFlash :=
  writeNewChunk (fun _ => 0) { objId := 257, chunkId := 1, nBytes := 1024 } true

/-- The erased device with two pages in a block keeps balanced books. -/
theorem ramDevice_balanced : ramDevice.books.Balanced where
  pages_pos := by decide
  pages_le := by decide
  fits := ⟨rfl, nofun⟩
  first_pos := by decide
  first_le := by decide
  free_eq := by decide +kernel
  erased_eq := by decide +kernel
  checkpt_eq := by decide +kernel
  sheet block _ := ⟨rfl, (Sheet.marked_eq_zero_iff.mpr fun _ _ => rfl).symm, fun _ _ _ _ => rfl⟩
  allocating _ _ := nofun
  allocBlock := nofun
  gcBlock := target_zero _
  gcDirtiest := target_zero _
  oldest := target_zero _
  oldest_seq nonzero := absurd rfl nonzero
  oldest_le := Nat.zero_le _
  gcCleanupList := rfl
  page_lt := nofun
  clear := nofun

/-- A save, two pages of a file, and a turn of the collector. -/
theorem accounts_of_save_and_writes :
    (run (exec (ramTagger 2)) [checkpointSave [], writeFilePage, writeFilePage, checkGc true]
      { dev := ramDevice }).dev.Accounts :=
  accounts_of_run _ _ ⟨ramDevice_balanced, fun _ _ obj_mem => absurd obj_mem List.not_mem_nil⟩
    ⟨.inr (.inl ⟨by decide +kernel, by decide +kernel⟩), trivial, trivial, trivial, trivial⟩

/-- A mount that finds one page of a checkpoint, with a wrong page number.  The reader stops with its
cursor at that page, and the scan that follows has the page erased. -/
def mountWithStrayPage : Dev RamFlash :=
  let tagger := ramTagger 2
  let stray := RamFlash.blank.program 0 none
    { objId := 2, chunkId := 5, nBytes := 1024, seqNumber := sequenceCheckpointData }
  let dev : Dev RamFlash := { ramDevice with flash := stray, blockInfo := fun _ => {} }
  let read := ((dev.checkptOpen tagger false).2.checkptRd tagger 16).2
  let aborted := (read.checkptClose tagger).2
  let cleaned : Dev RamFlash :=
    { aborted with nErasedBlocks := 0, nFreeChunks := 0, blockInfo := fun _ => {} }
  (cleaned.scanBlockStates tagger).2.checkptInvalidate tagger

/-- Ten pages fill the block under the cursor and four more.  Then there is no space for a checkpoint,
and the save that is refused puts the full block into the checkpoint. -/
theorem refused_save_loses_count :
    let filled := run (exec (ramTagger 2)) (List.replicate 10 writeFilePage)
      { dev := mountWithStrayPage }
    filled.dev.Accounts ∧ ¬(exec (ramTagger 2) (checkpointSave []) filled).dev.Accounts := by
  intro filled
  have not_allocating : ∀ block ∈ filled.dev.blocks, filled.dev.blockState block ≠ .allocating := by
    decide +kernel
  refine ⟨⟨?free, ?erased, ?checkpt, ?pages, ?allocating⟩, fun accounts => ?lost⟩
  case free => decide +kernel
  case erased => decide +kernel
  case checkpt => decide +kernel
  case pages => decide +kernel
  case allocating =>
    exact fun first first_mem _ _ first_state => absurd first_state (not_allocating first first_mem)
  case lost =>
    have miscounted : (exec (ramTagger 2) (checkpointSave []) filled).dev.nErasedBlocks ≠
        (exec (ramTagger 2) (checkpointSave []) filled).dev.countState .empty := by decide +kernel
    exact miscounted accounts.erased

end FsStep

end Yaffs
