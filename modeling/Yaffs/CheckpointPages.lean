import Yaffs.CheckpointCursor
import Mathlib.Algebra.Order.Floor.Div

/-!
# The pages of a checkpoint

The writer cuts the bytes of the stream into pages and writes the pages to erased blocks one after
the other.  A tags handler that keeps a record of the pages it programs shows where the bytes have
gone.
-/

namespace Yaffs

/-- A page that has been programmed, with the answer of the tags handler. -/
structure Written where
  chunk : Int
  data : Option Buf
  tags : ExtTags
  ok : Bool

/-- The tags handler with a record of the pages it programs, the last one first. -/
def Tagger.recording {Flash : Type} (T : Tagger Flash) : Tagger (Flash × List Written) where
  writeChunkTags flash chunk data tags :=
    let answer := T.writeChunkTags flash.1 chunk data tags
    (answer.1, answer.2, { chunk, data, tags, ok := answer.1 } :: flash.2)
  readChunkTags flash chunk :=
    let answer := T.readChunkTags flash.1 chunk
    (answer.1, answer.2, flash.2)
  queryBlock flash block :=
    let answer := T.queryBlock flash.1 block
    (answer.1, answer.2, flash.2)
  markBad flash block :=
    let answer := T.markBad flash.1 block
    (answer.1, answer.2, flash.2)
  eraseBlock flash block :=
    let answer := T.eraseBlock flash.1 block
    (answer.1, answer.2, flash.2)

/-! ## Erased blocks -/

/-- The first block of a list of blocks that passes a check, and the ones behind it. -/
theorem filter_range'_cons {check : Nat → Bool} {start length block : Nat} {rest : List Nat}
    (eq : (List.range' start length).filter check = block :: rest) :
    start ≤ block ∧ block < start + length ∧ check block = true ∧
      (∀ other, start ≤ other → other < block → check other = false) ∧
      (List.range' (block + 1) (start + length - (block + 1))).filter check = rest := by
  induction length generalizing start with
  | zero => cases eq
  | succ length ih =>
    rw [List.range'_succ] at eq
    cases checked : check start with
    | true =>
      rw [List.filter_cons_of_pos checked] at eq
      obtain ⟨rfl, rfl⟩ := List.cons.inj eq
      refine ⟨Nat.le_refl _, by omega, checked, fun other _ _ => by omega, ?_⟩
      congr 2
      omega
    | false =>
      rw [List.filter_cons_of_neg (by simp [checked])] at eq
      obtain ⟨from_next, inside, passes, before, behind⟩ := ih eq
      refine ⟨by omega, by omega, passes, fun other le lt => ?_, ?_⟩
      · by_cases first : other = start
        · rw [first, checked]
        · exact before other (by omega) lt
      · rw [← behind]
        congr 2
        omega

namespace Dev

variable {Flash : Type} (T : Tagger Flash)

/-- The erased blocks at or after a block. -/
def erasedFrom (dev : Dev Flash) (next : Nat) : List Nat :=
  (List.range' next (dev.internalEndBlock + 1 - next)).filter fun block =>
    decide (dev.blockState block = .empty)

/-- Bytes of the stream in a page. -/
def payload (dev : Dev Flash) : Nat := dev.dataBytesPerChunk - checkptChunkHdrSize

/-- A page lies in a block of the device. -/
def LiesAt (dev : Dev Flash) (written : Written) (block page : Nat) : Prop :=
  written.chunk = dev.applyChunkOffset (block * dev.param.chunksPerBlock + page : Nat)

/-- The page behind another one: the next one in the block, or the first one of the next erased
block at or after the hint in the tags. -/
inductive Follows (dev : Dev Flash) (before after : Written) : Prop
  | inBlock (block page : Nat) (lies : dev.LiesAt before block page)
      (next_lies : dev.LiesAt after block (page + 1)) (inside : page + 1 < dev.param.chunksPerBlock)
      (hint : after.tags.objId = before.tags.objId)
  | nextBlock (block page hint next : Nat) (lies : dev.LiesAt before block page)
      (last : page + 1 = dev.param.chunksPerBlock) (hint_eq : before.tags.objId = u32OfInt hint)
      (next_lies : dev.LiesAt after next 0) (le : hint ≤ next)
      (skipped : ∀ other, hint ≤ other → other < next → dev.blockState other ≠ .empty)

/-- The first page lies in the first erased block. -/
def Starts (dev : Dev Flash) (first : Written) : Prop :=
  ∃ block, dev.LiesAt first block 0 ∧ dev.internalStartBlock ≤ block ∧
    ∀ other, dev.internalStartBlock ≤ other → other < block → dev.blockState other ≠ .empty

/-- The pages, the last one first, form the chain that a reader follows. -/
inductive Chain (dev : Dev Flash) : List Written → Prop
  | nil : Chain dev []
  | first {first : Written} (starts : dev.Starts first) : Chain dev [first]
  | next {before after : Written} {rest : List Written} (chain : Chain dev (before :: rest))
      (follows : dev.Follows before after) : Chain dev (after :: before :: rest)

/-! ## Flushing -/

theorem ceilDiv_succ {size : Nat} (positive : 0 < size) (pages : Nat) :
    (pages + 1) ⌈/⌉ size = pages ⌈/⌉ size + if pages % size = 0 then 1 else 0 := by
  have whole := Nat.div_add_mod pages size
  have rest_lt := Nat.mod_lt pages positive
  set blocks := pages / size
  set rest := pages % size
  rw [Nat.ceilDiv_eq_add_pred_div, Nat.ceilDiv_eq_add_pred_div, ← whole]
  have next : size * blocks + rest + 1 + size - 1 = rest + size * (blocks + 1) := by
    rw [Nat.mul_succ]
    omega
  rw [next, Nat.add_mul_div_left _ _ positive, Nat.div_eq_of_lt rest_lt, Nat.zero_add]
  by_cases first : rest = 0
  · have same : size * blocks + rest + size - 1 = size - 1 + size * blocks := by omega
    rw [same, Nat.add_mul_div_left _ _ positive, Nat.div_eq_of_lt (by omega), if_pos first]
    omega
  · have same : size * blocks + rest + size - 1 = rest - 1 + size * (blocks + 1) := by
      rw [Nat.mul_succ]
      omega
    rw [same, Nat.add_mul_div_left _ _ positive, Nat.div_eq_of_lt (by omega), if_neg first]
    omega

/-- The pages that bytes fill, and one more for the rest. -/
theorem ceilDiv_cases {size : Nat} (positive : 0 < size) (count : Nat) :
    size ∣ count ∧ count ⌈/⌉ size = count / size ∨
      ¬size ∣ count ∧ count ⌈/⌉ size = count / size + 1 := by
  by_cases whole : size ∣ count
  · obtain ⟨pages, rfl⟩ := whole
    have exact_pages : size * pages ⌈/⌉ size = pages := smul_ceilDiv positive pages
    exact .inl ⟨⟨pages, rfl⟩, by rw [exact_pages, Nat.mul_div_cancel_left _ positive]⟩
  · have rest : count % size ≠ 0 := fun rest => whole (Nat.dvd_of_mod_eq_zero rest)
    refine .inr ⟨whole, ?_⟩
    rw [Nat.ceilDiv_eq_add_pred_div]
    have split := Nat.div_add_mod count size
    have next : count + size - 1 = count % size - 1 + size * (count / size + 1) := by
      rw [Nat.mul_succ]
      omega
    have rest_lt := Nat.mod_lt count positive
    rw [next, Nat.add_mul_div_left _ _ positive, Nat.div_eq_of_lt (by omega), Nat.zero_add]

theorem ceilDiv_mul_of_mod {size pages : Nat} (positive : 0 < size) (first : pages % size = 0) :
    pages ⌈/⌉ size * size = pages := by
  obtain ⟨blocks, rfl⟩ := Nat.dvd_of_mod_eq_zero first
  have whole : size * blocks ⌈/⌉ size = blocks := smul_ceilDiv positive blocks
  rw [whole, Nat.mul_comm]

theorem succ_mod_cases {size : Nat} (positive : 0 < size) (pages : Nat) :
    pages % size + 1 = size ∧ (pages + 1) % size = 0 ∨
      pages % size + 1 < size ∧ (pages + 1) % size = pages % size + 1 := by
  have rest_lt := Nat.mod_lt pages positive
  have same : (pages + 1) % size = (pages % size + 1) % size := (Nat.mod_add_mod pages size 1).symm
  rcases Nat.lt_or_ge (pages % size + 1) size with inside | full
  · exact .inr ⟨inside, same.trans (Nat.mod_eq_of_lt inside)⟩
  · have exact_size : pages % size + 1 = size := by omega
    exact .inl ⟨exact_size, by rw [same, exact_size, Nat.mod_self]⟩

/-- What the device has in common with the one that was opened. -/
structure SameStream (opened dev : Dev Flash) : Prop where
  param : dev.param = opened.param
  data : dev.dataBytesPerChunk = opened.dataBytesPerChunk
  startBlock : dev.internalStartBlock = opened.internalStartBlock
  endBlock : dev.internalEndBlock = opened.internalEndBlock
  offset : dev.chunkOffset = opened.chunkOffset
  erased : dev.nErasedBlocks = opened.nErasedBlocks
  writing : dev.checkptOpenWrite = opened.checkptOpenWrite
  swap : dev.swapEndian = opened.swapEndian

/-- The hint is where the search for the next block begins. -/
structure Hint (opened dev : Dev Flash) (blocks next : Nat) : Prop where
  nextBlock : dev.checkptNextBlock = next
  left : (dev.erasedFrom next).length + blocks =
    (opened.erasedFrom opened.internalStartBlock).length
  states : ∀ block, next ≤ block → dev.blockState block = opened.blockState block

/-- So many pages have been written, each with its number. -/
structure Pages (dev : Dev (Flash × List Written)) (pages : Nat) : Prop where
  pageSeq : dev.checkptPageSeq = pages
  count : dev.flash.2.length = pages
  numbered : ∀ i written, dev.flash.2.reverse[i]? = some written → written.tags.chunkId = i + 1
  sequence : ∀ written ∈ dev.flash.2, written.tags.seqNumber = sequenceCheckpointData

/-- A device that has written so many pages to the stream and has got no further. -/
structure Progress (opened dev : Dev (Flash × List Written)) (pages next : Nat) : Prop
    extends SameStream opened dev, Pages dev pages,
      Hint opened dev (pages ⌈/⌉ opened.param.chunksPerBlock) next where
  taken : dev.blocksInCheckpt = pages ⌈/⌉ opened.param.chunksPerBlock
  chain : opened.Chain dev.flash.2
  begins : dev.flash.2 = [] → next = opened.internalStartBlock
  hinted : ∀ last ∈ dev.flash.2.head?, last.tags.objId = u32OfInt next
  place : pages % opened.param.chunksPerBlock = 0 ∧ dev.checkptCurBlock < 0 ∧
      (∀ last ∈ dev.flash.2.head?, ∃ block page, opened.LiesAt last block page ∧
        page + 1 = opened.param.chunksPerBlock) ∨
    ∃ block page : Nat, page + 1 = pages % opened.param.chunksPerBlock ∧
      dev.checkptCurBlock = block ∧ dev.checkptCurChunk = (page + 1 : Nat) ∧
      ∀ last ∈ dev.flash.2.head?, opened.LiesAt last block page

/-- A device with the next page of the stream under the cursor. -/
structure AtPage (opened dev : Dev (Flash × List Written)) (pages next block : Nat) : Prop
    extends SameStream opened dev, Pages dev pages,
      Hint opened dev ((pages + 1) ⌈/⌉ opened.param.chunksPerBlock) next where
  taken : dev.blocksInCheckpt = (pages + 1) ⌈/⌉ opened.param.chunksPerBlock
  curBlock : dev.checkptCurBlock = block
  curChunk : dev.checkptCurChunk = (pages % opened.param.chunksPerBlock : Nat)
  chain : ∀ written : Written,
    opened.LiesAt written block (pages % opened.param.chunksPerBlock) →
      written.tags.objId = u32OfInt next → opened.Chain (written :: dev.flash.2)

/-- The page under the cursor. -/
def pageNow (dev : Dev (Flash × List Written)) : Written where
  chunk := dev.applyChunkOffset dev.checkptChunk
  data := dev.checkptBuffer
  tags := dev.checkptTags
  ok := (T.writeChunkTags dev.flash.1 (dev.applyChunkOffset dev.checkptChunk) dev.checkptBuffer
    dev.checkptTags).1

/-- The device behind a flush of the page under the cursor. -/
def afterPage (dev : Dev (Flash × List Written)) : Dev (Flash × List Written) :=
  let done := dev.programPage T.recording .checkpt dev.checkptChunk dev.checkptBuffer
    dev.checkptTags
  done.2.checkptAdvance.clearCheckptBuffer.checkptInitChunkHdr

variable {T} {opened dev : Dev (Flash × List Written)} {pages next block : Nat}

theorem afterPage_record : (afterPage T dev).flash.2 = pageNow T dev :: dev.flash.2 := rfl

theorem Pages.afterPage (before : Pages dev pages) : Pages (afterPage T dev) (pages + 1) where
  pageSeq := by
    change dev.checkptPageSeq + 1 = pages + 1
    rw [before.pageSeq]
  count := by
    rw [afterPage_record, List.length_cons, before.count]
  numbered := by
    intro i written eq
    rw [afterPage_record, List.reverse_cons] at eq
    rw [List.getElem?_append, List.length_reverse] at eq
    split at eq
    case isTrue => exact before.numbered i written eq
    case isFalse past =>
      have last : i - dev.flash.2.length = 0 := by
        by_contra beyond
        rw [List.getElem?_eq_none (by simp; omega)] at eq
        cases eq
      have position : i = pages := by
        rw [before.count] at past last
        omega
      rw [last] at eq
      obtain rfl : pageNow T dev = written := by simpa using eq
      change dev.checkptPageSeq + 1 = i + 1
      rw [before.pageSeq, position]
  sequence := by
    intro written mem
    rw [afterPage_record] at mem
    rcases List.mem_cons.mp mem with rfl | earlier
    · rfl
    · exact before.sequence written earlier

theorem AtPage.liesAt (at_page : AtPage opened dev pages next block) :
    opened.LiesAt (pageNow T dev) block (pages % opened.param.chunksPerBlock) := by
  change dev.applyChunkOffset dev.checkptChunk = _
  rw [checkptChunk, at_page.curBlock, at_page.curChunk, applyChunkOffset, applyChunkOffset,
    at_page.offset, at_page.param]
  push_cast
  ring

theorem AtPage.objId (at_page : AtPage opened dev pages next block) :
    (pageNow T dev).tags.objId = u32OfInt next :=
  congrArg u32OfInt at_page.nextBlock

/-- The page under the cursor is programmed, and the cursor moves behind it. -/
theorem AtPage.afterPage (at_page : AtPage opened dev pages next block)
    (positive : 0 < opened.param.chunksPerBlock) :
    Progress opened (afterPage T dev) (pages + 1) next := by
  have lies : opened.LiesAt (pageNow T dev) block (pages % opened.param.chunksPerBlock) :=
    at_page.liesAt
  have objId : (pageNow T dev).tags.objId = u32OfInt next := at_page.objId
  refine
    { at_page.toPages.afterPage with
      param := at_page.param
      data := at_page.data
      startBlock := at_page.startBlock
      endBlock := at_page.endBlock
      offset := at_page.offset
      erased := at_page.erased
      writing := at_page.writing
      swap := at_page.swap
      nextBlock := at_page.nextBlock
      left := at_page.left
      states := at_page.states
      taken := at_page.taken
      chain := ?chain
      begins := nofun
      hinted := ?hinted
      place := ?place }
  case chain =>
    rw [afterPage_record]
    exact at_page.chain _ lies objId
  case hinted =>
    rintro last ⟨⟩
    exact objId
  case place =>
    have cur_chunk : (Dev.afterPage T dev).checkptCurChunk =
        if opened.param.chunksPerBlock ≤ pages % opened.param.chunksPerBlock + 1 then 0
        else (pages % opened.param.chunksPerBlock + 1 : Nat) := by
      change (if decide ((dev.param.chunksPerBlock : Int) ≤ dev.checkptCurChunk + 1) = true then 0
        else dev.checkptCurChunk + 1) = _
      rw [at_page.param, at_page.curChunk]
      simp only [decide_eq_true_eq]
      norm_cast
    have cur_block : (Dev.afterPage T dev).checkptCurBlock =
        if opened.param.chunksPerBlock ≤ pages % opened.param.chunksPerBlock + 1 then -1
        else (block : Int) := by
      change (if decide ((dev.param.chunksPerBlock : Int) ≤ dev.checkptCurChunk + 1) = true then -1
        else dev.checkptCurBlock) = _
      rw [at_page.param, at_page.curChunk, at_page.curBlock]
      simp only [decide_eq_true_eq]
      norm_cast
    rcases succ_mod_cases positive pages with ⟨full, next_mod⟩ | ⟨inside, next_mod⟩
    · left
      rw [if_pos full.ge] at cur_block
      refine ⟨next_mod, by rw [cur_block]; decide, ?_⟩
      rintro last ⟨⟩
      exact ⟨block, _, lies, full⟩
    · right
      rw [if_neg (by omega)] at cur_block cur_chunk
      refine ⟨block, _, next_mod.symm, cur_block, cur_chunk, ?_⟩
      rintro last ⟨⟩
      exact lies

/-- The search ends in the first erased block behind the hint. -/
theorem checkptFindErasedBlock_eq {Flash : Type} {dev : Dev Flash} {next : Nat}
    (hint : dev.checkptNextBlock = next)
    (space : 0 < dev.nErasedBlocks - dev.param.nReservedBlocks) :
    dev.checkptFindErasedBlock =
      match dev.erasedFrom next with
      | block :: _ => { dev with checkptNextBlock := block + 1, checkptCurBlock := block }
      | [] => { dev with checkptNextBlock := -1, checkptCurBlock := -1 } := by
  have found : (if 0 ≤ dev.checkptNextBlock ∧ dev.checkptNextBlock ≤ dev.internalEndBlock ∧
      0 < dev.nErasedBlocks - dev.param.nReservedBlocks then
      (List.range' dev.checkptNextBlock.toNat
        (dev.internalEndBlock + 1 - dev.checkptNextBlock.toNat)).find? fun block =>
          decide (dev.blockState block = .empty)
      else none) = (dev.erasedFrom next).head? := by
    rw [hint, Int.toNat_natCast]
    by_cases inside : (next : Int) ≤ dev.internalEndBlock
    · rw [if_pos ⟨by omega, inside, space⟩, erasedFrom, List.head?_filter]
    · have none_left : dev.internalEndBlock + 1 - next = 0 := by omega
      rw [if_neg fun bounds => inside bounds.2.1, erasedFrom, none_left]
      rfl
  simp only [checkptFindErasedBlock, found]
  cases dev.erasedFrom next <;> rfl

/-- The device that has taken over a block. -/
def intoBlock {Flash : Type} (dev : Dev Flash) (block : Nat) : Dev Flash :=
  { dev.setBlockState block .checkpoint with
    checkptNextBlock := block + 1
    checkptCurBlock := block
    checkptCurChunk := 0
    blocksInCheckpt := dev.blocksInCheckpt + 1 }

theorem erasedFrom_intoBlock {Flash : Type} {dev : Dev Flash} {next block : Nat} {rest : List Nat}
    (left : dev.erasedFrom next = block :: rest) :
    (dev.intoBlock block).erasedFrom (block + 1) = rest := by
  obtain ⟨le, inside, -, -, behind⟩ := filter_range'_cons left
  rw [← behind]
  have length : next + (dev.internalEndBlock + 1 - next) - (block + 1) =
      dev.internalEndBlock + 1 - (block + 1) := by
    omega
  rw [length]
  refine List.filter_congr fun other mem => ?_
  have after : block + 1 ≤ other := (List.mem_range'_1.mp mem).1
  have unchanged : (dev.intoBlock block).blockState other = dev.blockState other := by
    change (dev.setBlockState block .checkpoint).blockState other = _
    rw [blockState_setBlockState, if_neg (by omega)]
  rw [unchanged]

/-- A flush in the middle of a block. -/
theorem Progress.flush_inside (progress : Progress opened dev pages next)
    (positive : 0 < opened.param.chunksPerBlock)
    (inside : pages % opened.param.chunksPerBlock ≠ 0) :
    dev.checkptFlushBuffer T.recording = (true, afterPage T dev) ∧
      Progress opened (afterPage T dev) (pages + 1) next := by
  obtain ⟨first, -⟩ | ⟨block, page, page_eq, cur_block, cur_chunk, lies⟩ := progress.place
  · exact absurd first inside
  have same : (pages + 1) ⌈/⌉ opened.param.chunksPerBlock =
      pages ⌈/⌉ opened.param.chunksPerBlock := by
    rw [ceilDiv_succ positive, if_neg inside, Nat.add_zero]
  have at_page : AtPage opened dev pages next block :=
    { progress with
      left := same ▸ progress.left
      taken := same ▸ progress.taken
      curBlock := cur_block
      curChunk := by rw [cur_chunk, page_eq]
      chain := by
        intro written written_lies objId
        cases record : dev.flash.2 with
        | nil =>
          have empty : pages = 0 := by
            rw [← progress.count, record]
            rfl
          rw [empty, Nat.zero_mod] at inside
          exact absurd rfl inside
        | cons last rest =>
          have chain := progress.chain
          rw [record] at chain lies
          have last_hint : last.tags.objId = u32OfInt next :=
            progress.hinted last (by rw [record]; rfl)
          refine .next chain (.inBlock block page (lies last rfl) ?_ ?_ ?_)
          · rwa [page_eq]
          · rw [page_eq]
            exact Nat.mod_lt pages positive
          · rw [objId, last_hint] }
  refine ⟨?_, at_page.afterPage positive⟩
  have entered : dev.checkptEnterBlock = dev := by
    rw [checkptEnterBlock, if_neg (by omega)]
  have took : dev.checkptTakeBlock = dev := by
    rw [checkptTakeBlock, if_neg (by omega)]
  simp only [checkptFlushBuffer, entered, took]
  rw [if_neg (by omega)]
  rfl

/-- A flush at the start of a block. -/
theorem Progress.flush_block (progress : Progress opened dev pages next)
    (positive : 0 < opened.param.chunksPerBlock)
    (space : 0 < opened.nErasedBlocks - opened.param.nReservedBlocks)
    (first : pages % opened.param.chunksPerBlock = 0) {rest : List Nat}
    (left : dev.erasedFrom next = block :: rest) :
    dev.checkptFlushBuffer T.recording = (true, afterPage T (dev.intoBlock block)) ∧
      Progress opened (afterPage T (dev.intoBlock block)) (pages + 1) (block + 1) := by
  obtain ⟨-, outside, last_lies⟩ | ⟨other, page, page_eq, -⟩ := progress.place
  rotate_left
  · omega
  obtain ⟨le, -, empty, skipped, behind⟩ := filter_range'_cons left
  have more : (pages + 1) ⌈/⌉ opened.param.chunksPerBlock =
      pages ⌈/⌉ opened.param.chunksPerBlock + 1 := by
    rw [ceilDiv_succ positive, if_pos first]
  have at_page : AtPage opened (dev.intoBlock block) pages (block + 1) block :=
    { progress.toSameStream, progress.toPages with
      nextBlock := rfl
      left := by
        have same : (dev.intoBlock block).erasedFrom (block + 1) = rest :=
          erasedFrom_intoBlock left
        have total := progress.left
        rw [left, List.length_cons] at total
        rw [same, more]
        omega
      states := by
        intro other after
        have unchanged : (dev.intoBlock block).blockState other = dev.blockState other := by
          change (dev.setBlockState block .checkpoint).blockState other = _
          rw [blockState_setBlockState, if_neg (by omega)]
        rw [unchanged, progress.states other (by omega)]
      taken := by
        change dev.blocksInCheckpt + 1 = _
        rw [progress.taken, more]
      curBlock := rfl
      curChunk := by
        rw [first]
        rfl
      chain := by
        intro written written_lies objId
        rw [first] at written_lies
        change opened.Chain (written :: dev.flash.2)
        have not_erased (other : Nat) (other_le : next ≤ other) (lt : other < block) :
            opened.blockState other ≠ .empty := by
          have still := skipped other other_le lt
          rw [progress.states other other_le] at still
          simpa using still
        cases record : dev.flash.2 with
        | nil =>
          refine .first ⟨block, written_lies, ?_, ?_⟩
          · rw [← progress.begins record]
            exact le
          · rw [← progress.begins record]
            exact not_erased
        | cons last rest =>
          have chain := progress.chain
          rw [record] at chain last_lies
          have last_hint : last.tags.objId = u32OfInt next :=
            progress.hinted last (by rw [record]; rfl)
          obtain ⟨last_block, page, lies, full⟩ := last_lies last rfl
          exact .next chain (.nextBlock last_block page next block lies full last_hint
            written_lies le
            not_erased) }
  refine ⟨?_, at_page.afterPage positive⟩
  have entered : dev.checkptEnterBlock =
      { dev with
        checkptNextBlock := block + 1
        checkptCurBlock := block
        checkptCurChunk := 0 } := by
    have space' : 0 < dev.nErasedBlocks - dev.param.nReservedBlocks := by
      rw [progress.erased, progress.param]
      exact space
    rw [checkptEnterBlock, if_pos outside, checkptFindErasedBlock_eq
      progress.nextBlock space', left]
  simp only [checkptFlushBuffer, entered]
  rw [if_neg (by omega)]
  rfl

/-- A flush that finds no erased block. -/
theorem Progress.flush_none (progress : Progress opened dev pages next)
    (space : 0 < opened.nErasedBlocks - opened.param.nReservedBlocks)
    (first : pages % opened.param.chunksPerBlock = 0) (left : dev.erasedFrom next = []) :
    dev.checkptFlushBuffer T.recording =
      (false, { dev with
        checkptNextBlock := -1
        checkptCurBlock := -1
        checkptCurChunk := 0 }) := by
  obtain ⟨-, outside, -⟩ | ⟨other, page, page_eq, -⟩ := progress.place
  rotate_left
  · omega
  have space' : 0 < dev.nErasedBlocks - dev.param.nReservedBlocks := by
    rw [progress.erased, progress.param]
    exact space
  have entered : dev.checkptEnterBlock =
      { dev with checkptNextBlock := -1, checkptCurBlock := -1, checkptCurChunk := 0 } := by
    rw [checkptEnterBlock, if_pos outside, checkptFindErasedBlock_eq
      progress.nextBlock space', left]
  simp only [checkptFlushBuffer, entered]
  rfl

/-- Pages for which there are erased blocks. -/
def room (opened : Dev Flash) : Nat :=
  (opened.erasedFrom opened.internalStartBlock).length * opened.param.chunksPerBlock

theorem Progress.le_room (progress : Progress opened dev pages next)
    (positive : 0 < opened.param.chunksPerBlock) : pages ≤ opened.room := by
  have enough : pages ≤ opened.param.chunksPerBlock *
      (pages ⌈/⌉ opened.param.chunksPerBlock) := le_smul_ceilDiv positive
  rw [room, ← progress.left, Nat.add_mul, Nat.mul_comm (pages ⌈/⌉ _)]
  omega

/-- What a flush does: it writes one page as long as there is room. -/
theorem Progress.flush (progress : Progress opened dev pages next)
    (positive : 0 < opened.param.chunksPerBlock)
    (space : 0 < opened.nErasedBlocks - opened.param.nReservedBlocks) :
    (pages < opened.room ∧ ∃ at_page next', dev.checkptFlushBuffer T.recording =
        (true, afterPage T at_page) ∧ Progress opened (afterPage T at_page) (pages + 1) next' ∧
        at_page.checkptBuffer = dev.checkptBuffer ∧ at_page.flash = dev.flash ∧
        at_page.dataBytesPerChunk = dev.dataBytesPerChunk) ∨
      opened.room = pages ∧ dev.checkptFlushBuffer T.recording =
        (false, { dev with
          checkptNextBlock := -1
          checkptCurBlock := -1
          checkptCurChunk := 0 }) := by
  have total := progress.left
  by_cases first : pages % opened.param.chunksPerBlock = 0
  · have blocks : pages ⌈/⌉ opened.param.chunksPerBlock * opened.param.chunksPerBlock = pages :=
      ceilDiv_mul_of_mod positive first
    cases left : dev.erasedFrom next with
    | nil =>
      right
      refine ⟨?_, progress.flush_none space first left⟩
      rw [left, List.length_nil, Nat.zero_add] at total
      rw [room, ← total, blocks]
    | cons block rest =>
      left
      obtain ⟨done, after⟩ := progress.flush_block positive space first left
      refine ⟨?_, dev.intoBlock block, block + 1, done, after, rfl, rfl, rfl⟩
      rw [left, List.length_cons] at total
      rw [room, ← total, Nat.add_mul, blocks]
      have some_room : 0 < (rest.length + 1) * opened.param.chunksPerBlock :=
        Nat.mul_pos (Nat.succ_pos _) positive
      omega
  · left
    obtain ⟨done, after⟩ := progress.flush_inside positive first
    refine ⟨?_, dev, next, done, after, rfl, rfl, rfl⟩
    refine Nat.lt_of_le_of_ne (progress.le_room positive) fun same => first ?_
    rw [same, room, Nat.mul_mod_left]

/-! ## Bytes -/

/-- The device after some bytes have been written to the stream. -/
def feed {Flash : Type} (T : Tagger Flash) (bytes : List UInt8) (dev : Dev Flash) : Dev Flash :=
  bytes.foldl (fun dev byte => (dev.checkptWrByte T byte).2) dev

/-- A buffer holds bytes of the stream behind its header. -/
def Carries (buffer : Buf) (bytes : List UInt8) : Prop :=
  ∀ j byte, bytes[j]? = some byte → buffer (checkptChunkHdrSize + j) = byte

/-- The part of the stream that goes to a page. -/
def partOf (size : Nat) (bytes : List UInt8) (page : Nat) : List UInt8 :=
  (bytes.drop (page * size)).take size

theorem partOf_append {size page : Nat} {bytes : List UInt8}
    (full : (page + 1) * size ≤ bytes.length) (more : List UInt8) :
    partOf size (bytes ++ more) page = partOf size bytes page := by
  rw [Nat.add_mul, Nat.one_mul] at full
  rw [partOf, partOf, List.drop_append_of_le_length (by omega),
    List.take_append_of_le_length (by rw [List.length_drop]; omega)]

theorem partOf_concat {size : Nat} (positive : 0 < size) (bytes : List UInt8) (byte : UInt8) :
    partOf size (bytes ++ [byte]) (bytes.length / size) =
      partOf size bytes (bytes.length / size) ++ [byte] := by
  have whole := Nat.div_add_mod' bytes.length size
  have rest_lt := Nat.mod_lt bytes.length positive
  rw [partOf, partOf, List.drop_append_of_le_length (by omega), List.take_of_length_le,
    List.take_of_length_le]
  · rw [List.length_drop]
    omega
  · rw [List.length_append, List.length_drop, List.length_singleton]
    omega

theorem length_partOf {size : Nat} (positive : 0 < size) (bytes : List UInt8) :
    (partOf size bytes (bytes.length / size)).length = bytes.length % size := by
  have whole := Nat.div_add_mod' bytes.length size
  have rest_lt := Nat.mod_lt bytes.length positive
  rw [partOf, List.length_take, List.length_drop]
  omega

theorem Carries.nil (buffer : Buf) : Carries buffer [] := nofun

theorem Carries.concat {buffer : Buf} {bytes : List UInt8} (carries : Carries buffer bytes)
    (byte : UInt8) :
    Carries (Function.update buffer (checkptChunkHdrSize + bytes.length) byte)
      (bytes ++ [byte]) := by
  intro j other eq
  rw [List.getElem?_append] at eq
  split at eq
  case isTrue before =>
    rw [Function.update_of_ne (by omega)]
    exact carries j other eq
  case isFalse past =>
    have last : j = bytes.length := by
      by_contra beyond
      rw [List.getElem?_eq_none (by rw [List.length_singleton]; omega)] at eq
      cases eq
    subst last
    rw [Nat.sub_self] at eq
    rw [Function.update_self]
    exact Option.some.inj eq

/-- A buffer holds a page: its number in the header, and bytes of the stream behind it. -/
structure PageHolds (opened : Dev Flash) (page : Nat) (bytes : List UInt8)
    (buffer : Buf) : Prop where
  header : buffer.word opened.swapEndian 4 = page % 2 ^ 32
  carries : Carries buffer (partOf opened.payload bytes page)

/-- The pages that have been written hold the parts of the stream. -/
def Carried (opened dev : Dev (Flash × List Written)) (bytes : List UInt8) : Prop :=
  ∀ i written, dev.flash.2.reverse[i]? = some written → ∃ buffer, written.data = some buffer ∧
    PageHolds opened i bytes buffer

theorem word_store_header {swap : Bool} (front word : Nat) (back : List Nat) (buffer : Buf) :
    (buffer.store ((front :: word :: back).flatMap (Words.bytes swap 4))).word swap 4 =
      word % 2 ^ 32 := by
  have stored : (List.range 4).map (fun i =>
      buffer.store ((front :: word :: back).flatMap (Words.bytes swap 4)) (4 + i)) =
      Words.bytes swap 4 word := by
    refine List.ext_getElem (by simp) fun i i_lt i_lt' => ?_
    have inside : i < 4 := by simpa using i_lt
    simp only [Buf.store, List.flatMap_cons, List.getElem_map, List.getElem_range]
    rw [List.getD_eq_getElem?_getD, List.getElem?_append_right (by simp), Words.length_bytes,
      Nat.add_sub_cancel_left, List.getElem?_append_left (by simpa using inside),
      List.getElem?_eq_getElem i_lt', Option.getD_some]
  rw [Buf.word, stored, Words.value_bytes, show (256 : Nat) ^ 4 = 2 ^ 32 by decide]

/-- A byte behind the header leaves the header as it is. -/
theorem word_update {swap : Bool} {buffer : Buf} {offset : Nat} (behind : 8 ≤ offset)
    (byte : UInt8) :
    Buf.word (Function.update buffer offset byte) swap 4 = buffer.word swap 4 := by
  rw [Buf.word, Buf.word]
  congr 1
  refine List.map_congr_left fun i mem => ?_
  have inside := List.mem_range.mp mem
  rw [Function.update_of_ne (by omega)]

/-- A device to which bytes of the stream have been written, and no flush has failed. -/
structure Filling (opened dev : Dev (Flash × List Written)) (bytes : List UInt8) : Prop where
  progress : ∃ next, Progress opened dev (bytes.length / opened.payload) next
  byteOffs : dev.checkptByteOffs = checkptChunkHdrSize + bytes.length % opened.payload
  buffer : ∃ buffer, dev.checkptBuffer = some buffer ∧
    PageHolds opened (bytes.length / opened.payload) bytes buffer
  carried : Carried opened dev bytes

/-- A device in which a flush has found no erased block.  Every further byte is lost. -/
structure Lost (opened dev : Dev (Flash × List Written)) (bytes : List UInt8) : Prop
    extends SameStream opened dev, Pages dev opened.room where
  nextBlock : dev.checkptNextBlock < 0
  curBlock : dev.checkptCurBlock < 0
  byteOffs : dev.dataBytesPerChunk ≤ dev.checkptByteOffs
  bytes : opened.room < bytes.length / opened.payload
  buffer : dev.checkptBuffer.isSome
  taken : dev.blocksInCheckpt = opened.room ⌈/⌉ opened.param.chunksPerBlock

/-- The stream is open for writing, nothing has been written to it, and an erased block is left over
after the reserve. -/
structure NewStream (opened : Dev (Flash × List Written)) : Prop where
  header : checkptChunkHdrSize < opened.dataBytesPerChunk
  positive : 0 < opened.param.chunksPerBlock
  space : 0 < opened.nErasedBlocks - opened.param.nReservedBlocks
  writing : opened.checkptOpenWrite = true
  buffer : ∃ buffer, opened.checkptBuffer = some buffer ∧ buffer.word opened.swapEndian 4 = 0
  pageSeq : opened.checkptPageSeq = 0
  curBlock : opened.checkptCurBlock = -1
  nextBlock : opened.checkptNextBlock = opened.internalStartBlock
  byteOffs : opened.checkptByteOffs = checkptChunkHdrSize
  blocks : opened.blocksInCheckpt = 0
  record : opened.flash.2 = []

theorem NewStream.filling (ready : NewStream opened) : Filling opened opened [] where
  progress := by
    refine ⟨opened.internalStartBlock, ?_⟩
    have none_yet : ([] : List UInt8).length / opened.payload = 0 := Nat.zero_div _
    rw [none_yet]
    exact
      { param := rfl
        data := rfl
        startBlock := rfl
        endBlock := rfl
        offset := rfl
        erased := rfl
        writing := rfl
        swap := rfl
        pageSeq := ready.pageSeq
        count := by rw [ready.record]; rfl
        numbered := by
          intro i written eq
          rw [ready.record] at eq
          cases eq
        sequence := by
          intro written mem
          rw [ready.record] at mem
          cases mem
        nextBlock := ready.nextBlock
        left := by rw [zero_ceilDiv, Nat.add_zero]
        states := fun _ _ => rfl
        taken := by rw [ready.blocks, zero_ceilDiv]
        chain := by rw [ready.record]; exact .nil
        begins := fun _ => rfl
        hinted := by
          intro last mem
          simp [ready.record] at mem
        place := by
          refine .inl ⟨Nat.zero_mod _, by rw [ready.curBlock]; decide, fun last mem => ?_⟩
          simp [ready.record] at mem }
  byteOffs := by rw [ready.byteOffs, List.length_nil, Nat.zero_mod, Nat.add_zero]
  buffer := by
    obtain ⟨buffer, eq, header⟩ := ready.buffer
    exact ⟨buffer, eq, by simpa using header, by simp [partOf, Carries]⟩
  carried := by
    intro i written eq
    rw [ready.record] at eq
    cases eq

theorem Progress.putByte (progress : Progress opened dev pages next) (byte : UInt8) :
    Progress opened (dev.checkptPutByte byte) pages next :=
  { progress with }

theorem payload_pos (ready : NewStream opened) : 0 < opened.payload := by
  have header := ready.header
  rw [payload]
  omega

/-- The number of the page and the place in it after one byte more. -/
theorem place_succ {size : Nat} (positive : 0 < size) (count : Nat) :
    count % size + 1 = size ∧ (count + 1) % size = 0 ∧ (count + 1) / size = count / size + 1 ∨
      count % size + 1 < size ∧ (count + 1) % size = count % size + 1 ∧
        (count + 1) / size = count / size := by
  rcases succ_mod_cases positive count with ⟨full, first⟩ | ⟨inside, next⟩
  · exact .inl ⟨full, first, Nat.succ_div_of_mod_eq_zero first⟩
  · exact .inr ⟨inside, next, Nat.succ_div_of_mod_ne_zero (by omega)⟩

/-- The byte goes into the buffer. -/
theorem Filling.putByte {bytes : List UInt8} (filling : Filling opened dev bytes)
    (ready : NewStream opened) (byte : UInt8) :
    ∃ buffer, (dev.checkptPutByte byte).checkptBuffer = some buffer ∧
      PageHolds opened (bytes.length / opened.payload) (bytes ++ [byte]) buffer := by
  obtain ⟨buffer, eq, header, carries⟩ := filling.buffer
  refine ⟨Function.update buffer dev.checkptByteOffs byte, ?_, ?_, ?_⟩
  · simp only [checkptPutByte, eq, Option.map_some]
  · rw [word_update, header]
    rw [filling.byteOffs, checkptChunkHdrSize]
    omega
  · rw [partOf_concat (payload_pos ready), filling.byteOffs,
      ← length_partOf (payload_pos ready) bytes]
    exact carries.concat byte

theorem Carried.append {bytes : List UInt8} (carried : Carried opened dev bytes)
    (count : dev.flash.2.length = bytes.length / opened.payload) (more : List UInt8) :
    Carried opened dev (bytes ++ more) := by
  intro i written eq
  have i_lt : i < dev.flash.2.reverse.length := by
    by_contra beyond
    rw [List.getElem?_eq_none (by omega)] at eq
    cases eq
  rw [List.length_reverse, count] at i_lt
  have full : (i + 1) * opened.payload ≤ bytes.length :=
    (Nat.mul_le_mul_right _ i_lt).trans (Nat.div_mul_le_self _ _)
  obtain ⟨buffer, data, header, carries⟩ := carried i written eq
  refine ⟨buffer, data, header, ?_⟩
  rwa [partOf_append full]

/-- One more page has been written. -/
theorem Carried.page {at_page : Dev (Flash × List Written)} {bytes : List UInt8} {buffer : Buf}
    (carried : Carried opened dev bytes) (flash : at_page.flash = dev.flash)
    (data : at_page.checkptBuffer = some buffer)
    (holds : PageHolds opened dev.flash.2.length bytes buffer) :
    Carried opened (afterPage T at_page) bytes := by
  intro i written eq
  rw [afterPage_record, flash, List.reverse_cons, List.getElem?_append, List.length_reverse] at eq
  split at eq
  case isTrue => exact carried i written eq
  case isFalse past =>
    have last : i = dev.flash.2.length := by
      by_contra beyond
      rw [List.getElem?_eq_none (by rw [List.length_singleton]; omega)] at eq
      cases eq
    subst last
    rw [Nat.sub_self] at eq
    obtain rfl : pageNow T at_page = written := Option.some.inj eq
    exact ⟨buffer, data, holds⟩

theorem afterPage_byteOffs : (afterPage T dev).checkptByteOffs = checkptChunkHdrSize := rfl

/-- The next page is empty but for its header. -/
theorem afterPage_buffer {buffer : Buf} (data : dev.checkptBuffer = some buffer) :
    ∃ fresh, (afterPage T dev).checkptBuffer = some fresh ∧
      fresh.word dev.swapEndian 4 = (dev.checkptPageSeq + 1) % 2 ^ 32 := by
  refine ⟨_, ?_, word_store_header checkpointVersion (dev.checkptPageSeq + 1)
    [dev.checkptSum, dev.checkptXor] (buffer.clear dev.dataBytesPerChunk)⟩
  change (dev.checkptBuffer.map _).map _ = _
  rw [data]
  rfl

/-- One byte is written: the stream goes on, or the page that it fills finds no room. -/
theorem Filling.wrByte {bytes : List UInt8} (filling : Filling opened dev bytes)
    (ready : NewStream opened) (byte : UInt8) :
    (dev.checkptWrByte T.recording byte).1 = true ∧
        Filling opened (dev.checkptWrByte T.recording byte).2 (bytes ++ [byte]) ∨
      (dev.checkptWrByte T.recording byte).1 = false ∧
        Lost opened (dev.checkptWrByte T.recording byte).2 (bytes ++ [byte]) := by
  obtain ⟨next, progress⟩ := filling.progress
  obtain ⟨buffer, buffer_eq, holds⟩ := filling.putByte ready byte
  have put := progress.putByte byte
  have header := ready.header
  have size : opened.payload + checkptChunkHdrSize = opened.dataBytesPerChunk := by
    rw [payload]
    omega
  have offs : (dev.checkptPutByte byte).checkptByteOffs =
      checkptChunkHdrSize + bytes.length % opened.payload + 1 := by
    change dev.checkptByteOffs + 1 = _
    rw [filling.byteOffs]
  have carried : Carried opened (dev.checkptPutByte byte) (bytes ++ [byte]) :=
    filling.carried.append progress.count [byte]
  have length : (bytes ++ [byte]).length = bytes.length + 1 := by
    rw [List.length_append, List.length_singleton]
  rcases place_succ (payload_pos ready) bytes.length with
    ⟨full, first, page⟩ | ⟨inside, rest, page⟩
  · have flushes : dev.checkptWrByte T.recording byte =
        (dev.checkptPutByte byte).checkptFlushBuffer T.recording := by
      simp only [checkptWrByte]
      rw [if_pos]
      rw [offs, put.data]
      omega
    rw [flushes]
    obtain ⟨-, at_page, next', done, after, data, flash, -⟩ | ⟨none_left, failed⟩ :=
      put.flush (T := T) ready.positive ready.space
    · left
      rw [done]
      refine ⟨rfl, ⟨next', ?_⟩, ?_, ?_, ?_⟩
      · rwa [length, page]
      · rw [afterPage_byteOffs, length, first, Nat.add_zero]
      · obtain ⟨fresh, fresh_eq, header⟩ := afterPage_buffer (T := T) (data.trans buffer_eq)
        have nothing : partOf opened.payload (bytes ++ [byte])
            ((bytes ++ [byte]).length / opened.payload) = [] := by
          rw [← List.length_eq_zero_iff, length_partOf (payload_pos ready), length, first]
        refine ⟨fresh, fresh_eq, ?_, ?_⟩
        · have page_seq : at_page.checkptPageSeq + 1 = bytes.length / opened.payload + 1 :=
            after.pageSeq
          have swap : at_page.swapEndian = opened.swapEndian := after.swap
          rw [← swap, header, page_seq, length, page]
        · rw [nothing]
          exact Carries.nil fresh
      · refine carried.page flash (data.trans buffer_eq) ?_
        rw [put.count]
        exact holds
    · right
      rw [failed]
      exact ⟨rfl, { put.toSameStream with
        pageSeq := put.pageSeq.trans none_left.symm
        count := put.count.trans none_left.symm
        numbered := put.numbered
        sequence := put.sequence
        nextBlock := (by decide : (-1 : Int) < 0)
        curBlock := (by decide : (-1 : Int) < 0)
        byteOffs := by
          change (dev.checkptPutByte byte).dataBytesPerChunk ≤
            (dev.checkptPutByte byte).checkptByteOffs
          rw [offs, put.data]
          omega
        bytes := by
          rw [length, page, none_left]
          exact Nat.lt_succ_self _
        buffer := by
          change (dev.checkptPutByte byte).checkptBuffer.isSome
          rw [buffer_eq]
          rfl
        taken := by
          rw [none_left]
          exact put.taken }⟩
  · left
    have stays : dev.checkptWrByte T.recording byte = (true, dev.checkptPutByte byte) := by
      simp only [checkptWrByte]
      rw [if_neg]
      rw [offs, put.data]
      omega
    rw [stays]
    refine ⟨rfl, ⟨next, ?_⟩, ?_, ⟨buffer, buffer_eq, ?_⟩, carried⟩
    · rwa [length, page]
    · rw [offs, length, rest, Nat.add_assoc]
    · rwa [length, page]

/-- A flush without a block, and without a hint where to look for one. -/
theorem checkptFlushBuffer_nowhere {Flash : Type} {T : Tagger Flash} {dev : Dev Flash}
    (next : dev.checkptNextBlock < 0) (cur : dev.checkptCurBlock < 0) :
    dev.checkptFlushBuffer T =
      (false, { dev with
        checkptNextBlock := -1
        checkptCurBlock := -1
        checkptCurChunk := 0 }) := by
  have outside : ¬(0 ≤ dev.checkptNextBlock ∧ dev.checkptNextBlock ≤ dev.internalEndBlock ∧
      0 < dev.nErasedBlocks - dev.param.nReservedBlocks) :=
    fun bounds => absurd next (not_lt.mpr bounds.1)
  have none_found : dev.checkptFindErasedBlock =
      { dev with
        checkptNextBlock := -1
        checkptCurBlock := -1 } := by
    simp only [checkptFindErasedBlock, if_neg outside]
  simp only [checkptFlushBuffer, checkptEnterBlock, none_found]
  rw [if_pos cur]
  rfl

/-- A byte that is written after the stream has been lost. -/
theorem Lost.wrByte {bytes : List UInt8} (lost : Lost opened dev bytes) (byte : UInt8) :
    (dev.checkptWrByte T.recording byte).1 = false ∧
      Lost opened (dev.checkptWrByte T.recording byte).2 (bytes ++ [byte]) := by
  have full : (dev.checkptPutByte byte).dataBytesPerChunk ≤
      (dev.checkptPutByte byte).checkptByteOffs :=
    lost.byteOffs.trans (Nat.le_succ _)
  have failed : dev.checkptWrByte T.recording byte =
      (false, { dev.checkptPutByte byte with
        checkptNextBlock := -1
        checkptCurBlock := -1
        checkptCurChunk := 0 }) := by
    simp only [checkptWrByte]
    rw [if_pos full]
    exact @checkptFlushBuffer_nowhere _ _ (dev.checkptPutByte byte) lost.nextBlock lost.curBlock
  rw [failed]
  exact ⟨rfl, { lost.toSameStream, lost.toPages with
    nextBlock := (by decide : (-1 : Int) < 0)
    curBlock := (by decide : (-1 : Int) < 0)
    byteOffs := full
    bytes := by
      refine lost.bytes.trans_le (Nat.div_le_div_right ?_)
      rw [List.length_append]
      exact Nat.le_add_right _ _
    buffer := by
      change (dev.checkptBuffer.map _).isSome = true
      rw [Option.isSome_map]
      exact lost.buffer
    taken := lost.taken }⟩

/-- The stream after some bytes: all pages have found room, or it has been lost. -/
theorem filling_or_lost (ready : NewStream opened) (bytes : List UInt8) :
    Filling opened (feed T.recording bytes opened) bytes ∨
      Lost opened (feed T.recording bytes opened) bytes := by
  induction bytes using List.reverseRecOn with
  | nil => exact .inl ready.filling
  | append_singleton bytes byte ih =>
    rw [feed, List.foldl_append]
    rcases ih with filling | lost
    · rcases filling.wrByte ready byte with ⟨-, filling⟩ | ⟨-, lost⟩
      · exact .inl filling
      · exact .inr lost
    · exact .inr (lost.wrByte byte).2

end Dev

end Yaffs
