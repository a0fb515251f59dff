import Yaffs.CheckpointSizes

/-!
# Reading a checkpoint back

A reader follows the chain of the pages.  It loads a page whose tags are the ones it expects without
a look at the header, and leaves the offset in the buffer where it was.
-/

namespace Yaffs

namespace Dev

variable {Flash : Type} (T : Tagger Flash)

/-! ## Restoring -/

/-- Read memory from the stream, one call after the other, until one delivers too little. -/
def rdCalls : List Nat → Dev Flash → Bool × Dev Flash
  | [], dev => (true, dev)
  | size :: rest, dev =>
    let read := dev.checkptRd T size
    if read.1.1 = size then rdCalls rest read.2 else (false, read.2)

/-- Open the stream for reading, read from it and close it. -/
def restore (sizes : List Nat) (dev : Dev Flash) : Bool × Dev Flash :=
  let opened := dev.checkptOpen T false
  let read := rdCalls T sizes opened.2
  let closed := read.2.checkptClose T
  (opened.1 && read.1 && closed.1, closed.2)

/-- The first page of a block is in the record. -/
def Holds (saved : Dev (Flash × List Written)) (offset block : Nat) : Prop :=
  ∃ written ∈ saved.flash.2,
    written.chunk = (block * saved.param.chunksPerBlock : Nat) - (offset : Int)

/-- A flash that gives back the pages of a record as they have been written.  No other page can be
taken for a page of a checkpoint, and reading leaves the flash as it is. -/
structure ReadsBack (saved : Dev (Flash × List Written)) : Prop where
  read : ∀ chunk, (T.readChunkTags saved.flash.1 chunk).2 = saved.flash.1
  query : ∀ block, (T.queryBlock saved.flash.1 block).2 = saved.flash.1
  tags : ∀ written ∈ saved.flash.2,
    let found := (T.readChunkTags saved.flash.1 written.chunk).1.2.2
    found.chunkId = written.tags.chunkId ∧ found.seqNumber = written.tags.seqNumber ∧
      found.eccResult.code ≤ EccResult.fixed.code
  data : ∀ written ∈ saved.flash.2, ∀ buffer, written.data = some buffer →
    ∀ i, i < saved.param.totalBytesPerChunk →
      (T.readChunkTags saved.flash.1 written.chunk).1.2.1 i = buffer i
  others : ∀ chunk, (∀ written ∈ saved.flash.2, written.chunk ≠ chunk) →
    let page := (T.readChunkTags saved.flash.1 chunk).1
    page.2.2.seqNumber ≠ sequenceCheckpointData ∧
      page.2.1.word saved.swapEndian 0 ≠ checkpointVersion

/-- A flash on which a reader that counts pages from an offset finds the pages of a record and their
headers.  No other page carries checkpoint tags, and none in the blocks of the record looks like a
page of a checkpoint. -/
structure FindsPages (saved : Dev (Flash × List Written)) (offset : Nat) : Prop where
  read : ∀ chunk, (T.readChunkTags saved.flash.1 chunk).2 = saved.flash.1
  query : ∀ block, (T.queryBlock saved.flash.1 block).2 = saved.flash.1
  tags : ∀ written ∈ saved.flash.2,
    let found := (T.readChunkTags saved.flash.1 written.chunk).1.2.2
    found.chunkId = written.tags.chunkId ∧ found.seqNumber = written.tags.seqNumber ∧
      found.eccResult.code ≤ EccResult.fixed.code
  header : ∀ written ∈ saved.flash.2, ∀ buffer, written.data = some buffer →
    ∀ i, i < checkptChunkHdrSize →
      (T.readChunkTags saved.flash.1 written.chunk).1.2.1 i = buffer i
  others : ∀ chunk, (∀ written ∈ saved.flash.2, written.chunk ≠ chunk) →
    (T.readChunkTags saved.flash.1 chunk).1.2.2.seqNumber ≠ sequenceCheckpointData
  blank : ∀ block page : Nat, page < saved.param.chunksPerBlock → saved.Holds offset block →
    let chunk : Int := (block * saved.param.chunksPerBlock + page : Nat) - offset
    (∀ written ∈ saved.flash.2, written.chunk ≠ chunk) →
      (T.readChunkTags saved.flash.1 chunk).1.2.1.word saved.swapEndian 0 ≠ checkpointVersion

/-- A device on the flash of another one, with the same layout. -/
structure SameFlash (saved : Dev (Flash × List Written)) (dev : Dev Flash) : Prop where
  flash : dev.flash = saved.flash.1
  param : dev.param = saved.param
  swap : dev.swapEndian = saved.swapEndian

/-- A device that reads the stream and has loaded so many pages, one for each byte. -/
structure Reads (saved : Dev (Flash × List Written)) (offset : Nat) (dev : Dev Flash)
    (pages : Nat) : Prop extends SameFlash saved dev where
  chunkOffset : dev.chunkOffset = offset
  buffer : dev.checkptBuffer.isSome
  reading : dev.checkptOpenWrite = false
  pageSeq : dev.checkptPageSeq = pages
  behind : dev.dataBytesPerChunk ≤ dev.checkptByteOffs
  le : pages ≤ saved.flash.2.length

/-- The reader is in a block of the record. -/
def InBlock (saved : Dev (Flash × List Written)) (offset : Nat) (dev : Dev Flash) : Prop :=
  ∃ block : Nat, dev.checkptCurBlock = block ∧ saved.Holds offset block

/-- The reader has entered the blocks of the pages it has loaded. -/
structure Between (saved : Dev (Flash × List Written)) (offset : Nat) (dev : Dev Flash)
    (pages : Nat) : Prop extends Reads saved offset dev pages where
  taken : dev.blocksInCheckpt = pages ⌈/⌉ saved.param.chunksPerBlock
  place : dev.checkptCurBlock < 0 ∧ pages % saved.param.chunksPerBlock = 0 ∨
    InBlock saved offset dev ∧ pages % saved.param.chunksPerBlock ≠ 0 ∧
      dev.checkptCurChunk = (pages % saved.param.chunksPerBlock : Nat)

/-- The reader has the next page under the cursor. -/
structure Before (saved : Dev (Flash × List Written)) (offset : Nat) (dev : Dev Flash)
    (pages : Nat) : Prop extends Reads saved offset dev pages where
  taken : dev.blocksInCheckpt = (pages + 1) ⌈/⌉ saved.param.chunksPerBlock
  inBlock : InBlock saved offset dev
  curChunk : dev.checkptCurChunk = (pages % saved.param.chunksPerBlock : Nat)

variable {T} {saved : Dev (Flash × List Written)} {dev : Dev Flash} {offset pages : Nat}

/-- A flash that reads back finds the pages. -/
theorem ReadsBack.findsPages (reads_back : ReadsBack T saved)
    (header : checkptChunkHdrSize ≤ saved.param.totalBytesPerChunk) (offset : Nat) :
    FindsPages T saved offset where
  read := reads_back.read
  query := reads_back.query
  tags := reads_back.tags
  header written mem buffer data i i_lt :=
    reads_back.data written mem buffer data i (i_lt.trans_le header)
  others chunk other := (reads_back.others chunk other).1
  blank _ _ _ _ other := (reads_back.others _ other).2

/-- The search leaves the device as it is, and finds a block of the record. -/
theorem checkptFindBlockFrom_same (finds : FindsPages T saved offset)
    (reads : Reads saved offset dev pages) (blocks : List Nat) :
    (checkptFindBlockFrom T blocks dev).2 = dev ∧
      ∀ found ∈ (checkptFindBlockFrom T blocks dev).1, saved.Holds offset found.1 := by
  have same (answer : Flash) (eq : answer = dev.flash) : { dev with flash := answer } = dev := by
    rw [eq]
  induction blocks with
  | nil => exact ⟨rfl, nofun⟩
  | cons block rest ih =>
    have page : (dev.readPage T (block * dev.param.chunksPerBlock)).2 = dev :=
      same _ (by rw [reads.flash]; exact finds.read _)
    have state : (dev.queryBlock T block).2 = dev :=
      same _ (by rw [reads.flash]; exact finds.query _)
    simp only [checkptFindBlockFrom, page]
    split
    · exact ih
    case isFalse checkpt =>
      split
      · rw [state]
        exact ih
      · refine ⟨state, ?_⟩
        rintro _ ⟨⟩
        by_contra none_held
        have unheld : ∀ written ∈ saved.flash.2,
            written.chunk ≠ dev.applyChunkOffset (block * dev.param.chunksPerBlock) := by
          intro written mem eq
          refine none_held ⟨written, mem, ?_⟩
          rw [eq, applyChunkOffset, reads.chunkOffset, reads.param]
          push_cast
          rfl
        have unlike := finds.others _ unheld
        rw [← reads.flash] at unlike
        exact checkpt unlike

/-- The reader goes to a block of the record, or to none. -/
theorem checkptFindBlock_cases (finds : FindsPages T saved offset)
    (reads : Reads saved offset dev pages) :
    (dev.checkptFindBlock T).checkptCurBlock < 0 ∨
      ∃ (block : Nat) (next : Int), saved.Holds offset block ∧ dev.checkptFindBlock T =
        { dev with
          checkptNextBlock := next
          checkptCurBlock := block
          checkptBlockList := dev.checkptBlockList.map (·.set dev.blocksInCheckpt block)
          blocksInCheckpt := dev.blocksInCheckpt + 1 } := by
  obtain ⟨same, holds⟩ := checkptFindBlockFrom_same finds reads
    (List.range' (u32OfInt dev.checkptNextBlock)
      (dev.internalEndBlock + 1 - u32OfInt dev.checkptNextBlock))
  simp only [checkptFindBlock]
  by_cases more : dev.blocksInCheckpt < dev.checkptMaxBlocks
  · rw [if_pos more, same]
    split
    case h_1 block hint found => exact .inr ⟨block, _, holds (block, hint) found, rfl⟩
    · exact .inl (by decide : (-1 : Int) < 0)
  · rw [if_neg more]
    exact .inl (by decide : (-1 : Int) < 0)

theorem InBlock.nonneg (in_block : InBlock saved offset dev) : ¬dev.checkptCurBlock < 0 := by
  obtain ⟨block, eq, -⟩ := in_block
  rw [eq]
  exact not_lt.mpr (Int.natCast_nonneg block)

/-- Seeking ends before the next page, or finds no block. -/
theorem Between.seek (between : Between saved offset dev pages) (finds : FindsPages T saved offset)
    (positive : 0 < saved.param.chunksPerBlock) :
    (dev.checkptSeekBlock T).checkptCurBlock < 0 ∨
      Before saved offset (dev.checkptSeekBlock T) pages := by
  have one_more := ceilDiv_succ positive pages
  rw [checkptSeekBlock]
  rcases between.place with ⟨outside, first⟩ | ⟨inside, not_first, chunk⟩
  · rw [if_pos outside]
    rcases checkptFindBlock_cases finds between.toReads with nowhere | ⟨block, next, holds, eq⟩
    · exact .inl nowhere
    · right
      rw [if_pos first] at one_more
      rw [eq]
      exact { between with
        taken := by
          change dev.blocksInCheckpt + 1 = _
          rw [between.taken, one_more]
        inBlock := ⟨block, rfl, holds⟩
        curChunk := by
          rw [first]
          rfl }
  · right
    rw [if_neg inside.nonneg]
    rw [if_neg not_first] at one_more
    exact { between with
      taken := by rw [between.taken, one_more, Nat.add_zero]
      inBlock := inside
      curChunk := chunk }

/-! ## Loading a page -/

/-- A record whose pages carry their numbers, in the tags and in the header. -/
structure Ordered (saved : Dev (Flash × List Written)) : Prop where
  bounded : saved.flash.2.length < 2 ^ 31
  header : checkptChunkHdrSize ≤ saved.param.totalBytesPerChunk
  page : ∀ i written, saved.flash.2.reverse[i]? = some written →
    written.tags.chunkId = i + 1 ∧ written.tags.seqNumber = sequenceCheckpointData ∧
      ∃ buffer, written.data = some buffer ∧ buffer.word saved.swapEndian 4 = i % 2 ^ 32

theorem word_congr {swap : Bool} {first second : Buf} {offset : Nat}
    (agree : ∀ i < 4, first (offset + i) = second (offset + i)) :
    first.word swap offset = second.word swap offset := by
  rw [Buf.word, Buf.word]
  congr 1
  exact List.map_congr_left fun i mem => agree i (List.mem_range.mp mem)

/-- The header in the buffer is the one of the page that the reader expects. -/
theorem checkptCheckChunkHdr_words {buffer : Buf} (eq : dev.checkptBuffer = some buffer)
    (checked : dev.checkptCheckChunkHdr.1 = true) :
    buffer.word dev.swapEndian 0 = checkpointVersion ∧
      buffer.word dev.swapEndian 4 = dev.checkptPageSeq % 2 ^ 32 := by
  simp only [checkptCheckChunkHdr, eq] at checked
  have words : [0, 1, 2, 3].map (fun i => buffer.word dev.swapEndian (4 * i)) =
      dev.checkptChunkHdr.map (· % 2 ^ 32) := of_decide_eq_true checked
  rw [checkptChunkHdr] at words
  obtain ⟨version, rest⟩ := List.cons.inj words
  obtain ⟨page, -⟩ := List.cons.inj rest
  exact ⟨version, page⟩

/-- A page is loaded only if it is the next one of the record, and the offset stays where it is. -/
theorem Before.loads (before : Before saved offset dev pages) (finds : FindsPages T saved offset)
    (ordered : Ordered saved) (positive : 0 < saved.param.chunksPerBlock)
    (passes : let answer :=
        (T.readChunkTags saved.flash.1 (dev.applyChunkOffset dev.checkptChunk)).1
      dev.checkptTagsDiffer answer.2.2 = true →
        (dev.fillCheckptBuffer answer.2.1).checkptCheckChunkHdr.1 = true) :
    dev.checkptTagsDiffer
        (T.readChunkTags saved.flash.1 (dev.applyChunkOffset dev.checkptChunk)).1.2.2 = false ∧
      pages < saved.flash.2.length := by
  obtain ⟨block, block_eq, block_holds⟩ := before.inBlock
  have chunk_eq : dev.applyChunkOffset dev.checkptChunk =
      (block * saved.param.chunksPerBlock + pages % saved.param.chunksPerBlock : Nat) - offset := by
    rw [checkptChunk, applyChunkOffset, block_eq, before.curChunk, before.chunkOffset, before.param]
    push_cast
    rfl
  dsimp only at passes
  generalize dev.applyChunkOffset dev.checkptChunk = chunk at chunk_eq passes ⊢
  obtain ⟨old, old_eq⟩ := Option.isSome_iff_exists.mp before.buffer
  set content := (T.readChunkTags saved.flash.1 chunk).1.2.1
  set tags := (T.readChunkTags saved.flash.1 chunk).1.2.2
  have filled : (dev.fillCheckptBuffer content).checkptBuffer =
      some fun i => if i < dev.param.totalBytesPerChunk then content i else old i := by
    simp only [fillCheckptBuffer, old_eq, Option.map_some]
  have same_words (offset : Nat) (inside : offset + 4 ≤ checkptChunkHdrSize) :
      Buf.word (fun i => if i < dev.param.totalBytesPerChunk then content i else old i)
        dev.swapEndian offset = content.word saved.swapEndian offset := by
    rw [before.swap]
    refine word_congr fun i i_lt => if_pos ?_
    have header := ordered.header
    rw [before.param]
    omega
  have header_words (differ : dev.checkptTagsDiffer tags = true) :
      content.word saved.swapEndian 0 = checkpointVersion ∧
        content.word saved.swapEndian 4 = pages % 2 ^ 32 := by
    obtain ⟨version, number⟩ := checkptCheckChunkHdr_words filled (passes differ)
    rw [show (dev.fillCheckptBuffer content).swapEndian = dev.swapEndian from rfl,
      same_words 0 (by decide)] at version
    rw [show (dev.fillCheckptBuffer content).swapEndian = dev.swapEndian from rfl,
      show (dev.fillCheckptBuffer content).checkptPageSeq = dev.checkptPageSeq from rfl,
      before.pageSeq, same_words 4 (by decide)] at number
    exact ⟨version, number⟩
  have le := before.le
  have bounded := ordered.bounded
  by_cases recorded : ∃ written ∈ saved.flash.2, written.chunk = chunk
  · obtain ⟨written, mem, rfl⟩ := recorded
    obtain ⟨chunk_id, sequence, ecc⟩ := finds.tags written mem
    obtain ⟨i, i_eq⟩ := List.getElem?_of_mem (List.mem_reverse.mpr mem)
    obtain ⟨number, sequence_eq, buffer, data, word⟩ := ordered.page i written i_eq
    have i_lt : i < saved.flash.2.length := by
      obtain ⟨lt, -⟩ := List.getElem?_eq_some_iff.mp i_eq
      rwa [List.length_reverse] at lt
    have content_word : content.word saved.swapEndian 4 = i % 2 ^ 32 := by
      rw [← word]
      refine word_congr fun j j_lt => finds.header written mem buffer data _ ?_
      rw [checkptChunkHdrSize]
      omega
    have position : i = pages := by
      cases differ : dev.checkptTagsDiffer tags with
      | true =>
        have same := (header_words differ).2
        rw [content_word] at same
        omega
      | false =>
        have agree := of_decide_eq_false differ
        rw [not_or, not_not, before.pageSeq] at agree
        have number_eq : tags.chunkId = i + 1 := chunk_id.trans number
        omega
    refine ⟨decide_eq_false ?_, position ▸ i_lt⟩
    rw [not_or, not_or, not_not, not_not, before.pageSeq]
    refine ⟨?_, not_lt.mpr ecc, sequence.trans sequence_eq⟩
    rw [show tags.chunkId = i + 1 from chunk_id.trans number, position]
    omega
  · push Not at recorded
    have sequence := finds.others chunk recorded
    have version := finds.blank block (pages % saved.param.chunksPerBlock)
      (Nat.mod_lt pages positive) block_holds
    rw [← chunk_eq] at version
    have differ : dev.checkptTagsDiffer tags = true := decide_eq_true (.inr (.inr sequence))
    exact absurd (header_words differ).1 (version recorded)

/-- The page that has been loaded is the next one. -/
theorem Before.step (before : Before saved offset dev pages)
    (positive : 0 < saved.param.chunksPerBlock)
    (more : pages < saved.flash.2.length) (content : Buf) :
    Between saved offset (dev.fillCheckptBuffer content).checkptStepReader (pages + 1) where
  flash := before.flash
  param := before.param
  swap := before.swap
  chunkOffset := before.chunkOffset
  buffer := by
    change (dev.checkptBuffer.map _).isSome = true
    rw [Option.isSome_map]
    exact before.buffer
  reading := before.reading
  pageSeq := congrArg (· + 1) before.pageSeq
  behind := before.behind
  le := more
  taken := before.taken
  place := by
    have cur_block : (dev.fillCheckptBuffer content).checkptStepReader.checkptCurBlock =
        if saved.param.chunksPerBlock ≤ pages % saved.param.chunksPerBlock + 1 then -1
        else dev.checkptCurBlock := by
      change (if decide ((dev.param.chunksPerBlock : Int) ≤ dev.checkptCurChunk + 1) = true then -1
        else dev.checkptCurBlock) = _
      rw [before.param, before.curChunk]
      simp only [decide_eq_true_eq]
      norm_cast
    have cur_chunk : (dev.fillCheckptBuffer content).checkptStepReader.checkptCurChunk =
        (pages % saved.param.chunksPerBlock + 1 : Nat) := by
      change dev.checkptCurChunk + 1 = _
      rw [before.curChunk, Nat.cast_succ]
    rcases succ_mod_cases positive pages with ⟨full, next_mod⟩ | ⟨inside, next_mod⟩
    · rw [if_pos full.ge] at cur_block
      exact .inl ⟨by rw [cur_block]; decide, next_mod⟩
    · rw [if_neg (not_le.mpr inside)] at cur_block
      obtain ⟨block, eq, holds⟩ := before.inBlock
      refine .inr ⟨⟨block, cur_block.trans eq, holds⟩, ?_, ?_⟩
      · rw [next_mod]
        exact Nat.succ_ne_zero _
      · rw [cur_chunk, next_mod]

/-- A byte is delivered only after a page has been loaded for it. -/
theorem Between.ready (between : Between saved offset dev pages) (finds : FindsPages T saved offset)
    (ordered : Ordered saved) (positive : 0 < saved.param.chunksPerBlock)
    (loads : (dev.checkptReady T).1 = true) : Between saved offset (dev.checkptReady T).2
    (pages + 1) := by
  have used_up : dev.checkptReady T = dev.checkptLoadPage T := if_pos between.behind
  rw [used_up] at loads ⊢
  simp only [checkptLoadPage] at loads ⊢
  rcases between.seek finds positive with nowhere | before
  · rw [if_pos nowhere] at loads
    cases loads
  set sought := dev.checkptSeekBlock T
  have here : ¬sought.checkptCurBlock < 0 := before.inBlock.nonneg
  rw [if_neg here] at loads ⊢
  have page : sought.readPage T sought.checkptChunk =
      ((T.readChunkTags saved.flash.1
        (sought.applyChunkOffset sought.checkptChunk)).1, sought) := by
    simp only [readPage, before.flash, finds.read]
    rw [← before.flash]
  rw [page] at loads ⊢
  set answer := (T.readChunkTags saved.flash.1 (sought.applyChunkOffset sought.checkptChunk)).1
    with answer_eq
  dsimp only at loads ⊢
  have same_tags : (sought.fillCheckptBuffer answer.2.1).checkptTagsDiffer answer.2.2 =
      sought.checkptTagsDiffer answer.2.2 := rfl
  rw [same_tags] at loads ⊢
  have passes : sought.checkptTagsDiffer answer.2.2 = true →
      (sought.fillCheckptBuffer answer.2.1).checkptCheckChunkHdr.1 = true := by
    intro differ
    rw [if_pos differ] at loads
    by_contra failed
    rw [if_neg failed] at loads
    cases loads
  obtain ⟨agree, more⟩ := before.loads finds ordered positive passes
  have goes_on : ¬sought.checkptTagsDiffer answer.2.2 = true := by
    rw [Bool.not_eq_true]
    exact agree
  rw [if_neg goes_on]
  exact before.step positive more answer.2.1

theorem Between.takeByte (between : Between saved offset dev pages) :
    Between saved offset dev.checkptTakeByte.2 pages :=
  { between with
    behind := between.behind.trans (Nat.le_succ _) }

/-- So many bytes need so many pages. -/
theorem Between.rdLoop (finds : FindsPages T saved offset) (ordered : Ordered saved)
    (positive : 0 < saved.param.chunksPerBlock) (left : Nat) :
    ∀ {dev : Dev Flash} {pages : Nat}, Between saved offset dev pages →
      (checkptRdLoop T left dev).1.length = left →
      Between saved offset (checkptRdLoop T left dev).2 (pages + left) := by
  induction left with
  | zero => exact fun between _ => between
  | succ left ih =>
    intro dev pages between full
    simp only [checkptRdLoop] at full ⊢
    split at full
    case isFalse => cases full
    case isTrue loads =>
      rw [if_pos loads]
      have loaded := (between.ready finds ordered positive loads).takeByte
      rw [List.length_cons, Nat.add_right_cancel_iff] at full
      rw [Nat.add_comm left 1, ← Nat.add_assoc]
      exact ih loaded full

theorem Between.rdCalls (finds : FindsPages T saved offset) (ordered : Ordered saved)
    (positive : 0 < saved.param.chunksPerBlock) (sizes : List Nat) :
    ∀ {dev : Dev Flash} {pages : Nat}, Between saved offset dev pages →
      (rdCalls T sizes dev).1 = true → Between saved offset (rdCalls T sizes dev).2
        (pages + sizes.sum) := by
  induction sizes with
  | nil => exact fun between _ => between
  | cons size sizes ih =>
    intro dev pages between delivered
    obtain ⟨buffer, buffer_eq⟩ := Option.isSome_iff_exists.mp between.buffer
    have read : dev.checkptRd T size =
        ((((checkptRdLoop T size dev).1.length : Int), (checkptRdLoop T size dev).1),
          (checkptRdLoop T size dev).2) := by
      simp only [checkptRd, buffer_eq, between.reading]
      rfl
    simp only [Dev.rdCalls, read] at delivered ⊢
    split at delivered
    case isFalse => cases delivered
    case isTrue full =>
      rw [if_pos full]
      have whole : (checkptRdLoop T size dev).1.length = size := Int.natCast_inj.mp full
      rw [List.sum_cons, ← Nat.add_assoc]
      exact ih (between.rdLoop finds ordered positive size whole) delivered

/-- Adopting blocks does not count them. -/
theorem blocksInCheckpt_adopt {Flash : Type} (blocks : List Int) : ∀ dev : Dev Flash,
    (blocks.foldl checkptAdoptBlock dev).blocksInCheckpt = dev.blocksInCheckpt := by
  induction blocks with
  | nil => exact fun _ => rfl
  | cons block blocks ih =>
    intro dev
    rw [List.foldl_cons, ih, checkptAdoptBlock]
    split <;> rfl

/-- A stream that has been opened for reading. -/
theorem SameFlash.between_open (same : SameFlash saved dev) :
    Between saved dev.chunkOffset (dev.checkptOpen T false).2 0 where
  flash := same.flash
  param := same.param
  swap := same.swap
  chunkOffset := rfl
  buffer := rfl
  reading := rfl
  pageSeq := rfl
  behind := le_refl dev.dataBytesPerChunk
  le := Nat.zero_le _
  taken := by
    rw [zero_ceilDiv]
    rfl
  place := .inl ⟨(by decide : (-1 : Int) < 0), Nat.zero_mod _⟩

/-- A restore that delivers all bytes has loaded a page for each of them. -/
theorem restore_loads (reads_back : ReadsBack T saved) (ordered : Ordered saved)
    (positive : 0 < saved.param.chunksPerBlock) (same : SameFlash saved dev) {sizes : List Nat}
    (restored : (dev.restore T sizes).1 = true) :
    (dev.restore T sizes).2.blocksInCheckpt = sizes.sum ⌈/⌉ saved.param.chunksPerBlock ∧
      sizes.sum ≤ saved.flash.2.length := by
  have finds := reads_back.findsPages ordered.header dev.chunkOffset
  have opened := same.between_open (T := T)
  simp only [restore, Bool.and_eq_true] at restored
  have read := opened.rdCalls finds ordered positive sizes restored.1.2
  rw [Nat.zero_add] at read
  refine ⟨?_, read.le⟩
  rw [← read.taken]
  simp only [restore, checkptClose]
  generalize (rdCalls T sizes (dev.checkptOpen T false).2).2 = dev at read
  rw [checkptFinish, if_neg (by rw [read.reading]; decide)]
  split
  · exact blocksInCheckpt_adopt _ dev
  · rfl

/-! ## The size of a checkpoint -/

variable (T) in
/-- The device that has opened the stream, has written so many calls to it and has closed it. -/
def saveCalls (calls : List ((Dev Flash → Nat → UInt8) × Nat)) (dev : Dev Flash) : Dev Flash :=
  ((wrCalls T calls (dev.checkptOpen T true).2).checkptClose T).2

variable (T) in
/-- The size of a checkpoint of so many bytes is exact, and a restore finds it again. -/
structure SizeExact (opened saved : Dev (Flash × List Written)) (size : Nat) : Prop where
  pages : saved.flash.2.length = size ⌈/⌉ opened.payload
  blocks : saved.blocksInCheckpt = (size ⌈/⌉ opened.payload) ⌈/⌉ opened.param.chunksPerBlock
  /-- No page holds only a header. -/
  filled : ∃ bytes : List UInt8, bytes.length = size ∧ Carried opened saved bytes ∧
    ∀ i < saved.flash.2.length, partOf opened.payload bytes i ≠ []
  restored : ReadsBack T saved → ∀ dev, SameFlash saved dev → ∀ sizes : List Nat, sizes.sum = size →
    (dev.restore T sizes).1 = true → (dev.restore T sizes).2.blocksInCheckpt = saved.blocksInCheckpt

variable {opened : Dev (Flash × List Written)}

/-- The room of a device is bounded by its blocks. -/
theorem room_le (dev : Dev Flash) :
    dev.room ≤ (dev.internalEndBlock + 1) * dev.param.chunksPerBlock := by
  refine Nat.mul_le_mul_right _ ?_
  calc (dev.erasedFrom dev.internalStartBlock).length
      ≤ (List.range' dev.internalStartBlock
          (dev.internalEndBlock + 1 - dev.internalStartBlock)).length := List.length_filter_le _ _
    _ = dev.internalEndBlock + 1 - dev.internalStartBlock := List.length_range'
    _ ≤ dev.internalEndBlock + 1 := Nat.sub_le _ _

/-- The pages of a stream that has been closed carry their numbers. -/
theorem Saved.ordered {bytes : List UInt8} (save : Saved opened saved bytes pages)
    (geometry : Geometry opened) (le : pages ≤ opened.room) : Ordered saved where
  bounded := by
    rw [save.count]
    exact (le.trans (room_le opened)).trans_lt geometry.bounded
  header := by
    rw [save.param]
    exact geometry.header.le.trans geometry.total
  page := by
    intro i written eq
    obtain ⟨buffer, data, holds⟩ := save.carried i written eq
    have mem : written ∈ saved.flash.2 := List.mem_reverse.mp (List.mem_of_getElem? eq)
    exact ⟨save.numbered i written eq, save.sequence written mem, buffer, data,
      by rw [save.swap]; exact holds.header⟩

/-- A stream whose last page holds bytes has the exact size, and so does one that has used up the
room. -/
theorem Saved.sizeExact {bytes : List UInt8} (save : Saved opened saved bytes pages)
    (geometry : Geometry opened) (le : pages ≤ opened.room)
    (exact_pages : pages = bytes.length ⌈/⌉ opened.payload) :
    SizeExact T opened saved bytes.length where
  pages := save.count.trans exact_pages
  blocks := by rw [save.blocks, exact_pages]
  filled := by
    refine ⟨bytes, rfl, save.carried, fun i i_lt => ?_⟩
    have positive : 0 < opened.payload := Nat.sub_pos_of_lt geometry.header
    have before : i * opened.payload < bytes.length := by
      rw [save.count, exact_pages, ← not_le] at i_lt
      by_contra behind
      refine i_lt ((ceilDiv_le_iff_le_mul positive).mpr ?_)
      rw [Nat.mul_comm]
      exact not_lt.mp behind
    rw [partOf, ← List.length_pos_iff, List.length_take, List.length_drop]
    omega
  restored := by
    intro reads_back dev same sizes total restored
    have positive : 0 < opened.payload := Nat.sub_pos_of_lt geometry.header
    obtain ⟨blocks, enough⟩ := restore_loads reads_back (save.ordered geometry le)
      (by rw [save.param]; exact geometry.positive) same restored
    rw [total, save.count] at enough
    have few : pages ≤ bytes.length := by
      rw [exact_pages, ceilDiv_le_iff_le_mul positive]
      exact Nat.le_mul_of_pos_left _ positive
    rw [blocks, total, save.blocks, save.param, Nat.le_antisymm enough few]

/-- The size of a checkpoint is exact if and only if the bytes leave a page half filled, or there is
no room for another page. -/
theorem size_exact_iff (dev : Dev Flash) (geometry : Geometry dev)
    (opens : (dev.recorded.checkptOpen T.recording true).1 = true)
    (calls : List ((Dev (Flash × List Written) → Nat → UInt8) × Nat))
    (enough : callBytes calls ⌈/⌉ dev.payload ≤
      (dev.recorded.checkptOpen T.recording true).2.room) :
    SizeExact T (dev.recorded.checkptOpen T.recording true).2
        (dev.recorded.saveCalls T.recording calls) (callBytes calls) ↔
      ¬dev.payload ∣ callBytes calls ∨
        (dev.recorded.checkptOpen T.recording true).2.room = callBytes calls / dev.payload := by
  have recorded : Geometry dev.recorded :=
    ⟨geometry.header, geometry.total, geometry.positive, geometry.bounded⟩
  have ready := ready_of_open recorded rfl opens
  obtain ⟨param, data, -, end_block⟩ := checkptOpen_layout dev.recorded opens
  rw [saveCalls]
  set opened := (dev.recorded.checkptOpen T.recording true).2
  have same_payload : opened.payload = dev.payload := by
    rw [payload, data]
    rfl
  have opened_geometry : Geometry opened :=
    { header := ready.header
      total := by
        rw [data, param]
        exact geometry.total
      positive := ready.positive
      bounded := by
        rw [end_block, param]
        exact geometry.bounded }
  have positive := payload_pos ready
  rw [← same_payload] at enough ⊢
  have pages_le : callBytes calls / opened.payload ≤ opened.room := by
    rcases ceilDiv_cases positive (callBytes calls) with ⟨-, pages⟩ | ⟨-, pages⟩
    · rwa [pages] at enough
    · omega
  obtain ⟨bytes, length, written⟩ := wrCalls_fed (T := T) ready calls []
    (by rwa [List.length_nil, Nat.zero_add])
  have fed : wrCalls T.recording calls opened = feed T.recording bytes opened := written
  rw [fed, ← length]
  rw [← length] at enough pages_le
  obtain ⟨-, save⟩ := (filling_of_room (T := T) ready pages_le).close ready
  have le : min (bytes.length / opened.payload + 1) opened.room ≤ opened.room :=
    Nat.min_le_right _ _
  rcases ceilDiv_cases positive bytes.length with ⟨whole, pages⟩ | ⟨rest, pages⟩
  · constructor
    · intro exact_size
      right
      have count := exact_size.pages
      rw [save.count, pages] at count
      omega
    · rintro (rest | full)
      · exact absurd whole rest
      · refine save.sizeExact opened_geometry le ?_
        rw [pages, full]
        omega
  · refine ⟨fun _ => .inl rest, fun _ => save.sizeExact opened_geometry le ?_⟩
    rw [pages] at enough ⊢
    omega

/-- Three bytes take one page. -/
theorem size_exact_three :
    SizeExact (ramTagger 2) (ramDevice.recorded.checkptOpen (ramTagger 2).recording true).2
      (ramDevice.recorded.saveCalls (ramTagger 2).recording [(fun _ _ => 7, 3)]) 3 :=
  (size_exact_iff (T := ramTagger 2) ramDevice
    ⟨by decide, by decide, by decide, by decide⟩ (by decide +kernel) [(fun _ _ => 7, 3)]
    (by decide +kernel)).mpr (.inl (by decide +kernel))

/-- The bytes of one page take two. -/
theorem size_not_exact :
    ¬SizeExact (ramTagger 2) (ramDevice.recorded.checkptOpen (ramTagger 2).recording true).2
      (ramDevice.recorded.saveCalls (ramTagger 2).recording [(fun _ _ => 7, 1008)]) 1008 := by
  intro exact_size
  have pages : (ramDevice.recorded.saveCalls (ramTagger 2).recording
      [(fun _ _ => 7, 1008)]).flash.2.length = 2 := by
    decide +kernel
  have count := exact_size.pages
  rw [pages] at count
  exact absurd count (by decide +kernel)

end Dev

end Yaffs
