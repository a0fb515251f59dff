import Yaffs.CheckpointRestores
import Yaffs.CheckpointRules

/-!
# Reading the bytes of a checkpoint

The bytes of a stream ought to come back as they have been written, and a page that does not belong
to the stream ought to end the reading.  The check of the header is the body of the check of the
tags, and only this check moves the offset in the buffer back to the start of the page.
-/

namespace Yaffs

namespace Dev

variable {Flash : Type} (T : Tagger Flash)

/-! ## Calls -/

/-- The bytes that reading calls of these sizes deliver. -/
def rdBytes : List Nat → Dev Flash → List UInt8
  | [], _ => []
  | size :: rest, dev =>
    let read := dev.checkptRd T size
    read.1.2 ++ rdBytes rest read.2

/-- Open the stream, write records to it, one call for each, and close it.  The result says whether
all calls report success. -/
def saveRecords (records : List (List UInt8)) (dev : Dev Flash) : Bool × Dev Flash :=
  let opened := dev.checkptOpen T true
  let written := wrCheckptRecords T records opened.2
  let closed := written.2.checkptClose T
  (opened.1 && written.1 && closed.1, closed.2)

/-- The page that the reader loads next: the device with the page in its buffer, and the tags. -/
def loadedPage (dev : Dev Flash) : Dev Flash × ExtTags :=
  let dev := dev.checkptSeekBlock T
  let page := dev.readPage T dev.checkptChunk
  (page.2.fillCheckptBuffer page.1.2.1, page.1.2.2)

/-- The tags of the next page, or its error correction, are not those of the stream. -/
def tagsWrong (dev : Dev Flash) : Bool :=
  (dev.loadedPage T).1.checkptTagsDiffer (dev.loadedPage T).2

/-- The header of the next page is not that of the stream. -/
def headerWrong (dev : Dev Flash) : Bool := !(dev.loadedPage T).1.checkptCheckChunkHdr.1

/-! ## Wrong pages -/

/-- A page that is wrong in some way ends every call before it delivers a byte. -/
def WrongPageStops (dev : Dev Flash) : Prop :=
  dev.tagsWrong T ∨ dev.headerWrong T → ∀ size, (dev.checkptRd T size).1 = (0, [])

/-- A reader that has used up its buffer and finds a block to go on with. -/
structure AtBoundary (dev : Dev Flash) : Prop where
  buffer : dev.checkptBuffer.isSome
  reading : dev.checkptOpenWrite = false
  usedUp : dev.dataBytesPerChunk ≤ dev.checkptByteOffs
  found : 0 ≤ (dev.checkptSeekBlock T).checkptCurBlock

variable {T}

theorem AtBoundary.ready_eq {dev : Dev Flash} (boundary : AtBoundary T dev) :
    dev.checkptReady T =
      let page := dev.loadedPage T
      let checked :=
        if page.1.checkptTagsDiffer page.2 then page.1.checkptCheckChunkHdr else (true, page.1)
      if checked.1 then (true, checked.2.checkptStepReader) else (false, checked.2) :=
  (if_pos boundary.usedUp).trans (if_neg (not_lt.mpr boundary.found))

/-- A page is refused only if its tags and its header are wrong. -/
theorem AtBoundary.refused_iff {dev : Dev Flash} (boundary : AtBoundary T dev) :
    (dev.checkptReady T).1 = false ↔ dev.tagsWrong T ∧ dev.headerWrong T := by
  rw [boundary.ready_eq, tagsWrong, headerWrong]
  generalize dev.loadedPage T = page
  dsimp only
  cases page.1.checkptTagsDiffer page.2 with
  | false => simp
  | true => cases header : page.1.checkptCheckChunkHdr.1 <;> simp [header]

/-- The reader stops at a wrong page if and only if the page is wrong in both ways, or in none. -/
theorem AtBoundary.stops_iff {dev : Dev Flash} (boundary : AtBoundary T dev) :
    WrongPageStops T dev ↔ (dev.tagsWrong T ↔ dev.headerWrong T) := by
  obtain ⟨buffer, buffer_eq⟩ := Option.isSome_iff_exists.mp boundary.buffer
  have read (size : Nat) : (dev.checkptRd T size).1 =
      (((checkptRdLoop T size dev).1.length : Int), (checkptRdLoop T size dev).1) := by
    simp only [checkptRd, buffer_eq, boundary.reading]
    rfl
  have refused := boundary.refused_iff
  constructor
  · intro stops
    by_contra differ
    have one_wrong : dev.tagsWrong T ∨ dev.headerWrong T := by
      by_contra fine
      rw [not_or] at fine
      exact differ (iff_of_false fine.1 fine.2)
    have nothing := stops one_wrong 1
    rw [read] at nothing
    have loads : (dev.checkptReady T).1 = true := by
      rw [← Bool.not_eq_false]
      intro not_ready
      obtain ⟨tags, header⟩ := refused.mp not_ready
      exact differ (iff_of_true tags header)
    simp only [checkptRdLoop, if_pos loads] at nothing
    cases congrArg Prod.snd nothing
  · intro same one_wrong size
    have both_wrong : dev.tagsWrong T ∧ dev.headerWrong T := by
      rcases one_wrong with tags | header
      · exact ⟨tags, same.mp tags⟩
      · exact ⟨same.mpr header, header⟩
    have not_ready := refused.mpr both_wrong
    rw [read]
    cases size with
    | zero => rfl
    | succ size =>
      simp only [checkptRdLoop, not_ready]
      rfl

/-! ## The headers of the pages -/

/-- Every page that has been written carries its number, in the tags and in the header, and the
buffer that of the next one. -/
structure Headed (dev : Dev (Flash × List Written)) : Prop
    extends Pages dev dev.checkptPageSeq where
  behind : 8 ≤ dev.checkptByteOffs
  buffer : ∃ buffer, dev.checkptBuffer = some buffer ∧
    buffer.word dev.swapEndian 4 = dev.checkptPageSeq % 2 ^ 32
  headers : ∀ i written, dev.flash.2.reverse[i]? = some written → ∃ buffer,
    written.data = some buffer ∧ buffer.word dev.swapEndian 4 = i % 2 ^ 32

variable {dev opened : Dev (Flash × List Written)}

theorem NewStream.headed (ready : NewStream opened) : Headed opened where
  toPages := by
    obtain ⟨next, progress⟩ := ready.filling.progress
    have pages := progress.toPages
    rwa [List.length_nil, Nat.zero_div, ← ready.pageSeq] at pages
  behind := by
    rw [ready.byteOffs, checkptChunkHdrSize]
    omega
  buffer := by
    rw [ready.pageSeq]
    exact ready.buffer
  headers := by
    intro i written eq
    rw [ready.record] at eq
    cases eq

theorem Headed.putByte (headed : Headed dev) (byte : UInt8) : Headed (dev.checkptPutByte byte) where
  toPages := { headed.toPages with }
  behind := headed.behind.trans (Nat.le_succ _)
  buffer := by
    obtain ⟨buffer, eq, word⟩ := headed.buffer
    refine ⟨Function.update buffer dev.checkptByteOffs byte, ?_, ?_⟩
    · simp only [checkptPutByte, eq, Option.map_some]
    · exact (word_update headed.behind byte).trans word
  headers := headed.headers

theorem Headed.enterBlock (headed : Headed dev) : Headed dev.checkptEnterBlock := by
  rw [checkptEnterBlock]
  split
  · rcases dev.checkptFindErasedBlock_cases with eq | ⟨block, -, -, -, -, eq⟩
    all_goals
      rw [eq]
      exact { headed with }
  · exact headed

theorem Headed.takeBlock (headed : Headed dev) : Headed dev.checkptTakeBlock := by
  rw [checkptTakeBlock]
  split
  · exact { headed with }
  · exact headed

/-- One page more. -/
theorem Headed.afterPage (headed : Headed dev) : Headed (afterPage T dev) where
  toPages := headed.toPages.afterPage
  behind := by
    rw [afterPage_byteOffs, checkptChunkHdrSize]
    omega
  buffer := by
    obtain ⟨buffer, eq, -⟩ := headed.buffer
    exact afterPage_buffer eq
  headers := by
    intro i written eq
    rw [afterPage_record, List.reverse_cons, List.getElem?_append, List.length_reverse] at eq
    split at eq
    case isTrue => exact headed.headers i written eq
    case isFalse past =>
      have last : i = dev.flash.2.length := by
        by_contra beyond
        rw [List.getElem?_eq_none (by rw [List.length_singleton]; omega)] at eq
        cases eq
      subst last
      rw [Nat.sub_self] at eq
      obtain rfl : pageNow T dev = written := Option.some.inj eq
      rw [headed.count]
      exact headed.buffer

/-- What stores a byte and flushes a page keeps the numbers. -/
theorem headed_rule : WriterInvariant T.recording fun dev : Dev (Flash × List Written) =>
    Headed dev where
  putByte _ byte headed := headed.putByte byte
  flush dev headed := by
    simp only [checkptFlushBuffer]
    split
    · exact headed.enterBlock
    · have taken : dev.checkptEnterBlock.checkptTags =
          dev.checkptEnterBlock.checkptTakeBlock.checkptTags := by
        rw [checkptTakeBlock]
        split <;> rfl
      rw [taken]
      exact headed.enterBlock.takeBlock.afterPage

/-- Closing flushes at most once more. -/
theorem Headed.close (headed : Headed dev) (writing : dev.checkptOpenWrite = true) :
    Headed (dev.checkptClose T.recording).2 := by
  have finished : Headed (dev.checkptFinish T.recording) := by
    rw [checkptFinish, if_pos writing]
    split
    · exact headed_rule.flush dev headed
    · exact headed
  exact { finished with }

/-! ## The stream that has been written -/

/-- What is left on the flash of a stream of these bytes. -/
structure Stored (opened closed : Dev (Flash × List Written)) (bytes : List UInt8) : Prop where
  param : closed.param = opened.param
  ordered : Ordered closed
  count : closed.flash.2.length ≤ bytes.length / opened.payload + 1
  le_room : closed.flash.2.length ≤ opened.room

/-- The reports of the stream: it is open for writing and has its buffer. -/
theorem feed_open (ready : NewStream opened) (bytes : List UInt8) :
    (feed T.recording bytes opened).checkptBuffer.isSome = true ∧
      (feed T.recording bytes opened).checkptOpenWrite = true := by
  rcases filling_or_lost (T := T) ready bytes with filling | lost
  · obtain ⟨buffer, eq, -⟩ := filling.buffer
    obtain ⟨next, progress⟩ := filling.progress
    exact ⟨by rw [eq]; rfl, progress.writing.trans ready.writing⟩
  · exact ⟨lost.buffer, lost.writing.trans ready.writing⟩

/-- A stream that has been closed, whether or not all its pages have found room. -/
theorem stored_close (ready : NewStream opened) (geometry : Geometry opened)
    (bytes : List UInt8) :
    Stored opened ((feed T.recording bytes opened).checkptClose T.recording).2 bytes := by
  have headed : Headed ((feed T.recording bytes opened).checkptClose T.recording).2 := by
    refine Headed.close ?_ (feed_open ready bytes).2
    induction bytes using List.reverseRecOn with
    | nil => exact ready.headed
    | append_singleton bytes byte ih =>
      rw [feed_concat]
      exact headed_rule.bytes.wrByte _ byte ih
  have total : checkptChunkHdrSize ≤ opened.param.totalBytesPerChunk :=
    geometry.header.le.trans geometry.total
  have few : opened.room < 2 ^ 31 := (room_le opened).trans_lt geometry.bounded
  have kept : ((feed T.recording bytes opened).checkptClose T.recording).2.param = opened.param ∧
      ((feed T.recording bytes opened).checkptClose T.recording).2.flash.2.length =
        min (bytes.length / opened.payload + 1) opened.room := by
    rcases filling_or_lost (T := T) ready bytes with filling | lost
    · obtain ⟨-, save⟩ := filling.close ready
      exact ⟨save.param, save.count⟩
    · have header := ready.header
      have closes := checkptClose_eq (T := T.recording) (feed_open (T := T) ready bytes).2
        (header.le.trans (lost.data ▸ lost.byteOffs))
      rw [closes, checkptFlushBuffer_nowhere lost.nextBlock lost.curBlock]
      have lost_bytes := lost.bytes
      refine ⟨lost.param, lost.count.trans ?_⟩
      omega
  generalize ((feed T.recording bytes opened).checkptClose T.recording).2 = closed at headed kept
  obtain ⟨param, count⟩ := kept
  refine ⟨param, ⟨by omega, by rwa [param], fun i written eq => ?_⟩, by omega, by omega⟩
  exact ⟨headed.numbered i written eq, headed.sequence written
    (List.mem_reverse.mp (List.mem_of_getElem? eq)), headed.headers i written eq⟩

/-- A call that reports a full count has written all its bytes. -/
theorem wrLoop_taken (record : List UInt8) (left : Nat) : ∀ (written : Nat) (dev : Dev Flash),
    written + left = record.length →
    (checkptWrLoop T (fun _ i => record.getD i 0) left written dev).1 = record.length →
    (checkptWrLoop T (fun _ i => record.getD i 0) left written dev).2 =
      feed T (record.drop written) dev := by
  induction left with
  | zero =>
    intro written dev whole _
    rw [List.drop_of_length_le (by omega)]
    rfl
  | succ left ih =>
    intro written dev whole full
    have inside : written < record.length := by omega
    have byte : record.getD written 0 = record[written] := by
      rw [List.getD_eq_getElem?_getD, List.getElem?_eq_getElem inside, Option.getD_some]
    rw [List.drop_eq_getElem_cons inside]
    simp only [checkptWrLoop, byte] at full ⊢
    split at full
    case isTrue goes_on =>
      rw [if_pos goes_on]
      exact ih (written + 1) _ (by omega) full
    case isFalse stops =>
      rw [if_neg stops, List.drop_of_length_le (by omega)]
      rfl

/-- Calls that report success have written all their bytes. -/
theorem wrRecords_fed (ready : NewStream opened) (records : List (List UInt8)) :
    ∀ bytes : List UInt8,
      (wrCheckptRecords T.recording records (feed T.recording bytes opened)).1 = true →
      (wrCheckptRecords T.recording records (feed T.recording bytes opened)).2 =
        feed T.recording (bytes ++ records.flatten) opened := by
  induction records with
  | nil =>
    intro bytes _
    rw [List.flatten_nil, List.append_nil]
    rfl
  | cons record rest ih =>
    intro bytes success
    obtain ⟨some_buffer, writing⟩ := feed_open (T := T) ready bytes
    obtain ⟨buffer, buffer_eq⟩ := Option.isSome_iff_exists.mp some_buffer
    set dev := feed T.recording bytes opened with dev_eq
    have wrote : dev.checkptWr T.recording (fun _ i => record.getD i 0) record.length =
        let loop := checkptWrLoop T.recording (fun _ i => record.getD i 0) record.length 0 dev
        ((loop.1 : Int), loop.2) := by
      simp only [checkptWr, buffer_eq, writing]
      rfl
    simp only [wrCheckptRecords, checkptWrRecord, wrote] at success ⊢
    split at success
    case isFalse fails => exact absurd success fails
    case isTrue full =>
      rw [if_pos full]
      have count := Int.natCast_inj.mp (of_decide_eq_true full)
      have fed := wrLoop_taken record record.length 0 dev (Nat.zero_add _) count
      rw [List.drop_zero, dev_eq, feed, feed, ← List.foldl_append] at fed
      rw [dev_eq, feed] at success ⊢
      rw [fed] at success ⊢
      rw [List.flatten_cons, ← List.append_assoc]
      exact ih (bytes ++ record) success

/-! ## Reading them back -/

variable (T) in
/-- A flash that stores the pages of a stream faithfully: they are found again with their data, and
their blocks are not bad. -/
structure StoresPages (saved : Dev (Flash × List Written)) : Prop
    extends FindsPages T saved saved.chunkOffset where
  data : ∀ written ∈ saved.flash.2, ∀ buffer, written.data = some buffer →
    ∀ i, i < saved.dataBytesPerChunk →
      (T.readChunkTags saved.flash.1 written.chunk).1.2.1 i = buffer i
  alive : ∀ written ∈ saved.flash.2, ∀ block, saved.LiesAt written block 0 →
    (T.queryBlock saved.flash.1 (saved.applyBlockOffset block)).1.1 ≠ .dead

/-- A device on the flash of another one, with the same blocks. -/
structure SameBlocks (saved : Dev (Flash × List Written)) (dev : Dev Flash) : Prop
    extends SameFlash saved dev where
  data : dev.dataBytesPerChunk = saved.dataBytesPerChunk
  startBlock : dev.internalStartBlock = saved.internalStartBlock
  endBlock : dev.internalEndBlock = saved.internalEndBlock
  blockOffset : dev.blockOffset = saved.blockOffset
  chunkOffset : dev.chunkOffset = saved.chunkOffset

variable (T) in
/-- Reading calls of any sizes return the bytes of the stream. -/
def ReturnsBytes (dev : Dev Flash) (bytes : List UInt8) : Prop :=
  ∀ sizes : List Nat, sizes.sum ≤ bytes.length →
    rdBytes T sizes (dev.checkptOpen T false).2 = bytes.take sizes.sum

variable (T) in
/-- The byte that lies behind the data part of the buffer once the first page of a stream has been
loaded: it comes from the page if the tags are in the data area, else from the memory behind the
buffer. -/
def byteBehind (saved : Dev (Flash × List Written)) (dev : Dev Flash) : UInt8 :=
  match saved.flash.2.getLast? with
  | some first =>
    if dev.dataBytesPerChunk < dev.param.totalBytesPerChunk then
      (T.readChunkTags saved.flash.1 first.chunk).1.2.1 dev.dataBytesPerChunk
    else (dev.checkptBuffer.getD fun _ => 0) dev.dataBytesPerChunk
  | none => 0

variable {saved : Dev (Flash × List Written)} {reader : Dev Flash}

theorem rdLoop_length (left : Nat) : ∀ dev : Dev Flash,
    (checkptRdLoop T left dev).1.length ≤ left := by
  induction left with
  | zero => exact fun _ => le_refl 0
  | succ left ih =>
    intro dev
    simp only [checkptRdLoop]
    split
    · exact Nat.succ_le_succ (ih _)
    · exact Nat.zero_le _

/-- The bytes of one call by a reader between two pages. -/
theorem Between.rd {offset pages : Nat} (between : Between saved offset reader pages) (size : Nat) :
    reader.checkptRd T size =
      let loop := checkptRdLoop T size reader
      (((loop.1.length : Int), loop.1), loop.2) := by
  obtain ⟨buffer, buffer_eq⟩ := Option.isSome_iff_exists.mp between.buffer
  simp only [checkptRd, buffer_eq, between.reading]
  rfl

/-- A stream of more than one byte does not come back: each byte needs a page of its own. -/
theorem short_of_returns {bytes : List UInt8} (stored : Stored opened saved bytes)
    (large : 3 ≤ opened.payload) (positive : 0 < opened.param.chunksPerBlock)
    (stores : StoresPages T saved) (same : SameBlocks saved reader)
    (returned : ReturnsBytes T reader bytes) :
    bytes.length ≤ 1 ∧ bytes.length ≤ saved.flash.2.length := by
  have finds := stores.toFindsPages
  rw [← same.chunkOffset] at finds
  have between := same.toSameFlash.between_open (T := T)
  have read := returned [bytes.length] (by rw [List.sum_singleton])
  rw [List.sum_singleton, List.take_length, rdBytes, rdBytes, List.append_nil,
    between.rd bytes.length] at read
  have full : (checkptRdLoop T bytes.length (reader.checkptOpen T false).2).1.length =
      bytes.length := congrArg List.length read
  have after := between.rdLoop finds stored.ordered (by rwa [stored.param]) bytes.length full
  have enough := after.le
  have few := stored.count
  have fewer : bytes.length / opened.payload ≤ bytes.length / 3 :=
    Nat.div_le_div_left large (by decide)
  omega

/-- The first page of a stream lies in a block of the device. -/
theorem Starts.le_endBlock {first : Written} (starts : opened.Starts first)
    (has_room : 0 < opened.room) :
    ∃ block, opened.LiesAt first block 0 ∧ opened.internalStartBlock ≤ block ∧
      block ≤ opened.internalEndBlock := by
  obtain ⟨block, lies, le, skipped⟩ := starts
  refine ⟨block, lies, le, ?_⟩
  have some_erased : 0 < (opened.erasedFrom opened.internalStartBlock).length :=
    Nat.pos_of_mul_pos_right has_room
  obtain ⟨erased, mem⟩ := List.exists_mem_of_length_pos some_erased
  rw [erasedFrom, List.mem_filter, List.mem_range'_1, decide_eq_true_eq] at mem
  obtain ⟨⟨from_start, before_end⟩, empty⟩ := mem
  have not_skipped : ¬erased < block := fun lt => skipped erased from_start lt empty
  omega

/-- A stream of one page, the first page of a block. -/
structure OnePage (saved : Dev (Flash × List Written)) (first : Written) (block : Nat) : Prop where
  record : saved.flash.2 = [first]
  lies : first.chunk = (block * saved.param.chunksPerBlock : Nat) - (saved.chunkOffset : Int)
  number : first.tags.chunkId = 1
  sequence : first.tags.seqNumber = sequenceCheckpointData
  startBlock_le : saved.internalStartBlock ≤ block
  le_endBlock : block ≤ saved.internalEndBlock
  small : saved.internalEndBlock < 2 ^ 31
  positive : 0 < saved.param.chunksPerBlock

theorem Saved.onePage {bytes : List UInt8} (save : Saved opened saved bytes 1)
    (geometry : Geometry opened) (has_room : 0 < opened.room) :
    ∃ first block, OnePage saved first block := by
  obtain ⟨first, record⟩ := List.length_eq_one_iff.mp save.count
  have chain := save.chain
  rw [record] at chain
  have starts : opened.Starts first := by
    cases chain with
    | first starts => exact starts
  obtain ⟨block, lies, start_le, le_end⟩ := starts.le_endBlock has_room
  refine ⟨first, block, record, ?_, save.numbered 0 first (by rw [record]; rfl),
    save.sequence first (by rw [record]; exact List.mem_singleton_self _),
    save.startBlock ▸ start_le, save.endBlock ▸ le_end, ?_, save.param ▸ geometry.positive⟩
  · rw [lies, applyChunkOffset, Nat.add_zero, save.param, save.offset]
  · have few := (Nat.le_mul_of_pos_right (opened.internalEndBlock + 1) geometry.positive).trans_lt
      geometry.bounded
    rw [save.endBlock]
    omega

/-- Bytes that do not fill a page take one. -/
theorem onePage_of_short (ready : NewStream opened) (geometry : Geometry opened)
    {bytes : List UInt8} (no_page : bytes.length / opened.payload = 0)
      (has_room : 0 < opened.room) :
    ∃ first block,
      OnePage ((feed T.recording bytes opened).checkptClose T.recording).2 first block := by
  have filling : Filling opened (feed T.recording bytes opened) bytes :=
    filling_of_room ready (no_page.trans_le (Nat.zero_le _))
  obtain ⟨-, save⟩ := filling.close ready
  rw [no_page, Nat.min_eq_left has_room] at save
  exact save.onePage geometry has_room

namespace OnePage

variable {first : Written} {block : Nat} (one : OnePage saved first block)

include one

theorem mem : first ∈ saved.flash.2 := by
  rw [one.record]
  exact List.mem_singleton_self _

/-- The search ends at the block of the page. -/
theorem search {pages : Nat} (stores : StoresPages T saved)
    (reads : Reads saved saved.chunkOffset reader pages)
    (offset : reader.blockOffset = saved.blockOffset) (blocks : List Nat)
    (block_mem : block ∈ blocks) :
    ∃ hint, checkptFindBlockFrom T blocks reader = (some (block, hint), reader) := by
  have same (answer : Flash) (eq : answer = reader.flash) :
      { reader with flash := answer } = reader := by
    rw [eq]
  induction blocks with
  | nil => cases block_mem
  | cons other rest ih =>
    have page : reader.readPage T (other * reader.param.chunksPerBlock) =
        ((T.readChunkTags saved.flash.1
          ((other * saved.param.chunksPerBlock : Nat) - (saved.chunkOffset : Int))).1, reader) := by
      rw [← reads.flash, ← reads.param, ← reads.chunkOffset]
      refine Prod.ext ?_ (same _ ?_)
      · simp only [readPage, applyChunkOffset]
        push_cast
        rfl
      · rw [reads.flash]
        exact stores.read _
    simp only [checkptFindBlockFrom, page]
    by_cases here : other = block
    · subst here
      have found : (T.readChunkTags saved.flash.1 ((other * saved.param.chunksPerBlock : Nat) -
          (saved.chunkOffset : Int))).1.2.2.seqNumber = sequenceCheckpointData := by
        rw [← one.lies]
        exact (stores.tags first one.mem).2.1.trans one.sequence
      have alive := stores.alive first one.mem other (by
        rw [LiesAt, one.lies, applyChunkOffset, Nat.add_zero])
      have state : reader.queryBlock T other =
          ((T.queryBlock saved.flash.1 (saved.applyBlockOffset other)).1, reader) := by
        refine Prod.ext ?_ (same _ ?_)
        · rw [queryBlock, reads.flash, applyBlockOffset, offset, applyBlockOffset]
        · rw [reads.flash]
          exact stores.query _
      rw [if_neg (not_not.mpr found), state, if_neg alive]
      exact ⟨_, rfl⟩
    · have unlike := stores.others
        ((other * saved.param.chunksPerBlock : Nat) - (saved.chunkOffset : Int)) (by
          intro written mem eq
          rw [one.record, List.mem_singleton] at mem
          rw [mem, one.lies, sub_left_inj, Int.natCast_inj] at eq
          exact here (Nat.eq_of_mul_eq_mul_right one.positive eq).symm)
      rw [if_pos unlike]
      exact ih ((List.mem_cons.mp block_mem).resolve_left fun eq => here eq.symm)

/-- A reader that has been opened goes to the page. -/
theorem seek (stores : StoresPages T saved) (same : SameBlocks saved reader) :
    let opened := (reader.checkptOpen T false).2
    ∃ (next : Int) (blocks : Option (List Int)), opened.checkptSeekBlock T =
      { opened with
        checkptNextBlock := next
        checkptCurBlock := block
        checkptBlockList := blocks
        blocksInCheckpt := 1
        checkptCurChunk := 0 } := by
  intro opened
  have reads : Reads saved saved.chunkOffset opened 0 :=
    same.chunkOffset ▸ (same.toSameFlash.between_open (T := T)).toReads
  have start : u32OfInt opened.checkptNextBlock = saved.internalStartBlock := by
    have start_le := one.startBlock_le
    have le_end := one.le_endBlock
    have small := one.small
    rw [show opened.checkptNextBlock = (reader.internalStartBlock : Int) from rfl, same.startBlock,
      u32OfInt]
    omega
  have last : opened.internalEndBlock = saved.internalEndBlock := same.endBlock
  obtain ⟨hint, search⟩ := one.search stores reads same.blockOffset
    (List.range' (u32OfInt opened.checkptNextBlock)
      (opened.internalEndBlock + 1 - u32OfInt opened.checkptNextBlock)) (by
    have start_le := one.startBlock_le
    have le_end := one.le_endBlock
    rw [start, last, List.mem_range'_1]
    omega)
  have more : opened.blocksInCheckpt < opened.checkptMaxBlocks :=
    (Nat.succ_pos _ : 0 < (reader.internalEndBlock - reader.internalStartBlock) / 16 + 2)
  have outside : opened.checkptCurBlock < 0 := (by decide : (-1 : Int) < 0)
  have none_taken : opened.blocksInCheckpt = 0 := rfl
  clear_value opened
  refine ⟨intOfU32 hint, opened.checkptBlockList.map (·.set 0 (block : Int)), ?_⟩
  rw [checkptSeekBlock, if_pos outside, checkptFindBlock]
  rw [if_pos more, search]
  simp only [none_taken]

/-- The page in the buffer of the reader. -/
theorem loadedPage (stores : StoresPages T saved) (same : SameBlocks saved reader) :
    let opened := (reader.checkptOpen T false).2
    opened.loadedPage T = ((opened.checkptSeekBlock T).fillCheckptBuffer
        (T.readChunkTags saved.flash.1 first.chunk).1.2.1,
      (T.readChunkTags saved.flash.1 first.chunk).1.2.2) := by
  intro opened
  obtain ⟨next, blocks, seek⟩ := one.seek stores same
  have chunk : (opened.checkptSeekBlock T).applyChunkOffset
      (opened.checkptSeekBlock T).checkptChunk = first.chunk := by
    rw [seek, one.lies, checkptChunk, applyChunkOffset, ← same.chunkOffset, ← same.param]
    push_cast
    rw [add_zero]
    rfl
  have flash : (opened.checkptSeekBlock T).flash = saved.flash.1 := by
    rw [seek]
    exact same.flash
  simp only [Dev.loadedPage, readPage, chunk, flash, stores.read]
  rw [← flash]

/-- The first byte that the reader gets is the one behind the data part. -/
theorem rdLoop (stores : StoresPages T saved) (same : SameBlocks saved reader) :
    (checkptRdLoop T 1 (reader.checkptOpen T false).2).1 = [byteBehind T saved reader] := by
  have between := same.toSameFlash.between_open (T := T)
  obtain ⟨next, blocks, seek⟩ := one.seek stores same
  have page := one.loadedPage stores same
  set opened := (reader.checkptOpen T false).2 with opened_eq
  have boundary : AtBoundary T opened :=
    ⟨between.buffer, between.reading, between.behind, by
      rw [seek]
      exact Int.natCast_nonneg block⟩
  have agree : (opened.loadedPage T).1.checkptTagsDiffer (opened.loadedPage T).2 = false := by
    obtain ⟨chunk_id, sequence, ecc⟩ := stores.tags first one.mem
    rw [page]
    refine decide_eq_false ?_
    rw [not_or, not_or, not_not, not_not]
    refine ⟨?_, not_lt.mpr ecc, sequence.trans one.sequence⟩
    rw [chunk_id, one.number, seek]
    rfl
  have ready : opened.checkptReady T = (true, (opened.loadedPage T).1.checkptStepReader) := by
    rw [boundary.ready_eq]
    simp only [agree]
    rfl
  have loop : (checkptRdLoop T 1 opened).1 =
      [(opened.loadedPage T).1.checkptStepReader.checkptTakeByte.1] := by
    simp only [checkptRdLoop, ready]
    rfl
  rw [loop, page, seek, byteBehind, one.record]
  rfl

end OnePage

/-! ## Round trips -/

/-- A call for no bytes gets none, and leaves the reader as it is. -/
theorem checkptRd_zero (reader : Dev Flash) :
    (reader.checkptRd T 0).1.2 = [] ∧ (reader.checkptRd T 0).2 = reader := by
  rw [checkptRd]
  split
  · exact ⟨rfl, rfl⟩
  · split <;> exact ⟨rfl, rfl⟩

theorem rdBytes_zero (sizes : List Nat) (none_wanted : sizes.sum = 0) (reader : Dev Flash) :
    rdBytes T sizes reader = [] := by
  induction sizes with
  | nil => rfl
  | cons size sizes ih =>
    rw [List.sum_cons, Nat.add_eq_zero_iff] at none_wanted
    obtain ⟨rfl, rest⟩ := none_wanted
    obtain ⟨bytes, same⟩ := checkptRd_zero (T := T) reader
    simp only [rdBytes, bytes, same, List.nil_append]
    exact ih rest

/-- One byte comes from one call. -/
theorem rdBytes_one {offset pages : Nat} (between : Between saved offset reader pages)
    (sizes : List Nat) (one_wanted : sizes.sum = 1) :
    rdBytes T sizes reader = (checkptRdLoop T 1 reader).1 := by
  induction sizes with
  | nil => cases one_wanted
  | cons size sizes ih =>
    rw [List.sum_cons] at one_wanted
    rcases Nat.add_eq_one_iff.mp one_wanted with ⟨rfl, rest⟩ | ⟨rfl, rest⟩
    · obtain ⟨bytes, same⟩ := checkptRd_zero (T := T) reader
      simp only [rdBytes, bytes, same, List.nil_append]
      exact ih rest
    · rw [rdBytes, rdBytes_zero sizes rest, between.rd 1, List.append_nil]

theorem returnsBytes_nil : ReturnsBytes T reader [] := by
  intro sizes few
  rw [rdBytes_zero sizes (Nat.le_zero.mp few), List.take_nil]

/-- The only byte of a stream comes back if it is the one behind the data part. -/
theorem OnePage.returnsBytes_iff {first : Written} {block : Nat} (one : OnePage saved first block)
    (stores : StoresPages T saved) (same : SameBlocks saved reader) (byte : UInt8) :
    ReturnsBytes T reader [byte] ↔ byte = byteBehind T saved reader := by
  have between := same.toSameFlash.between_open (T := T)
  have got := one.rdLoop stores same
  constructor
  · intro returned
    have read := returned [1] (le_refl 1)
    rw [rdBytes_one between [1] rfl, got] at read
    exact (List.cons.inj read).1.symm
  · rintro rfl sizes few
    have sizes_le : sizes.sum ≤ 1 := few
    rcases Nat.le_one_iff_eq_zero_or_eq_one.mp sizes_le with none_wanted | one_wanted
    · rw [rdBytes_zero sizes none_wanted, none_wanted, List.take_zero]
    · rw [rdBytes_one between sizes one_wanted, got, one_wanted]
      rfl

/-- A flash kept in memory holds the pages of its record, and no others. -/
def Mirrors (flash : RamFlash × List Written) : Prop :=
  ∀ chunk, flash.1 chunk = (flash.2.find? fun written => decide (written.chunk = chunk)).map
    fun written => (RamFlash.dataOf written.data,
      { written.tags with
        chunkUsed := true
        eccResult := .noError })

theorem Mirrors.program {flash : RamFlash × List Written} (mirrors : Mirrors flash) (chunk : Int)
    (data : Option Buf) (tags : ExtTags) (ok : Bool) :
    Mirrors (flash.1.program chunk data tags, { chunk, data, tags, ok } :: flash.2) := by
  intro other
  rw [RamFlash.program, List.find?_cons]
  by_cases here : chunk = other
  · subst here
    simp
  · have apart : other ≠ chunk := fun eq => here eq.symm
    simp only [Function.update_of_ne apart, here, decide_false]
    exact mirrors other

theorem mirrors_rule (pages : Nat) :
    WriterInvariant (ramTagger pages).recording fun dev => Mirrors dev.flash where
  putByte _ _ mirrors := mirrors
  flush dev mirrors := by
    have entered : dev.checkptEnterBlock.flash = dev.flash := by
      rw [checkptEnterBlock]
      split
      · rcases dev.checkptFindErasedBlock_cases with eq | ⟨block, -, -, -, -, eq⟩ <;> rw [eq]
      · rfl
    have taken : dev.checkptEnterBlock.checkptTakeBlock.flash = dev.flash := by
      rw [checkptTakeBlock]
      split <;> exact entered
    simp only [checkptFlushBuffer]
    split
    · rwa [entered]
    · exact Mirrors.program (taken ▸ mirrors) _ _ _ _

/-- A flash kept in memory stores the page of a stream faithfully. -/
theorem Mirrors.storesPages {pages : Nat} {saved : Dev (RamFlash × List Written)} {first : Written}
    (mirrors : Mirrors saved.flash) (record : saved.flash.2 = [first]) :
    StoresPages (ramTagger pages) saved := by
  have here : saved.flash.1.read first.chunk = (true, RamFlash.dataOf first.data,
      { first.tags with
        chunkUsed := true
        eccResult := .noError }) := by
    rw [RamFlash.read, mirrors, record]
    simp
  have elsewhere (chunk : Int) (other : ∀ written ∈ saved.flash.2, written.chunk ≠ chunk) :
      saved.flash.1.read chunk = (true, fun _ => 0xff, { eccResult := .noError }) := by
    rw [record] at other
    have first_other := other first (List.mem_singleton_self _)
    rw [RamFlash.read, mirrors, record]
    simp [first_other]
  have data (written : Written) (mem : written ∈ saved.flash.2) (buffer : Buf)
      (eq : written.data = some buffer) (i : Nat) :
      (((ramTagger pages).readChunkTags saved.flash.1 written.chunk).1.2.1) i = buffer i := by
    rw [record, List.mem_singleton] at mem
    subst mem
    change (saved.flash.1.read written.chunk).2.1 i = _
    rw [here, RamFlash.dataOf, eq]
    rfl
  refine
    { read := fun _ => rfl
      query := fun _ => rfl
      tags := ?_
      header := fun written mem buffer eq i _ => data written mem buffer eq i
      others := ?_
      blank := ?_
      data := fun written mem buffer eq i _ => data written mem buffer eq i
      alive := ?_ }
  · intro written mem
    rw [record, List.mem_singleton] at mem
    subst mem
    change (saved.flash.1.read written.chunk).2.2.chunkId = _ ∧
      (saved.flash.1.read written.chunk).2.2.seqNumber = _ ∧
      (saved.flash.1.read written.chunk).2.2.eccResult.code ≤ _
    rw [here]
    exact ⟨rfl, rfl, (by decide : EccResult.noError.code ≤ EccResult.fixed.code)⟩
  · intro chunk other
    change (saved.flash.1.read chunk).2.2.seqNumber ≠ _
    rw [elsewhere chunk other]
    decide
  · intro block page _ _ chunk other
    change (saved.flash.1.read chunk).2.1.word _ _ ≠ _
    rw [elsewhere chunk other]
    cases saved.swapEndian <;> decide
  · intro written _ block _
    change (RamFlash.query pages saved.flash.1 _).1 ≠ _
    rw [RamFlash.query]
    split <;> exact nofun

/-! ## Witnesses -/

/-- What a restart of the device finds again. -/
def layout (dev : Dev Flash) :=
  (dev.param, dev.swapEndian, dev.dataBytesPerChunk, dev.internalStartBlock, dev.internalEndBlock,
    dev.blockOffset, dev.chunkOffset)

theorem layout_rule (first : Dev Flash) :
    WriterInvariant T fun dev => dev.layout = first.layout where
  putByte _ _ same := same
  flush dev same := by
    have entered : dev.checkptEnterBlock.layout = dev.layout := by
      rw [checkptEnterBlock]
      split
      · rcases dev.checkptFindErasedBlock_cases with eq | ⟨block, -, -, -, -, eq⟩ <;> (rw [eq]; rfl)
      · rfl
    have taken : dev.checkptEnterBlock.checkptTakeBlock.layout = dev.layout := by
      rw [checkptTakeBlock]
      split <;> exact entered
    rcases dev.checkptFlushBuffer_cases T with ⟨-, eq⟩ | ⟨-, _, _, _, eq⟩
    · rw [eq, entered, same]
    · rw [eq]
      exact taken.trans same

/-- Adopting blocks leaves the flash and the layout alone. -/
theorem checkptAdoptBlocks_frame {Flash : Type} (blocks : List Int) : ∀ dev : Dev Flash,
    (blocks.foldl checkptAdoptBlock dev).flash = dev.flash ∧
      (blocks.foldl checkptAdoptBlock dev).layout = dev.layout := by
  induction blocks with
  | nil => exact fun _ => ⟨rfl, rfl⟩
  | cons block blocks ih =>
    intro dev
    obtain ⟨flash, layout⟩ := ih (checkptAdoptBlock dev block)
    rw [List.foldl_cons, flash, layout, checkptAdoptBlock]
    split <;> exact ⟨rfl, rfl⟩

/-- Saving a stream leaves the layout alone. -/
theorem saveRecords_layout (records : List (List UInt8)) (dev : Dev Flash) :
    (dev.saveRecords T records).2.layout = dev.layout := by
  have opened : (dev.checkptOpen T true).2.layout = dev.layout := by
    simp only [checkptOpen]
    split
    · rfl
    · obtain ⟨flash, log, blockInfo, nErased, nFree, eq⟩ := dev.started.checkptErase_frame T
      change (dev.started.checkptErase T).layout = _
      rw [eq]
      rfl
  have written := (layout_rule (T := T) dev).bytes.wrRecords records opened
  simp only [saveRecords, checkptClose]
  change (checkptFinish _ _).layout = _
  rw [checkptFinish]
  split
  · split
    · exact (layout_rule dev).flush _ written
    · exact written
  · split
    · rw [(checkptAdoptBlocks_frame _ _).2, written]
    · exact written

/-- A device in memory without checkpoint blocks. -/
theorem checkptErase_none {Flash : Type} {T : Tagger Flash} {dev : Dev Flash}
    (none_left : ∀ block, dev.blockState block ≠ .checkpoint) :
    dev.checkptErase T = { dev with blocksInCheckpt := 0 } := by
  have all (blocks : List Nat) : dev.checkptEraseBlocks T blocks = dev := by
    induction blocks with
    | nil => rfl
    | cons block blocks ih =>
      have same : dev.checkptEraseBlock T block = dev := if_neg (none_left block)
      rw [checkptEraseBlocks_cons, same, ih]
  rw [checkptErase_eq, all]

/-- The device in memory after a stream of so many records. -/
def ramSaved (records : List (List UInt8)) : Dev (RamFlash × List Written) :=
  (ramDevice.recorded.saveRecords (ramTagger 2).recording records).2

theorem ramSaved_mirrors (records : List (List UInt8)) : Mirrors (ramSaved records).flash := by
  have opened : (ramDevice.recorded.checkptOpen (ramTagger 2).recording true).2 =
      { ramDevice.recorded.started with blocksInCheckpt := 0 } := by
    rw [(checkptOpen_erases _ (by decide +kernel)).2]
    exact checkptErase_none fun _ => nofun
  have rule := mirrors_rule 2
  have written : Mirrors (wrCheckptRecords (ramTagger 2).recording records
      (ramDevice.recorded.checkptOpen (ramTagger 2).recording true).2).2.flash := by
    refine rule.bytes.wrRecords records ?_
    rw [opened]
    exact fun _ => rfl
  simp only [ramSaved, saveRecords, checkptClose]
  change Mirrors (checkptFinish _ _).flash
  rw [checkptFinish]
  split
  · split
    · exact rule.flush _ written
    · exact written
  · split
    · rwa [(checkptAdoptBlocks_frame _ _).1]
    · exact written

/-- A stream of one page in memory is stored faithfully. -/
theorem ramSaved_stores {records : List (List UInt8)}
    (one_page : (ramSaved records).flash.2.length = 1) :
    StoresPages (ramTagger 2) (ramSaved records) := by
  obtain ⟨first, record⟩ := List.length_eq_one_iff.mp one_page
  exact (ramSaved_mirrors records).storesPages record

/-- A freshly started device on the flash of such a stream. -/
def ramReader (records : List (List UInt8)) : Dev RamFlash :=
  { ramDevice with flash := (ramSaved records).flash.1 }

theorem ramReader_sameBlocks (records : List (List UInt8)) :
    SameBlocks (ramSaved records) (ramReader records) := by
  have same : (ramSaved records).layout = ramDevice.recorded.layout := saveRecords_layout _ _
  simp only [layout, Prod.mk.injEq] at same
  obtain ⟨param, swap, data, start_block, end_block, block_offset, chunk_offset⟩ := same
  exact
    { flash := rfl
      param := param.symm
      swap := swap.symm
      data := data.symm
      startBlock := start_block.symm
      endBlock := end_block.symm
      blockOffset := block_offset.symm
      chunkOffset := chunk_offset.symm }

end Dev

end Yaffs
