import Yaffs.CheckpointSizes
import Yaffs.CheckpointRules
import Yaffs.RamFlash

/-!
# Where the bytes of a checkpoint go

A flush that finds no erased block ends the record it happens in, unless the byte is the last one of
the record.  The answer of the tags handler to a program operation is not looked at.
-/

namespace Yaffs

namespace Dev

variable {Flash : Type} {T : Tagger Flash} {opened dev : Dev (Flash × List Written)}

/-! ## Bytes that have been passed to the stream -/

variable (T) in
/-- The device after so many bytes have been passed to the stream. -/
def Sent (opened dev : Dev (Flash × List Written)) (count : Nat) : Prop :=
  ∃ bytes : List UInt8, bytes.length = count ∧ dev = feed T.recording bytes opened

variable (T) in
/-- The device after a flush has failed. -/
def Gone (opened dev : Dev (Flash × List Written)) : Prop :=
  ∃ bytes : List UInt8, dev = feed T.recording bytes opened ∧ Lost opened dev bytes

theorem Sent.sameStream {count : Nat} (sent : Sent T opened dev count) (ready : NewStream opened) :
    SameStream opened dev ∧ dev.checkptBuffer.isSome := by
  obtain ⟨bytes, -, rfl⟩ := sent
  rcases filling_or_lost (T := T) ready bytes with filling | lost
  · obtain ⟨next, progress⟩ := filling.progress
    obtain ⟨buffer, buffer_eq, -⟩ := filling.buffer
    exact ⟨progress.toSameStream, by rw [buffer_eq]; rfl⟩
  · exact ⟨lost.toSameStream, lost.buffer⟩

theorem Sent.wrByte {count : Nat} (sent : Sent T opened dev count) (byte : UInt8) :
    Sent T opened (dev.checkptWrByte T.recording byte).2 (count + 1) := by
  obtain ⟨bytes, length, rfl⟩ := sent
  refine ⟨bytes ++ [byte], ?_, (feed_concat bytes byte opened).symm⟩
  rw [List.length_append, length, List.length_singleton]

theorem Gone.wrByte (gone : Gone T opened dev) (byte : UInt8) :
    (dev.checkptWrByte T.recording byte).1 = false ∧
      Gone T opened (dev.checkptWrByte T.recording byte).2 := by
  obtain ⟨bytes, rfl, lost⟩ := gone
  obtain ⟨failed, still⟩ := lost.wrByte (T := T) byte
  exact ⟨failed, bytes ++ [byte], (feed_concat bytes byte opened).symm, still⟩

theorem checkptByteCount_feed {Flash : Type} {T : Tagger Flash} (bytes : List UInt8) :
    ∀ dev : Dev Flash, (feed T bytes dev).checkptByteCount = dev.checkptByteCount +
      bytes.length := by
  have flush (dev : Dev Flash) :
      (dev.checkptFlushBuffer T).2.checkptByteCount = dev.checkptByteCount := by
    have entered : dev.checkptEnterBlock.checkptByteCount = dev.checkptByteCount := by
      simp only [checkptEnterBlock, checkptFindErasedBlock]
      split
      · split <;> rfl
      · rfl
    have took : dev.checkptEnterBlock.checkptTakeBlock.checkptByteCount =
        dev.checkptEnterBlock.checkptByteCount := by
      rw [checkptTakeBlock]
      split <;> rfl
    simp only [checkptFlushBuffer]
    split
    · exact entered
    · exact took.trans entered
  induction bytes with
  | nil => exact fun _ => rfl
  | cons byte bytes ih =>
    intro dev
    have put : (dev.checkptWrByte T byte).2.checkptByteCount = dev.checkptByteCount + 1 := by
      rw [checkptWrByte]
      split
      · exact flush _
      · rfl
    have fed : feed T (byte :: bytes) dev = feed T bytes (dev.checkptWrByte T byte).2 := rfl
    rw [fed, ih, put, List.length_cons]
    ring

/-- A byte that goes well has room on a page. -/
theorem Sent.room_of_done {count : Nat} (sent : Sent T opened dev count) (ready : NewStream opened)
    {byte : UInt8} (done : (dev.checkptWrByte T.recording byte).1 = true) :
    (count + 1) / opened.payload ≤ opened.room := by
  obtain ⟨bytes, length, rfl⟩ := sent
  rcases filling_or_lost (T := T) ready bytes with filling | lost
  · rcases filling.wrByte (T := T) ready byte with ⟨-, filling⟩ | ⟨failed, -⟩
    · obtain ⟨next, progress⟩ := filling.progress
      rw [List.length_append, length, List.length_singleton] at progress
      exact progress.le_room ready.positive
    · rw [failed] at done
      cases done
  · rw [(lost.wrByte (T := T) byte).1] at done
    cases done

theorem Gone.room {count : Nat} (gone : Gone T opened dev) (sent : Sent T opened dev count) :
    opened.room < count / opened.payload := by
  obtain ⟨bytes, rfl, lost⟩ := gone
  obtain ⟨other, length, same⟩ := sent
  have counts := congrArg Dev.checkptByteCount same
  rw [checkptByteCount_feed, checkptByteCount_feed, length, Nat.add_left_cancel_iff] at counts
  rw [← counts]
  exact lost.bytes

/-- A byte that fails has lost the stream. -/
theorem Sent.gone_of_failed {count : Nat} (sent : Sent T opened dev count)
    (ready : NewStream opened)
    {byte : UInt8} (failed : (dev.checkptWrByte T.recording byte).1 = false) :
    Gone T opened (dev.checkptWrByte T.recording byte).2 := by
  obtain ⟨bytes, -, rfl⟩ := sent
  rcases filling_or_lost (T := T) ready bytes with filling | lost
  · rcases filling.wrByte (T := T) ready byte with ⟨done, -⟩ | ⟨-, lost⟩
    · rw [done] at failed
      cases failed
    · exact ⟨bytes ++ [byte], (feed_concat bytes byte opened).symm, lost⟩
  · exact (Gone.wrByte ⟨bytes, rfl, lost⟩ byte).2

/-- What is lost stays lost. -/
theorem gone_invariant (opened : Dev (Flash × List Written)) :
    ByteInvariant T.recording (Gone T opened) where
  wrByte _ byte gone := (gone.wrByte byte).2

/-- The loop passes bytes until it is through or a flush fails.  All bytes but the last one have
room. -/
theorem Sent.wrLoop (ready : NewStream opened) (data : Dev (Flash × List Written) → Nat → UInt8)
    (left : Nat) : ∀ {dev : Dev (Flash × List Written)} {count : Nat} (written : Nat),
      Sent T opened dev count →
      ∃ passed ≤ left, (checkptWrLoop T.recording data left written dev).1 = written + passed ∧
        Sent T opened (checkptWrLoop T.recording data left written dev).2 (count + passed) ∧
        (passed < left → Gone T opened (checkptWrLoop T.recording data left written dev).2) ∧
        (1 < passed → (count + (passed - 1)) / opened.payload ≤ opened.room) := by
  induction left with
  | zero =>
    exact fun written sent => ⟨0, le_refl 0, rfl, sent, fun lt => absurd lt (Nat.not_lt_zero 0),
      fun lt => absurd lt (Nat.not_lt_zero 1)⟩
  | succ left ih =>
    intro dev count written sent
    have one_more := sent.wrByte (data dev written)
    simp only [checkptWrLoop]
    split
    case isTrue done =>
      obtain ⟨passed, le, answer, sent', gone, room⟩ := ih (written + 1) one_more
      refine ⟨passed + 1, Nat.succ_le_succ le, ?_, ?_, fun lt => gone (Nat.lt_of_succ_lt_succ lt),
        fun lt => ?_⟩
      · rw [answer, Nat.add_right_comm, Nat.add_assoc]
      · rw [Nat.add_comm passed 1, ← Nat.add_assoc]
        exact sent'
      · rcases Nat.lt_or_ge 1 passed with more | last
        · have place : count + (passed + 1 - 1) = count + 1 + (passed - 1) := by omega
          rw [place]
          exact room more
        · have place : count + (passed + 1 - 1) = count + 1 := by omega
          rw [place]
          exact sent.room_of_done ready done
    case isFalse failed =>
      refine ⟨1, Nat.succ_le_succ (Nat.zero_le left), rfl, one_more, fun _ => ?_,
        fun lt => absurd lt (lt_irrefl 1)⟩
      exact sent.gone_of_failed ready (by simpa using failed)

/-- A call passes all its bytes, or the stream is lost. -/
theorem Sent.wr {count : Nat} (sent : Sent T opened dev count) (ready : NewStream opened)
    (data : Dev (Flash × List Written) → Nat → UInt8) (nBytes : Nat) :
    ∃ passed ≤ nBytes, (dev.checkptWr T.recording data nBytes).1 = passed ∧
      Sent T opened (dev.checkptWr T.recording data nBytes).2 (count + passed) ∧
      (passed < nBytes → Gone T opened (dev.checkptWr T.recording data nBytes).2) ∧
      (1 < passed → (count + (passed - 1)) / opened.payload ≤ opened.room) := by
  obtain ⟨same, has_buffer⟩ := sent.sameStream ready
  obtain ⟨buffer, buffer_eq⟩ := Option.isSome_iff_exists.mp has_buffer
  have writing : dev.checkptOpenWrite = true := same.writing.trans ready.writing
  obtain ⟨passed, le, answer, sent', gone, room⟩ := sent.wrLoop ready data nBytes 0
  have call : dev.checkptWr T.recording data nBytes =
      (((checkptWrLoop T.recording data nBytes 0 dev).1 : Int),
        (checkptWrLoop T.recording data nBytes 0 dev).2) := by
    simp only [checkptWr, buffer_eq, writing]
    rfl
  rw [call]
  rw [Nat.zero_add] at answer
  exact ⟨passed, le, congrArg Int.ofNat answer, sent', gone, room⟩

/-- A call on a stream that is lost takes one byte and no more. -/
theorem Gone.wr (gone : Gone T opened dev) (ready : NewStream opened)
    (data : Dev (Flash × List Written) → Nat → UInt8) (nBytes : Nat) (some_bytes : 0 < nBytes) :
    (dev.checkptWr T.recording data nBytes).1 = 1 := by
  obtain ⟨bytes, eq, lost⟩ := gone
  obtain ⟨buffer, buffer_eq⟩ := Option.isSome_iff_exists.mp lost.buffer
  have writing : dev.checkptOpenWrite = true := lost.writing.trans ready.writing
  obtain ⟨left, rfl⟩ := Nat.exists_eq_succ_of_ne_zero some_bytes.ne'
  have failed : (dev.checkptWrByte T.recording (data dev 0)).1 = false := (lost.wrByte (T := T) _).1
  simp only [checkptWr, buffer_eq, writing, checkptWrLoop, failed]
  rfl

/-! ## The parts of a checkpoint -/

variable (T) in
/-- A stream that is lost, and for which so many bytes are too many. -/
structure Spent (opened dev : Dev (Flash × List Written)) (count : Nat) : Prop where
  gone : Gone T opened dev
  beyond : opened.room < count / opened.payload

theorem Spent.more {count : Nat} (spent : Spent T opened dev count) (size : Nat)
    {after : Dev (Flash × List Written)} (stays : Gone T opened after) :
    Spent T opened after (count + size) :=
  ⟨stays, spent.beyond.trans_le (Nat.div_le_div_right (Nat.le_add_right count size))⟩

variable (T) in
/-- A part has been written in full, or the stream is lost. -/
def Went (opened : Dev (Flash × List Written)) (count : Nat)
    (written : Bool × Dev (Flash × List Written)) : Prop :=
  written.1 = true ∧ Sent T opened written.2 count ∨ Spent T opened written.2 count

theorem Went.andThen {first size : Nat} {written : Bool × Dev (Flash × List Written)}
    (went : Went T opened first written)
    (part : Dev (Flash × List Written) → Bool × Dev (Flash × List Written))
    (goes_on : Sent T opened written.2 first → Went T opened (first + size) (part written.2))
    (stays : Gone T opened written.2 → Gone T opened (part written.2).2) :
    Went T opened (first + size) (Dev.andThen written part) := by
  rw [Dev.andThen]
  split
  case isTrue =>
    rcases went with ⟨-, sent⟩ | spent
    · exact goes_on sent
    · exact .inr (spent.more size (stays spent.gone))
  case isFalse failed =>
    rcases went with ⟨done, -⟩ | spent
    · exact absurd done failed
    · exact .inr (spent.more size spent.gone)

theorem Sent.memory {count : Nat} (sent : Sent T opened dev count) (ready : NewStream opened)
    (data : Dev (Flash × List Written) → Nat → UInt8) (nBytes : Nat) :
    Went T opened (count + nBytes) (decide ((dev.checkptWr T.recording data nBytes).1 = nBytes),
      (dev.checkptWr T.recording data nBytes).2) := by
  obtain ⟨passed, le, answer, sent', gone, -⟩ := sent.wr ready data nBytes
  rcases Nat.lt_or_eq_of_le le with short | rfl
  · refine .inr ⟨gone short, ((gone short).room sent').trans_le (Nat.div_le_div_right ?_)⟩
    exact Nat.add_le_add_left le count
  · exact .inl ⟨decide_eq_true answer, sent'⟩

theorem Sent.record {count : Nat} (sent : Sent T opened dev count) (ready : NewStream opened)
    (record : List UInt8) :
    Went T opened (count + record.length) (dev.checkptWrRecord T.recording record) :=
  sent.memory ready _ _

theorem length_words (swap : Bool) (words : List Nat) :
    (words.flatMap (Words.bytes swap 4)).length = 4 * words.length := by
  induction words with
  | nil => rfl
  | cons word words ih =>
    rw [List.flatMap_cons, List.length_append, Words.length_bytes, ih, List.length_cons]
    ring

theorem length_checkptValidity (dev : Dev Flash) (head : Bool) :
    (dev.checkptValidity head).length = checkptValiditySize :=
  length_words dev.swapEndian [checkptValiditySize, yaffsMagic, checkpointVersion, head.toNat]

theorem length_blockInfo (swap : Bool) (info : BlockInfo) : (info.bytes swap).length =
    blockInfoSize :=
  length_words swap info.words

theorem length_checkptDev (dev : Dev Flash) : dev.checkptDev.length = checkptDevSize := by
  rw [checkptDev, List.length_append, Words.length_bytes]
  simp only [List.flatMap_cons, List.flatMap_nil, List.length_append, Words.length_bytes,
    List.length_nil]
  decide

theorem length_checkptEndRecord (dev : Dev Flash) :
    dev.checkptEndRecord.length = checkptObjSize := by
  rw [checkptEndRecord, List.length_append, Words.length_bytes, List.length_replicate]
  decide

/-- Bytes of records. -/
def recordsSize (records : List (List UInt8)) : Nat := (records.map List.length).sum

/-- Bytes of the records of the objects. -/
def bucketsSize (buckets : List (List (List (List UInt8)))) : Nat :=
  (buckets.map fun bucket => (bucket.map recordsSize).sum).sum

/-- Bytes of the counters, the block table and the chunk bits. -/
def checkptTablesSize (dev : Dev Flash) : Nat :=
  checkptDevSize + dev.nBlocks * blockInfoSize + dev.nBlocks * dev.chunkBitStride

/-- Bytes of a checkpoint. -/
def checkptSize (dev : Dev Flash) (buckets : List (List (List (List UInt8)))) : Nat :=
  checkptValiditySize + dev.checkptTablesSize + (bucketsSize buckets + checkptObjSize)
    + checkptValiditySize + 4

theorem SameStream.nBlocks (same : SameStream opened dev) : dev.nBlocks = opened.nBlocks := by
  rw [Dev.nBlocks, same.startBlock, same.endBlock, Dev.nBlocks]

theorem Sent.records (ready : NewStream opened) (records : List (List UInt8)) :
    ∀ {dev : Dev (Flash × List Written)} {count : Nat}, Sent T opened dev count →
      Went T opened (count + recordsSize records) (wrCheckptRecords T.recording records dev) := by
  induction records with
  | nil => exact fun sent => .inl ⟨rfl, sent⟩
  | cons record rest ih =>
    intro dev count sent
    have size : recordsSize (record :: rest) = record.length + recordsSize rest := List.sum_cons
    rw [size, ← Nat.add_assoc]
    exact (sent.record ready record).andThen (wrCheckptRecords T.recording rest) ih
      ((gone_invariant opened).wrRecords rest)

theorem Sent.swappedBlocks (ready : NewStream opened) (blocks : List Nat) :
    ∀ {dev : Dev (Flash × List Written)} {count : Nat}, Sent T opened dev count →
      Went T opened (count + blocks.length * blockInfoSize)
        (wrCheckptSwappedBlocks T.recording blocks dev) := by
  induction blocks with
  | nil =>
    intro dev count sent
    rw [List.length_nil, Nat.zero_mul]
    exact .inl ⟨rfl, sent⟩
  | cons block rest ih =>
    intro dev count sent
    have size : count + (block :: rest).length * blockInfoSize =
        count + blockInfoSize + rest.length * blockInfoSize := by
      rw [List.length_cons]
      ring
    rw [size]
    have written := sent.record ready ((dev.blockInfo block).bytes true)
    rw [length_blockInfo] at written
    exact written.andThen (wrCheckptSwappedBlocks T.recording rest) ih
      ((gone_invariant opened).wrSwappedBlocks rest)

/-- Three parts, each only after the ones before it. -/
theorem andThen_andThen {Flash : Type} (first : Bool × Dev Flash)
    (second third : Dev Flash → Bool × Dev Flash) :
    Dev.andThen (Dev.andThen first second) third =
      if ¬first.1 then (false, first.2)
      else if ¬(second first.2).1 then (false, (second first.2).2)
      else third (second first.2).2 := by
  obtain ⟨ok, dev⟩ := first
  cases ok with
  | false => rfl
  | true =>
    change Dev.andThen (second dev) third =
      if ¬(second dev).1 then (false, (second dev).2) else third (second dev).2
    obtain ⟨ok, dev'⟩ := second dev
    cases ok <;> rfl

theorem Sent.tables {count : Nat} (sent : Sent T opened dev count) (ready : NewStream opened) :
    Went T opened (count + opened.checkptTablesSize) (dev.wrCheckptDev T.recording) := by
  have table {dev : Dev (Flash × List Written)} {count : Nat} (sent : Sent T opened dev count) :
      Went T opened (count + opened.nBlocks * blockInfoSize)
        (dev.wrCheckptBlockInfo T.recording) := by
    obtain ⟨same, -⟩ := sent.sameStream ready
    rw [wrCheckptBlockInfo, ← same.nBlocks]
    split
    · have all : dev.blockList.length = dev.nBlocks := by
        rw [blockList, List.length_map, List.length_range, Dev.nBlocks]
      have blocks := sent.swappedBlocks ready dev.blockList
      rwa [all] at blocks
    · exact sent.memory ready _ _
  have bits {dev : Dev (Flash × List Written)} {count : Nat} (sent : Sent T opened dev count) :
      Went T opened (count + opened.nBlocks * opened.chunkBitStride)
        (dev.wrCheckptChunkBits T.recording) := by
    obtain ⟨same, -⟩ := sent.sameStream ready
    have stride : dev.chunkBitStride = opened.chunkBitStride := by
      rw [chunkBitStride, same.param, chunkBitStride]
    rw [wrCheckptChunkBits, ← same.nBlocks, ← stride]
    exact sent.memory ready _ _
  have counters := sent.record ready dev.checkptDev
  rw [length_checkptDev] at counters
  have parts : dev.wrCheckptDev T.recording =
      Dev.andThen (Dev.andThen (dev.checkptWrRecord T.recording dev.checkptDev)
        (wrCheckptBlockInfo T.recording)) (wrCheckptChunkBits T.recording) := by
    rw [andThen_andThen]
    rfl
  rw [parts, checkptTablesSize, ← Nat.add_assoc, ← Nat.add_assoc]
  exact (counters.andThen _ table (gone_invariant opened).wrBlockInfo).andThen _ bits
    ((gone_invariant opened).wr _ _)

theorem Sent.bucket (ready : NewStream opened) (bucket : List (List (List UInt8))) :
    ∀ {dev : Dev (Flash × List Written)} {count : Nat} (ok : Bool), ok = true →
      Sent T opened dev count → Went T opened (count + (bucket.map recordsSize).sum)
        (wrCheckptBucket T.recording bucket ok dev) := by
  induction bucket with
  | nil => exact fun ok is_ok sent => .inl ⟨is_ok, sent⟩
  | cons records rest ih =>
    intro dev count ok _ sent
    rw [List.map_cons, List.sum_cons, ← Nat.add_assoc, wrCheckptBucket]
    rcases sent.records ready records with ⟨done, sent'⟩ | spent
    · exact ih _ done sent'
    · exact .inr (spent.more _ ((gone_invariant opened).wrBucket rest _ spent.gone))

theorem Sent.buckets (ready : NewStream opened) (buckets : List (List (List (List UInt8)))) :
    ∀ {dev : Dev (Flash × List Written)} {count : Nat}, Sent T opened dev count →
      Went T opened (count + bucketsSize buckets) (wrCheckptBuckets T.recording buckets dev) := by
  induction buckets with
  | nil => exact fun sent => .inl ⟨rfl, sent⟩
  | cons bucket rest ih =>
    intro dev count sent
    have size : bucketsSize (bucket :: rest) =
        (bucket.map recordsSize).sum + bucketsSize rest := List.sum_cons
    rw [size, ← Nat.add_assoc]
    exact (sent.bucket ready bucket true rfl).andThen (wrCheckptBuckets T.recording rest) ih
      ((gone_invariant opened).wrBuckets rest)

theorem Sent.objects {count : Nat} (sent : Sent T opened dev count) (ready : NewStream opened)
    (buckets : List (List (List (List UInt8)))) :
    Went T opened (count + (bucketsSize buckets + checkptObjSize))
      (dev.wrCheckptObjs T.recording buckets) := by
  have written := sent.buckets ready buckets
  have parts : dev.wrCheckptObjs T.recording buckets =
      Dev.andThen (wrCheckptBuckets T.recording buckets dev)
        fun written => written.checkptWrRecord T.recording dev.checkptEndRecord := rfl
  rw [parts, ← Nat.add_assoc]
  refine written.andThen _ (fun sent' => ?_) fun gone => (gone_invariant opened).wrRecord _ gone
  have last := sent'.record ready dev.checkptEndRecord
  rwa [length_checkptEndRecord] at last

theorem Sent.marker {count : Nat} (sent : Sent T opened dev count) (ready : NewStream opened)
    (head : Bool) :
    Went T opened (count + checkptValiditySize) (dev.wrCheckptValidityMarker T.recording head) := by
  have record := sent.record ready (dev.checkptValidity head)
  rwa [length_checkptValidity] at record

/-- A save goes well if all its bytes but the last one have room, and then it has passed all of
them. -/
theorem wrParts_done (ready : NewStream opened) (buckets : List (List (List (List UInt8)))) :
    ((opened.wrCheckptParts T.recording buckets).1 = true ↔
      (opened.checkptSize buckets - 1) / opened.payload ≤ opened.room) ∧
    ((opened.wrCheckptParts T.recording buckets).1 = true →
      Sent T opened (opened.wrCheckptParts T.recording buckets).2
        (opened.checkptSize buckets)) := by
  have start : Sent T opened opened 0 := ⟨[], rfl, rfl⟩
  have head := start.marker ready true
  rw [Nat.zero_add] at head
  have tables := head.andThen _ (fun sent => sent.tables ready) (gone_invariant opened).wrDev
  have objects := tables.andThen (fun dev => dev.wrCheckptObjs T.recording buckets)
    (fun sent => sent.objects ready buckets) ((gone_invariant opened).wrObjs buckets)
  have tail := objects.andThen (fun dev => dev.wrCheckptValidityMarker T.recording false)
    (fun sent => sent.marker ready false) ((gone_invariant opened).wrRecord _)
  simp only [wrCheckptParts]
  generalize Dev.andThen (Dev.andThen (Dev.andThen (opened.wrCheckptValidityMarker T.recording true)
    (wrCheckptDev T.recording)) fun dev => dev.wrCheckptObjs T.recording buckets)
    (fun dev => dev.wrCheckptValidityMarker T.recording false) = written at tail ⊢
  rw [checkptSize]
  generalize checkptValiditySize + opened.checkptTablesSize + (bucketsSize buckets + checkptObjSize)
    + checkptValiditySize = count at tail ⊢
  let sum := Words.bytes written.2.swapEndian 4 written.2.getCheckptSum
  have sum_record : written.2.wrCheckptSum T.recording =
      (decide ((written.2.checkptWr T.recording (fun _ i => sum.getD i 0) 4).1 = (4 : Nat)),
        (written.2.checkptWr T.recording (fun _ i => sum.getD i 0) 4).2) := by
    simp only [wrCheckptSum, checkptWrRecord, Words.length_bytes]
    rfl
  rw [Dev.andThen]
  rcases tail with ⟨done, sent⟩ | spent
  · rw [if_pos done, sum_record]
    obtain ⟨passed, le, answer, sent', gone, room⟩ :=
      sent.wr ready (fun _ i => sum.getD i 0) 4
    dsimp only
    rw [answer, decide_eq_true_iff, Int.natCast_inj]
    refine ⟨⟨fun full => ?_, fun enough => ?_⟩, fun full => full ▸ sent'⟩
    · subst full
      exact room (by decide)
    · by_contra short
      have lost := (gone (lt_of_le_of_ne le short)).room sent'
      have fewer : (count + passed) / opened.payload ≤ (count + 4 - 1) / opened.payload :=
        Nat.div_le_div_right (by omega)
      omega
  · have beyond : ¬(count + 4 - 1) / opened.payload ≤ opened.room := by
      have fewer : count / opened.payload ≤ (count + 4 - 1) / opened.payload :=
        Nat.div_le_div_right (by omega)
      have lost := spent.beyond
      omega
    have fails : (if written.1 then written.2.wrCheckptSum T.recording else written).1 = false := by
      split
      case isTrue =>
        rw [sum_record, spent.gone.wr ready _ 4 (by decide)]
        rfl
      case isFalse failed => simpa using failed
    rw [fails]
    exact ⟨iff_of_false Bool.false_ne_true beyond, fun done => absurd done Bool.false_ne_true⟩

/-! ## The bytes of a save -/

variable (T) in
/-- The device for which a save has opened the stream. -/
def saveOpened (dev : Dev (Flash × List Written)) : Dev (Flash × List Written) :=
  ((dev.checkptInvalidate T.recording).checkptOpen T.recording true).2

variable (T) in
/-- The bytes that a save passes to the stream: none if the last checkpoint is still good. -/
def Passes (dev : Dev (Flash × List Written)) (buckets : List (List (List (List UInt8))))
    (bytes : List UInt8) : Prop :=
  dev.isCheckpointed = true ∧ bytes = [] ∨ dev.isCheckpointed = false ∧
    ((saveOpened T dev).wrCheckptParts T.recording buckets).2 =
      feed T.recording bytes (saveOpened T dev)

/-- Number of blocks that a reader is ready to follow. -/
def readerBlocks (dev : Dev Flash) : Nat :=
  (dev.internalEndBlock - dev.internalStartBlock) / 16 + 2

/-- A byte of the stream lies on a page that has been programmed without an error, in one of the
blocks that a reader comes to. -/
def OnFlash (opened saved : Dev (Flash × List Written)) (i : Nat) (byte : UInt8) : Prop :=
  ∃ written buffer, saved.flash.2.reverse[i / opened.payload]? = some written ∧
    written.ok = true ∧ written.data = some buffer ∧
    buffer (checkptChunkHdrSize + i % opened.payload) = byte ∧
    i / opened.payload / opened.param.chunksPerBlock < opened.readerBlocks

variable (T) in
/-- All bytes of a save are on the flash, on pages that a reader finds one after the other. -/
structure AllOnFlash (dev : Dev Flash) (buckets : List (List (List (List UInt8)))) : Prop where
  chain : (saveOpened T dev.recorded).Chain
    (dev.recorded.checkpointSave T.recording buckets).flash.2
  bytes : ∀ bytes, Passes T dev.recorded buckets bytes → ∀ i byte, bytes[i]? = some byte →
    OnFlash (saveOpened T dev.recorded) (dev.recorded.checkpointSave T.recording buckets) i byte

theorem partOf_place {size i : Nat} (positive : 0 < size) {bytes : List UInt8} {byte : UInt8}
    (eq : bytes[i]? = some byte) : (partOf size bytes (i / size))[i % size]? = some byte := by
  rw [partOf, List.getElem?_take_of_lt (Nat.mod_lt i positive), List.getElem?_drop,
    Nat.div_add_mod']
  exact eq

/-- A stream that has been lost is closed with all the room used up. -/
theorem Lost.close {bytes : List UInt8} (lost : Lost opened dev bytes) (ready : NewStream opened) :
    (dev.checkptClose T.recording).1 = true ∧
      (dev.checkptClose T.recording).2.flash.2.length = opened.room ∧
      (dev.checkptClose T.recording).2.blocksInCheckpt =
        opened.room ⌈/⌉ opened.param.chunksPerBlock := by
  have writing := lost.writing.trans ready.writing
  have behind : checkptChunkHdrSize ≤ dev.checkptByteOffs := by
    have header := ready.header
    have offs := lost.byteOffs
    rw [lost.data] at offs
    omega
  rw [checkptClose_eq writing behind, checkptFlushBuffer_nowhere lost.nextBlock lost.curBlock]
  exact ⟨lost.buffer, lost.count, lost.taken⟩

/-- How many pages and blocks the closed stream has taken. -/
theorem count_closed (ready : NewStream opened) (bytes : List UInt8) :
    ((feed T.recording bytes opened).checkptClose T.recording).1 = true ∧
      ((feed T.recording bytes opened).checkptClose T.recording).2.flash.2.length =
        min (bytes.length / opened.payload + 1) opened.room ∧
      ((feed T.recording bytes opened).checkptClose T.recording).2.blocksInCheckpt =
        min (bytes.length / opened.payload + 1) opened.room ⌈/⌉ opened.param.chunksPerBlock := by
  rcases filling_or_lost (T := T) ready bytes with filling | lost
  · exact ⟨(filling.close ready).1, (filling.close ready).2.count, (filling.close ready).2.blocks⟩
  · rw [Nat.min_eq_right (lost.bytes.le.trans (Nat.le_succ _))]
    exact lost.close ready

/-- All bytes are on the flash if and only if there is room for their pages, also in the blocks that
a reader comes to, and each of these pages has been programmed without an error. -/
theorem bytes_onFlash_iff (ready : NewStream opened) {bytes : List UInt8} (some_bytes : bytes ≠ [])
    (saved : Dev (Flash × List Written))
    (closed : saved.flash = ((feed T.recording bytes opened).checkptClose T.recording).2.flash) :
    (opened.Chain saved.flash.2 ∧ ∀ i byte, bytes[i]? = some byte → OnFlash opened saved i byte) ↔
      (∀ page < bytes.length ⌈/⌉ opened.payload, ∀ written,
          saved.flash.2.reverse[page]? = some written → written.ok = true) ∧
        bytes.length ⌈/⌉ opened.payload ≤ opened.room ∧
        bytes.length ⌈/⌉ opened.payload ≤ opened.readerBlocks * opened.param.chunksPerBlock := by
  have positive := payload_pos ready
  have count : saved.flash.2.reverse.length = min (bytes.length / opened.payload + 1)
    opened.room := by
    rw [List.length_reverse, closed]
    exact (count_closed ready bytes).2.1
  have page_iff (page : Nat) :
      page < bytes.length ⌈/⌉ opened.payload ↔ page * opened.payload < bytes.length := by
    rw [← not_le, ceilDiv_le_iff_le_mul positive, not_le, Nat.mul_comm]
  have last : 0 < bytes.length ⌈/⌉ opened.payload := by
    rw [page_iff, Nat.zero_mul]
    exact List.length_pos_of_ne_nil some_bytes
  constructor
  · rintro ⟨-, on_flash⟩
    have page_on (page : Nat) (lt : page < bytes.length ⌈/⌉ opened.payload) :
        ∃ written, saved.flash.2.reverse[page]? = some written ∧ written.ok = true ∧
          page / opened.param.chunksPerBlock < opened.readerBlocks := by
      have inside := (page_iff page).mp lt
      obtain ⟨written, buffer, found, ok, -, -, near⟩ :=
        on_flash _ _ (List.getElem?_eq_getElem inside)
      rw [Nat.mul_div_cancel _ positive] at found near
      exact ⟨written, found, ok, near⟩
    obtain ⟨written, found, -, near⟩ :=
      page_on (bytes.length ⌈/⌉ opened.payload - 1) (Nat.sub_lt last Nat.one_pos)
    refine ⟨fun page lt written eq => ?_, ?_, ?_⟩
    · obtain ⟨written', found, ok, -⟩ := page_on page lt
      obtain rfl : written = written' := Option.some.inj (eq.symm.trans found)
      exact ok
    · obtain ⟨inside, -⟩ := List.getElem?_eq_some_iff.mp found
      omega
    · have bound := (Nat.div_lt_iff_lt_mul ready.positive).mp near
      omega
  · rintro ⟨ok, enough_room, near⟩
    rcases filling_or_lost (T := T) ready bytes with filling | lost
    · obtain ⟨-, save⟩ := filling.close ready
      refine ⟨by rw [closed]; exact save.chain, fun i byte eq => ?_⟩
      obtain ⟨i_lt, -⟩ := List.getElem?_eq_some_iff.mp eq
      have page_lt : i / opened.payload < bytes.length ⌈/⌉ opened.payload := by
        rw [page_iff]
        exact (Nat.div_mul_le_self i _).trans_lt i_lt
      have inside : i / opened.payload < saved.flash.2.reverse.length := by
        rw [count, Nat.lt_min]
        exact ⟨Nat.lt_succ_of_le (Nat.div_le_div_right i_lt.le), page_lt.trans_le enough_room⟩
      have found := List.getElem?_eq_getElem inside
      obtain ⟨buffer, data, holds⟩ := save.carried (i / opened.payload) _
        (by rw [← closed]; exact found)
      refine ⟨_, buffer, found, ok _ page_lt _ found, data,
        holds.carries _ _ (partOf_place positive eq), ?_⟩
      rw [Nat.div_lt_iff_lt_mul ready.positive]
      exact page_lt.trans_le near
    · have beyond := lost.bytes
      have full : bytes.length / opened.payload ≤ bytes.length ⌈/⌉ opened.payload := by
        rcases ceilDiv_cases positive bytes.length with ⟨-, pages⟩ | ⟨-, pages⟩ <;> omega
      omega

/-! ## Saving -/

/-- The device that is to be written is as good as the one before the old checkpoint was erased. -/
theorem checkptInvalidate_recorded (dev : Dev Flash) :
    (dev.recorded.checkptInvalidate T.recording).flash.2 = [] ∧
      (dev.recorded.checkptInvalidate T.recording).param = dev.param ∧
      (dev.recorded.checkptInvalidate T.recording).dataBytesPerChunk = dev.dataBytesPerChunk ∧
      (dev.recorded.checkptInvalidate T.recording).internalEndBlock = dev.internalEndBlock := by
  rcases dev.recorded.checkptInvalidate_cases T.recording with ⟨-, -, eq⟩ | eq
  · rw [eq]
    exact ⟨rfl, rfl, rfl, rfl⟩
  · obtain ⟨record, -⟩ := checkptErase_record T { dev.recorded with isCheckpointed := false }
    obtain ⟨flash, log, blockInfo, nErased, nFree, frame⟩ :=
      { dev.recorded with isCheckpointed := false }.checkptErase_frame T.recording
    rw [eq]
    refine ⟨record, ?_⟩
    rw [frame]
    exact ⟨rfl, rfl, rfl⟩

/-- A save ends well if it has opened the stream, has written all parts and has closed the stream.
-/
theorem wrCheckptData_good {Flash : Type} {T : Tagger Flash} {dev : Dev Flash}
    {buckets : List (List (List (List UInt8)))} :
    (dev.wrCheckptData T buckets).isCheckpointed = true ↔
      dev.checkptRequired = true ∧ (dev.checkptOpen T true).1 = true ∧
        ((dev.checkptOpen T true).2.wrCheckptParts T buckets).1 = true ∧
        (((dev.checkptOpen T true).2.wrCheckptParts T buckets).2.checkptClose T).1 = true := by
  simp only [wrCheckptData, Bool.and_eq_true]
  cases required : dev.checkptRequired with
  | false => exact iff_of_false (fun good => Bool.false_ne_true good.1) (by simp)
  | true =>
    simp only [if_true, true_and]
    cases opens : (dev.checkptOpen T true).1 with
    | false =>
      rw [Dev.andThen, if_neg (by rw [opens]; decide), opens]
      exact iff_of_false (fun good => Bool.false_ne_true good.1) (by simp)
    | true =>
      rw [Dev.andThen, if_pos opens]
      exact (and_iff_right rfl).symm

/-- What a save leaves behind is what closing the stream leaves behind. -/
theorem wrCheckptData_closed {Flash : Type} {T : Tagger Flash} {dev : Dev Flash}
    (buckets : List (List (List (List UInt8)))) (required : dev.checkptRequired = true)
    (opens : (dev.checkptOpen T true).1 = true) :
    let closed := (((dev.checkptOpen T true).2.wrCheckptParts T buckets).2.checkptClose T).2
    (dev.wrCheckptData T buckets).flash = closed.flash ∧
      (dev.wrCheckptData T buckets).blocksInCheckpt = closed.blocksInCheckpt := by
  simp only [wrCheckptData]
  rw [if_pos required, Dev.andThen, if_pos opens]
  exact ⟨rfl, rfl⟩

/-- The bytes of a checkpoint that is marked good are on the flash if and only if there was room for
all of them, also in the blocks that a reader comes to, and each page with a byte has been
programmed without an error. -/
theorem all_on_flash_iff (dev : Dev Flash) (geometry : Geometry dev)
    (buckets : List (List (List (List UInt8))))
    (good : (dev.recorded.checkpointSave T.recording buckets).isCheckpointed = true) :
    let opened := saveOpened T dev.recorded
    let pages := opened.checkptSize buckets ⌈/⌉ opened.payload
    AllOnFlash T dev buckets ↔ dev.isCheckpointed = true ∨
      (∀ page < pages, ∀ written,
        (dev.recorded.checkpointSave T.recording buckets).flash.2.reverse[page]? = some written →
          written.ok = true) ∧
      pages ≤ opened.room ∧ pages ≤ opened.readerBlocks * opened.param.chunksPerBlock := by
  dsimp only
  cases skips : dev.isCheckpointed with
  | true =>
    refine iff_of_true ⟨?_, ?_⟩ (.inl rfl)
    · have same : dev.recorded.checkpointSave T.recording buckets = dev.recorded := if_pos skips
      rw [same]
      exact .nil
    · rintro bytes (⟨-, rfl⟩ | ⟨fresh, -⟩) i byte eq
      · cases eq
      · rw [show dev.recorded.isCheckpointed = dev.isCheckpointed from rfl, skips] at fresh
        cases fresh
  | false =>
    have starts : dev.recorded.checkpointSave T.recording buckets =
        (dev.recorded.checkptInvalidate T.recording).wrCheckptData T.recording buckets :=
      if_neg (by rw [show dev.recorded.isCheckpointed = dev.isCheckpointed from rfl, skips]; decide)
    rw [starts] at good
    obtain ⟨required, opens, done, -⟩ := wrCheckptData_good.mp good
    have closed : (dev.recorded.checkpointSave T.recording buckets).flash =
        (((saveOpened T dev.recorded).wrCheckptParts T.recording buckets).2.checkptClose
          T.recording).2.flash := by
      rw [starts]
      exact (wrCheckptData_closed buckets required opens).1
    obtain ⟨record, param, data, end_block⟩ := checkptInvalidate_recorded (T := T) dev
    have invalidated : Geometry (dev.recorded.checkptInvalidate T.recording) := by
      refine ⟨?_, ?_, ?_, ?_⟩
      · rw [data]
        exact geometry.header
      · rw [data, param]
        exact geometry.total
      · rw [param]
        exact geometry.positive
      · rw [param, end_block]
        exact geometry.bounded
    have ready : NewStream (saveOpened T dev.recorded) := ready_of_open invalidated record opens
    obtain ⟨bytes, length, fed⟩ := (wrParts_done ready buckets).2 done
    have closed' : (dev.recorded.checkpointSave T.recording buckets).flash =
        ((feed T.recording bytes (saveOpened T dev.recorded)).checkptClose
          T.recording).2.flash := by
      rw [← fed]
      exact closed
    have main (other : List UInt8) (same : feed T.recording other (saveOpened T dev.recorded) =
        feed T.recording bytes (saveOpened T dev.recorded)) := by
      have other_length : other.length = (saveOpened T dev.recorded).checkptSize buckets := by
        have counts := congrArg Dev.checkptByteCount same
        rw [checkptByteCount_feed, checkptByteCount_feed, length] at counts
        exact Nat.add_left_cancel counts
      have some_bytes : other ≠ [] := by
        rw [← List.length_pos_iff, other_length]
        exact Nat.add_pos_right _ (by decide)
      have iff := bytes_onFlash_iff ready some_bytes
        (dev.recorded.checkpointSave T.recording buckets)
        (by rw [same]; exact closed')
      rwa [other_length] at iff
    simp only [Bool.false_eq_true, false_or]
    constructor
    · intro all
      exact (main bytes rfl).mp ⟨all.chain, all.bytes bytes (.inr ⟨skips, fed⟩)⟩
    · intro enough
      refine ⟨((main bytes rfl).mpr enough).1, ?_⟩
      rintro other (⟨still_good, -⟩ | ⟨-, passed⟩)
      · rw [show dev.recorded.isCheckpointed = dev.isCheckpointed from rfl, skips] at still_good
        cases still_good
      · exact ((main other (passed.symm.trans fed)).mpr enough).2

/-- On a flash that never fails the checkpoint of an empty device is safe. -/
theorem all_on_flash_empty : AllOnFlash (ramTagger 2) ramDevice [] := by
  have all_ok : (ramDevice.recorded.checkpointSave (ramTagger 2).recording []).flash.2.all
      (fun written => written.ok) = true := by
    decide +kernel
  refine (all_on_flash_iff (T := ramTagger 2) ramDevice
    ⟨by decide, by decide, by decide, by decide⟩ [] (by decide +kernel)).mpr
    (.inr ⟨fun page _ written eq => ?_, by decide +kernel, by decide +kernel⟩)
  exact List.all_eq_true.mp all_ok written (List.mem_reverse.mp (List.mem_of_getElem? eq))

/-- A flash on which no page can be programmed. -/
def wornTagger : Tagger RamFlash :=
  { ramTagger 2 with writeChunkTags := fun flash _ _ _ => (false, flash) }

/-- A checkpoint that is marked good with no byte of it on the flash. -/
theorem save_marks_lost_bytes_good :
    (ramDevice.recorded.checkpointSave wornTagger.recording []).isCheckpointed = true ∧
      ¬AllOnFlash wornTagger ramDevice [] := by
  refine ⟨by decide +kernel, fun all => ?_⟩
  have none_ok : (ramDevice.recorded.checkpointSave wornTagger.recording []).flash.2.all
      (fun written => !written.ok) = true := by
    decide +kernel
  have ready : NewStream (saveOpened wornTagger ramDevice.recorded) := by
    refine ready_of_open (T := wornTagger) ⟨?_, ?_, ?_, ?_⟩ rfl ?_ <;> decide +kernel
  obtain ⟨bytes, length, fed⟩ := (wrParts_done (T := wornTagger) ready []).2 (by decide +kernel)
  have some_bytes : 0 < bytes.length := by
    rw [length]
    exact Nat.add_pos_right _ (by decide)
  obtain ⟨written, -, found, ok, -⟩ :=
    all.bytes bytes (.inr ⟨rfl, fed⟩) 0 _ (List.getElem?_eq_getElem some_bytes)
  have mem := List.mem_reverse.mp (List.mem_of_getElem? found)
  have failed := List.all_eq_true.mp none_ok written mem
  rw [ok] at failed
  cases failed

end Dev

end Yaffs
