import Yaffs.CheckpointLosses
import Yaffs.Objects

/-!
# The reserve for a checkpoint

The estimate of the blocks that a checkpoint needs counts the bytes of its records.  It leaves out
the headers of the pages and the record behind the last object, and allows for them with spare
blocks.
-/

namespace Yaffs

/-! ## The records of the objects -/

namespace Dev

variable {Flash : Type} (dev : Dev Flash)

/-- The memory of a level 0 tnode. -/
def tnodeBytes (words : List Nat) : List UInt8 :=
  (List.range dev.tnodeSize).map fun i => (words.flatMap (Words.bytes dev.swapEndian 4)).getD i 0

/-- The records of a tree of tnodes: each level 0 tnode with the first chunk it is for. -/
def checkptTnodes : Nat → Tnode → Nat → List (List UInt8)
  | 0, .leaf words, chunkOffset =>
    [Words.bytes dev.swapEndian 4 (chunkOffset <<< 4), dev.tnodeBytes words]
  | level + 1, .node children, chunkOffset =>
    (List.finRange 8).flatMap fun i =>
      checkptTnodes level (children i) ((chunkOffset <<< 3) + i)
  | _, _, _ => []

/-- The bit-fields of the record of an object. -/
def checkptObjBits (obj : Obj) : Nat :=
  obj.variantType.code % 2 ^ 3 + 2 ^ 3 * obj.deleted.toNat + 2 ^ 4 * obj.softDel.toNat
    + 2 ^ 5 * obj.unlinked.toNat + 2 ^ 6 * obj.fake.toNat + 2 ^ 7 * obj.renameAllowed.toNat
    + 2 ^ 8 * obj.unlinkAllowed.toNat + 2 ^ 9 * (obj.serial % 2 ^ 8)

/-- The record of an object. -/
def checkptObj (obj : Obj) : List UInt8 :=
  let sizeOrEquivObj := match obj.variantType with
    | .file => obj.file.fileSize
    | .hardlink => obj.equivId
    | _ => 0
  ([(checkptObjSize : Int), obj.objId, obj.parent.getD 0, obj.hdrChunk, checkptObjBits obj,
    obj.nDataChunks].flatMap fun field => Words.bytes dev.swapEndian 4 (u32OfInt field))
    ++ Words.bytes dev.swapEndian 8 sizeOrEquivObj

/-- The records of an object.  A file is followed by its tnodes and an end marker. -/
def checkptObjRecords (obj : Obj) : List (List UInt8) :=
  dev.checkptObj obj ::
    if obj.variantType = .file then
      dev.checkptTnodes obj.file.topLevel obj.file.top 0 ++ [Words.bytes false 4 (2 ^ 32 - 1)]
    else []

end Dev

/-- Is the object a file? -/
def Obj.isFile (obj : Obj) : Bool := decide (obj.variantType = .file)

/-- Number of level 0 tnodes in a tree. -/
def Tnode.leaves : Nat → Tnode → Nat
  | 0, leaf _ => 1
  | level + 1, node children => ((List.finRange 8).map fun i => leaves level (children i)).sum
  | _, _ => 0

namespace Fs

variable {Flash : Type} (fs : Fs Flash)

/-- The objects of a hash bucket that are not about to be freed. -/
def liveObjs (bucket : Nat) : List Obj := (fs.buckets bucket).filter fun obj => !obj.deferedFree

/-- The records of the objects, for each hash bucket. -/
def checkptBuckets : List (List (List (List UInt8))) :=
  (List.range nObjectBuckets).map fun bucket =>
    (fs.liveObjs bucket).map fs.dev.checkptObjRecords

/-- The objects that go to a checkpoint. -/
def checkptObjs : List Obj := (List.range nObjectBuckets).flatMap fs.liveObjs

/-- The files that go to a checkpoint. -/
def checkptFiles : List Obj := fs.checkptObjs.filter Obj.isFile

/-- Number of level 0 tnodes that go to a checkpoint. -/
def checkptLeaves : Nat := (fs.checkptFiles.map fun obj => obj.file.top.leaves
    obj.file.topLevel).sum

/-- Bytes of the objects in a checkpoint. -/
def checkptObjsSize : Nat :=
  checkptObjSize * fs.checkptObjs.length + 4 * fs.checkptFiles.length
    + (4 + fs.dev.tnodeSize) * fs.checkptLeaves

end Fs

/-! ## The size of the records -/

namespace Dev

variable {Flash : Type} (dev : Dev Flash)

theorem recordsSize_append (front back : List (List UInt8)) :
    recordsSize (front ++ back) = recordsSize front + recordsSize back := by
  rw [recordsSize, List.map_append, List.sum_append, recordsSize, recordsSize]

theorem recordsSize_checkptTnodes (level : Nat) : ∀ (tnode : Tnode) (chunkOffset : Nat),
    recordsSize (dev.checkptTnodes level tnode chunkOffset) =
      (4 + dev.tnodeSize) * tnode.leaves level := by
  have size_node (children : List (List (List UInt8))) :
      recordsSize children.flatten = (children.map recordsSize).sum := by
    induction children with
    | nil => rfl
    | cons first rest ih =>
      rw [List.flatten_cons, recordsSize_append, ih, List.map_cons, List.sum_cons]
  induction level with
  | zero =>
    intro tnode chunkOffset
    cases tnode with
    | null => rfl
    | node children => rfl
    | leaf words =>
      simp only [checkptTnodes, recordsSize, List.map_cons, List.map_nil, List.sum_cons,
        List.sum_nil, Words.length_bytes, tnodeBytes, List.length_map, List.length_range,
        Tnode.leaves]
      ring
  | succ level ih =>
    intro tnode chunkOffset
    cases tnode with
    | null => rfl
    | leaf words => rfl
    | node children =>
      rw [checkptTnodes, List.flatMap_def, size_node, List.map_map, Tnode.leaves,
        ← List.sum_map_mul_left]
      congr 1
      exact List.map_congr_left fun i _ => ih (children i) _

theorem length_checkptObj (obj : Obj) : (dev.checkptObj obj).length = checkptObjSize := by
  simp only [checkptObj, List.flatMap_cons, List.flatMap_nil, List.length_append,
    Words.length_bytes, List.length_nil]
  decide

theorem recordsSize_checkptObjRecords (obj : Obj) :
    recordsSize (dev.checkptObjRecords obj) = checkptObjSize +
      if obj.variantType = .file then (4 + dev.tnodeSize) * obj.file.top.leaves
        obj.file.topLevel + 4
      else 0 := by
  rw [checkptObjRecords, recordsSize, List.map_cons, List.sum_cons, length_checkptObj]
  congr 1
  split
  · change recordsSize _ = _
    rw [recordsSize_append, recordsSize_checkptTnodes]
    simp only [recordsSize, List.map_cons, List.map_nil, List.sum_cons, List.sum_nil,
      Words.length_bytes, Nat.add_zero]
  · rfl

end Dev

theorem Fs.bucketsSize_checkptBuckets {Flash : Type} (fs : Fs Flash) :
    Dev.bucketsSize fs.checkptBuckets = fs.checkptObjsSize := by
  have objs (list : List Obj) :
      ((list.map fs.dev.checkptObjRecords).map Dev.recordsSize).sum =
        checkptObjSize * list.length
          + 4 * (list.filter Obj.isFile).length
          + (4 + fs.dev.tnodeSize) * ((list.filter Obj.isFile).map
              fun obj => obj.file.top.leaves obj.file.topLevel).sum := by
    induction list with
    | nil => rfl
    | cons obj rest ih =>
      rw [List.map_cons, List.map_cons, List.sum_cons, ih, Dev.recordsSize_checkptObjRecords,
        List.length_cons]
      by_cases file : obj.variantType = .file
      · have is_file : obj.isFile = true := decide_eq_true file
        rw [if_pos file, List.filter_cons_of_pos is_file, List.length_cons, List.map_cons,
          List.sum_cons]
        ring
      · have no_file : ¬obj.isFile = true := by
          rw [Obj.isFile, decide_eq_true_iff]
          exact file
        rw [if_neg file, List.filter_cons_of_neg no_file]
        ring
  rw [Fs.checkptObjsSize, Fs.checkptLeaves, Fs.checkptFiles, ← objs, Fs.checkptObjs]
  rw [Dev.bucketsSize, Fs.checkptBuckets, List.map_map]
  generalize List.range nObjectBuckets = buckets
  induction buckets with
  | nil => rfl
  | cons bucket rest ih =>
    rw [List.map_cons, List.sum_cons, ih, List.flatMap_cons, List.map_append, List.map_append,
      List.sum_append]
    rfl

/-! ## The reserve -/

namespace Dev

variable {Flash : Type} {T : Tagger Flash}

/-- A device of a geometry that is accepted, large enough for checkpoints and in use. -/
structure Accepted (dev : Dev Flash) : Prop extends Geometry dev where
  yaffs2 : dev.param.isYaffs2 = true
  enabled : dev.param.skipCheckptWr = false
  writable : dev.readOnly = false
  blocks : checkpointMinBlocks ≤ dev.nBlocks
  range : dev.param.endBlock - dev.param.startBlock + 1 = dev.nBlocks
  /-- The bytes of a block are counted in a `u32`. -/
  blockBytes : dev.dataBytesPerChunk * dev.param.chunksPerBlock < 2 ^ 32

/-- A device without a checkpoint, whose estimate has to be made anew. -/
structure Unsaved (dev : Dev Flash) : Prop where
  notCheckpointed : dev.isCheckpointed = false
  noBlocks : dev.blocksInCheckpt = 0
  noEstimate : dev.checkpointBlocksRequired = 0

theorem Accepted.required {dev : Dev Flash} (accepted : Accepted dev) :
    dev.checkptRequired = true := by
  rw [checkptRequired, accepted.yaffs2, accepted.enabled, accepted.writable,
    decide_eq_true accepted.blocks]
  rfl

variable (T) in
theorem Unsaved.saveOpened {dev : Dev Flash} (unsaved : Unsaved dev) :
    dev.recorded.checkptInvalidate T.recording = dev.recorded := by
  have absent : ¬(dev.recorded.isCheckpointed = true ∨ 0 < dev.recorded.blocksInCheckpt) := by
    rw [not_or]
    exact ⟨by rw [show dev.recorded.isCheckpointed = false from unsaved.notCheckpointed]; decide,
      by rw [show dev.recorded.blocksInCheckpt = 0 from unsaved.noBlocks]; decide⟩
  rw [checkptInvalidate, if_neg absent]

/-- The stream can be opened if an erased block is left over after the reserve. -/
theorem checkptOpen_opens {Flash : Type} {T : Tagger Flash} (dev : Dev Flash) :
    (dev.checkptOpen T true).1 = true ↔ 0 < dev.nErasedBlocks - dev.param.nReservedBlocks := by
  refine ⟨fun opens => (checkptOpen_erases dev opens).1, fun space => ?_⟩
  have space_ok : ({ dev with checkptOpenWrite := true } : Dev Flash).checkptSpaceOk = true :=
    decide_eq_true space
  simp [checkptOpen, space_ok]

/-- When a save completes, and how many blocks it takes then. -/
theorem save_completes (dev : Dev Flash) (accepted : Accepted dev) (unsaved : Unsaved dev)
    (buckets : List (List (List (List UInt8)))) :
    let opened := saveOpened T dev.recorded
    let saved := dev.recorded.checkpointSave T.recording buckets
    (saved.isCheckpointed = true ↔ 0 < dev.nErasedBlocks - dev.param.nReservedBlocks ∧
      (dev.checkptSize buckets - 1) / dev.payload ≤ opened.room) ∧
    (saved.isCheckpointed = true → saved.blocksInCheckpt =
      min (dev.checkptSize buckets / dev.payload + 1) opened.room ⌈/⌉
        dev.param.chunksPerBlock) := by
  dsimp only
  have starts : dev.recorded.checkpointSave T.recording buckets =
      dev.recorded.wrCheckptData T.recording buckets := by
    rw [checkpointSave, unsaved.saveOpened T, if_neg]
    rw [show dev.recorded.isCheckpointed = false from unsaved.notCheckpointed]
    decide
  have opened_eq : saveOpened T dev.recorded = (dev.recorded.checkptOpen T.recording true).2 := by
    rw [saveOpened, unsaved.saveOpened T]
  have required : dev.recorded.checkptRequired = true := accepted.required
  have recorded : Geometry dev.recorded :=
    ⟨accepted.header, accepted.total, accepted.positive, accepted.bounded⟩
  rw [starts, opened_eq, wrCheckptData_good]
  by_cases space : 0 < dev.nErasedBlocks - dev.param.nReservedBlocks
  · have opens := (checkptOpen_opens (T := T.recording) dev.recorded).mpr space
    have ready := ready_of_open recorded rfl opens
    obtain ⟨param, data, start_block, end_block⟩ := checkptOpen_layout dev.recorded opens
    obtain ⟨-, blocks⟩ := wrCheckptData_closed (T := T.recording) buckets required opens
    rw [blocks]
    set opened := (dev.recorded.checkptOpen T.recording true).2
    have payload_eq : opened.payload = dev.payload := by
      rw [payload, data]
      rfl
    have size_eq : opened.checkptSize buckets = dev.checkptSize buckets := by
      rw [checkptSize, checkptTablesSize, nBlocks, chunkBitStride, param, start_block, end_block]
      rfl
    obtain ⟨done_iff, sent⟩ := wrParts_done (T := T) ready buckets
    rw [size_eq, payload_eq] at done_iff
    rw [size_eq] at sent
    have closes (done : (opened.wrCheckptParts T.recording buckets).1 = true) :
        ((opened.wrCheckptParts T.recording buckets).2.checkptClose T.recording).1 = true ∧
          ((opened.wrCheckptParts T.recording buckets).2.checkptClose
            T.recording).2.blocksInCheckpt =
            min (dev.checkptSize buckets / dev.payload + 1) opened.room ⌈/⌉
              dev.param.chunksPerBlock := by
      obtain ⟨bytes, length, fed⟩ := sent done
      obtain ⟨closed, -, taken⟩ := count_closed (T := T) ready bytes
      rw [length, payload_eq, param] at taken
      rw [fed]
      exact ⟨closed, taken⟩
    refine ⟨?_, fun good => (closes good.2.2.1).2⟩
    rw [← done_iff]
    exact ⟨fun good => ⟨space, good.2.2.1⟩,
      fun done => ⟨required, opens, done.2, (closes done.2).1⟩⟩
  · have refused := (checkptOpen_opens (T := T.recording) dev.recorded).not.mpr space
    exact ⟨iff_of_false (fun good => refused good.2.1) fun enough => space enough.1,
      fun good => absurd good.2.1 refused⟩

end Dev

namespace Fs

variable {Flash : Type} {T : Tagger Flash}

/-- Bytes of the tables of a checkpoint for each block. -/
def blockBytes (fs : Fs Flash) : Nat := fs.dev.nBlocks * (blockInfoSize + fs.dev.chunkBitStride)

/-- Bytes of a checkpoint: two validity markers, the counters, the tables, the objects with their
end record, and the checksum. -/
def streamSize (fs : Fs Flash) : Nat :=
  2 * checkptValiditySize + checkptDevSize + fs.blockBytes + fs.checkptObjsSize + checkptObjSize + 4

/-- Bytes in the estimate. -/
def estimateSize (fs : Fs Flash) : Nat :=
  2 * checkptValiditySize + checkptDevSize + fs.blockBytes + (checkptObjSize + 4) * fs.dev.nObj
    + (fs.dev.tnodeSize + 4) * fs.dev.nTnodes + 4

variable (T) in
/-- The blocks of the estimate hold the records, and a checkpoint that has been completed is no
longer than a reader can follow. -/
structure ReserveSuffices (fs : Fs Flash) : Prop where
  fits : (fs.dev.checkptSize fs.checkptBuckets : Int) ≤
    fs.dev.calcCheckptBlocksRequired.1 * (fs.dev.param.chunksPerBlock * fs.dev.payload : Nat)
  readable : (fs.dev.recorded.checkpointSave T.recording fs.checkptBuckets).isCheckpointed = true →
    (fs.dev.recorded.checkpointSave T.recording fs.checkptBuckets).blocksInCheckpt ≤
      (fs.dev.checkptOpen T false).2.checkptMaxBlocks

theorem checkptSize_eq (fs : Fs Flash) : fs.dev.checkptSize fs.checkptBuckets = fs.streamSize := by
  rw [Dev.checkptSize, Dev.checkptTablesSize, fs.bucketsSize_checkptBuckets, streamSize, blockBytes]
  ring

/-- The number of blocks in the estimate. -/
theorem calcCheckptBlocksRequired_eq (fs : Fs Flash) (accepted : fs.dev.Accepted)
    (unsaved : fs.dev.Unsaved) :
    fs.dev.calcCheckptBlocksRequired.1 =
      (fs.estimateSize % 2 ^ 32 / (fs.dev.dataBytesPerChunk * fs.dev.param.chunksPerBlock) + 3 :
        Nat) := by
  have header := accepted.header
  have positive := accepted.positive
  have block_bytes := accepted.blockBytes
  have block_pos : 16 < fs.dev.dataBytesPerChunk * fs.dev.param.chunksPerBlock :=
    header.trans_le (Nat.le_mul_of_pos_right _ positive)
  have few : fs.estimateSize % 2 ^ 32 /
      (fs.dev.dataBytesPerChunk * fs.dev.param.chunksPerBlock) < 2 ^ 28 := by
    rw [Nat.div_lt_iff_lt_mul (by omega)]
    have bytes := Nat.mod_lt fs.estimateSize (show 0 < 2 ^ 32 by decide)
    omega
  have bytes : checkptValiditySize + checkptDevSize
      + (fs.dev.param.endBlock - fs.dev.param.startBlock + 1) * blockInfoSize
      + (fs.dev.param.endBlock - fs.dev.param.startBlock + 1) * fs.dev.chunkBitStride
      + (checkptObjSize + 4) * fs.dev.nObj + (fs.dev.tnodeSize + 4) * fs.dev.nTnodes
      + checkptValiditySize + 4 = fs.estimateSize := by
    rw [accepted.range, estimateSize, blockBytes]
    ring
  have estimate : fs.dev.estimateCheckptBlocks = (fs.estimateSize % 2 ^ 32 /
      (fs.dev.dataBytesPerChunk * fs.dev.param.chunksPerBlock) + 3 : Nat) := by
    simp only [Dev.estimateCheckptBlocks]
    rw [bytes, Nat.mod_eq_of_lt block_bytes, Dev.intOfU32, Nat.mod_eq_of_lt (by omega),
      if_pos (by omega)]
  have yaffs2 : ¬¬fs.dev.param.isYaffs2 = true := not_not.mpr accepted.yaffs2
  have anew : fs.dev.checkpointBlocksRequired = 0 ∧ fs.dev.checkptRequired = true :=
    ⟨unsaved.noEstimate, accepted.required⟩
  simp only [Dev.calcCheckptBlocksRequired, if_neg yaffs2, if_pos anew]
  rw [estimate, unsaved.noBlocks, Nat.cast_zero, sub_zero]
  exact max_eq_left (Int.natCast_nonneg _)

/-- The estimate suffices if and only if its spare blocks have room for what it leaves out, and the
pages of a checkpoint that can be completed lie in the blocks that a reader follows. -/
theorem reserve_suffices_iff (fs : Fs Flash) (accepted : fs.dev.Accepted)
    (unsaved : fs.dev.Unsaved) :
    let estimate := fs.estimateSize % 2 ^ 32
    let block := fs.dev.dataBytesPerChunk * fs.dev.param.chunksPerBlock
    let room := (Dev.saveOpened T fs.dev.recorded).room
    ReserveSuffices T fs ↔
      fs.streamSize + checkptChunkHdrSize * (fs.dev.param.chunksPerBlock * (estimate / block + 3))
          + estimate % block ≤ estimate + 3 * block ∧
        (0 < fs.dev.nErasedBlocks - fs.dev.param.nReservedBlocks →
          (fs.streamSize - 1) / fs.dev.payload ≤ room →
          min (fs.streamSize / fs.dev.payload + 1) room ≤
            fs.dev.readerBlocks * fs.dev.param.chunksPerBlock) := by
  dsimp only
  obtain ⟨completes, taken⟩ := Dev.save_completes (T := T) fs.dev accepted unsaved fs.checkptBuckets
  rw [checkptSize_eq] at completes taken
  have fits_iff : ((fs.dev.checkptSize fs.checkptBuckets : Int) ≤
      fs.dev.calcCheckptBlocksRequired.1 * (fs.dev.param.chunksPerBlock * fs.dev.payload : Nat)) ↔
      fs.streamSize + checkptChunkHdrSize * (fs.dev.param.chunksPerBlock *
          (fs.estimateSize % 2 ^ 32 / (fs.dev.dataBytesPerChunk * fs.dev.param.chunksPerBlock) + 3))
        + fs.estimateSize % 2 ^ 32 % (fs.dev.dataBytesPerChunk * fs.dev.param.chunksPerBlock) ≤
      fs.estimateSize % 2 ^ 32 + 3 * (fs.dev.dataBytesPerChunk * fs.dev.param.chunksPerBlock) := by
    rw [calcCheckptBlocksRequired_eq fs accepted unsaved, checkptSize_eq, ← Nat.cast_mul,
      Nat.cast_le]
    have page : fs.dev.payload + checkptChunkHdrSize = fs.dev.dataBytesPerChunk :=
      Nat.sub_add_cancel accepted.header.le
    have whole := Nat.div_add_mod (fs.estimateSize % 2 ^ 32)
      (fs.dev.dataBytesPerChunk * fs.dev.param.chunksPerBlock)
    generalize fs.estimateSize % 2 ^ 32 / (fs.dev.dataBytesPerChunk * fs.dev.param.chunksPerBlock)
      = blocks at whole ⊢
    have bytes : (blocks + 3) * (fs.dev.param.chunksPerBlock * fs.dev.payload)
        + checkptChunkHdrSize * (fs.dev.param.chunksPerBlock * (blocks + 3)) =
        fs.dev.dataBytesPerChunk * fs.dev.param.chunksPerBlock * blocks
          + 3 * (fs.dev.dataBytesPerChunk * fs.dev.param.chunksPerBlock) := by
      rw [← page]
      ring
    omega
  have reader : (fs.dev.checkptOpen T false).2.checkptMaxBlocks = fs.dev.readerBlocks := rfl
  have readable_iff (good : (fs.dev.recorded.checkpointSave T.recording
      fs.checkptBuckets).isCheckpointed = true) :
      (fs.dev.recorded.checkpointSave T.recording fs.checkptBuckets).blocksInCheckpt ≤
          fs.dev.readerBlocks ↔
        min (fs.streamSize / fs.dev.payload + 1) (Dev.saveOpened T fs.dev.recorded).room ≤
          fs.dev.readerBlocks * fs.dev.param.chunksPerBlock := by
    rw [taken good, ceilDiv_le_iff_le_mul accepted.positive, Nat.mul_comm]
  constructor
  · rintro ⟨fits, readable⟩
    refine ⟨fits_iff.mp fits, fun space enough => ?_⟩
    have good := completes.mpr ⟨space, enough⟩
    exact (readable_iff good).mp (reader ▸ readable good)
  · rintro ⟨spare, short⟩
    refine ⟨fits_iff.mpr spare, fun good => ?_⟩
    obtain ⟨space, enough⟩ := completes.mp good
    rw [reader]
    exact (readable_iff good).mpr (short space enough)

/-- The reserve of an empty device suffices. -/
theorem reserve_suffices_empty :
    ReserveSuffices (ramTagger 2) { dev := ramDevice } :=
  (reserve_suffices_iff (T := ramTagger 2) { dev := ramDevice }
    ⟨⟨by decide, by decide, by decide, by decide⟩, rfl, rfl, rfl, by decide, by decide, by decide⟩
    ⟨rfl, rfl, rfl⟩).mpr ⟨by decide +kernel, fun _ _ => by decide +kernel⟩

/-- A device with 96 empty files, one header page for each of them, and twelve erased blocks. -/
def crowded : Fs RamFlash where
  dev :=
    { ramDevice with
      param := { ramDevice.param with nReservedBlocks := 2 }
      flash := fun chunk =>
        if 0 ≤ chunk ∧ chunk < 96 then
          some (fun _ => 0, { chunkUsed := true, objId := 257 + chunk.toNat, seqNumber := 0x1001 })
        else none
      blockInfo := fun block =>
        if block ≤ 48 then { blockState := .full, pagesInUse := 2, seqNumber := 0x1001 }
        else { blockState := .empty }
      nErasedBlocks := 12
      nFreeChunks := 24
      nObj := 100
      nTnodes := 96 }
  buckets := fun bucket =>
    let file : Obj :=
      { objId := 256 + bucket
        variantType := .file
        parent := some objectIdRoot
        hdrChunk := 1 + bucket
        file := { top := .leaf (List.replicate 16 0) } }
    let directory : Obj := { objId := bucket, variantType := .directory, fake := true }
    (if 1 ≤ bucket ∧ bucket ≤ 96 then [file] else [])
      ++ if 1 ≤ bucket ∧ bucket ≤ 4 then [directory] else []

/-- The checkpoint of many small files is longer than a reader can follow. -/
theorem reserve_fails_crowded : ¬ReserveSuffices (ramTagger 2) crowded := by
  intro enough
  obtain ⟨completes, taken⟩ := Dev.save_completes (T := ramTagger 2) crowded.dev
    ⟨⟨by decide, by decide, by decide, by decide⟩, rfl, rfl, rfl, by decide, by decide, by decide⟩
    ⟨rfl, rfl, rfl⟩ crowded.checkptBuckets
  rw [checkptSize_eq] at completes taken
  have good := completes.mpr ⟨by decide, by decide +kernel⟩
  have short := enough.readable good
  rw [taken good] at short
  exact absurd short (by decide +kernel)

end Fs

end Yaffs
