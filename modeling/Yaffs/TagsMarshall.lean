import Yaffs.HeaderPages
import Yaffs.Tnodes

/-!
# Tags in the spare area or behind the data

The tags of a page are packed and go to the driver with the data.  With inband tags they are stuffed
behind the data of the page, otherwise they go to the spare area, with or without a code of their
own.  What the driver returns is unpacked in the same way.
-/

namespace Yaffs.Stored

/-! ## Drivers -/

/-- What a driver returns for a page: success, the outcome of its own error correction, the data and
the bytes of the spare area. -/
structure ChunkRead where
  ok : Bool
  eccResult : EccResult
  data : List UInt8
  oob : List UInt8

/-- A driver that stores pages faithfully.  The data is left out of a read that has no buffer for
it. -/
structure FaithfulDriver (Flash : Type) where
  writeChunk : Flash → Nat → List UInt8 → List UInt8 → Bool × Flash
  readChunk : Flash → Nat → Bool → Nat → Nat → ChunkRead
  /-- The page has not been written since its block was erased. -/
  Erased : Flash → Nat → Prop
  read_written : ∀ flash nandChunk data oob wantData oobLen,
    (writeChunk flash nandChunk data oob).1 = true → oobLen ≤ oob.length →
      readChunk (writeChunk flash nandChunk data oob).2 nandChunk wantData data.length oobLen =
        ⟨true, .noError, if wantData then data else [], oob.take oobLen⟩
  read_erased : ∀ flash nandChunk wantData dataLen oobLen, Erased flash nandChunk →
    readChunk flash nandChunk wantData dataLen oobLen =
      ⟨true, .noError, if wantData then List.replicate dataLen 0xff else [],
        List.replicate oobLen 0xff⟩

/-! ## Marshalling -/

/-- The parameters that say where the tags go. -/
structure TagsFormat where
  /-- The byte order of the host. -/
  bigEndian : Bool
  /-- The parameter `stored_endian`. -/
  storedEndian : Nat
  inbandTags : Bool
  noTagsEcc : Bool
  dataBytesPerChunk : Nat
  totalBytesPerChunk : Nat
  /-- Inband tags have room behind the data. -/
  room : inbandTags = true →
    dataBytesPerChunk + PackedTags2TagsOnly.layout.size ≤ totalBytesPerChunk

namespace TagsFormat

variable {Flash : Type} (fmt : TagsFormat) (drv : FaithfulDriver Flash)

/-- Are the words stored in the order that is not the host's own? -/
def swapEndian : Bool := endianConfig fmt.bigEndian fmt.storedEndian

/-- Number of bytes of the tags in the spare area. -/
def packedTagsSize : Nat :=
  PackedTags2TagsOnly.layout.size + if fmt.noTagsEcc then 0 else EccOther.layout.size

/-- The data of a page with the tags stuffed behind it. -/
def stuffed (data : List UInt8) (tags : ExtTags) : List UInt8 :=
  data.take fmt.dataBytesPerChunk ++
    PackedTags2TagsOnly.layout.store fmt.bigEndian (packTags2TagsOnly fmt.swapEndian tags) ++
      data.drop (fmt.dataBytesPerChunk + PackedTags2TagsOnly.layout.size)

/-- Write a page with its tags. -/
def tagsMarshallWrite (flash : Flash) (nandChunk : Nat) (data : List UInt8) (tags : ExtTags) :
    Bool × Flash :=
  if fmt.inbandTags then drv.writeChunk flash nandChunk (fmt.stuffed data tags) []
  else
    drv.writeChunk flash nandChunk data
      (packTags2 fmt.bigEndian fmt.storedEndian tags (!fmt.noTagsEcc))

/-- The tags in what the driver returned. -/
def unpackRead (read : ChunkRead) : ExtTags :=
  if fmt.inbandTags then
    unpackTags2TagsOnly fmt.swapEndian
      (PackedTags2TagsOnly.layout.load fmt.bigEndian (read.data.drop fmt.dataBytesPerChunk))
  else unpackTags2 fmt.bigEndian fmt.storedEndian read.oob (!fmt.noTagsEcc)

/-- Note what the driver's own error correction had to do. -/
def noteEccResult (eccResult : EccResult) (tags : ExtTags) : ExtTags :=
  match eccResult with
  | .unfixed => { tags with eccResult := .unfixed }
  | .fixed =>
    if tags.eccResult.code ≤ EccResult.noError.code then { tags with eccResult := .fixed } else tags
  | _ => tags

/-- Read a page with or without its data and its tags. -/
def tagsMarshallRead (flash : Flash) (nandChunk : Nat) (data tags : Bool) :
    Bool × List UInt8 × Option ExtTags :=
  let read :=
    if fmt.inbandTags then drv.readChunk flash nandChunk true fmt.totalBytesPerChunk 0
    else if data && !tags then drv.readChunk flash nandChunk true fmt.totalBytesPerChunk 0
    else if tags then
      drv.readChunk flash nandChunk data fmt.totalBytesPerChunk fmt.packedTagsSize
    else ⟨false, .unknown, [], []⟩
  let returned := if data then read.data else []
  if read.ok then
    (decide (read.eccResult.code < EccResult.unfixed.code), returned,
      if tags then some (noteEccResult read.eccResult (fmt.unpackRead read)) else none)
  else (false, returned, none)

end TagsFormat

/-! ## Tags that are written -/

/-- Largest object id. -/
def maxObjectId : Nat := 0x3ffff

/-- The extra information of a header fits into its tags. -/
def ExtraFits (tags : ExtTags) : Prop :=
  tags.extraObjType = .file → tags.extraFileSize < 2 ^ 31

/-- Tags that the file system writes: those of a data page or of a header. -/
structure WrittenTags (tags : ExtTags) : Prop where
  objId : tags.objId ≤ maxObjectId
  chunkId : tags.chunkId ≤ maxChunkId
  nBytes : tags.nBytes < 2 ^ 32
  seqNumber : tags.seqNumber < 0xffffffff
  header : tags.chunkId = 0 → tags.extraAvailable = true
  parent : tags.extraParentId ≤ maxObjectId
  equivId : tags.extraEquivId < 2 ^ 32

/-- The tags found say the same as those written. -/
structure SameTags (tags found : ExtTags) : Prop where
  chunkUsed : found.chunkUsed = true
  objId : found.objId = tags.objId
  chunkId : found.chunkId = tags.chunkId
  nBytes : tags.chunkId ≠ 0 → found.nBytes = tags.nBytes
  seqNumber : found.seqNumber = tags.seqNumber
  extraAvailable : found.extraAvailable = true ↔ tags.chunkId = 0 ∧ ExtraFits tags
  parent : tags.chunkId = 0 → ExtraFits tags → found.extraParentId = tags.extraParentId
  isShrink : tags.chunkId = 0 → ExtraFits tags → found.extraIsShrink = tags.extraIsShrink
  shadows : tags.chunkId = 0 → ExtraFits tags → found.extraShadows = tags.extraShadows
  type : tags.chunkId = 0 → ExtraFits tags → found.extraObjType = tags.extraObjType
  equivId : tags.chunkId = 0 → tags.extraObjType = .hardlink →
    found.extraEquivId = tags.extraEquivId
  fileSize : tags.chunkId = 0 → tags.extraObjType = .file → ExtraFits tags →
    found.extraFileSize = tags.extraFileSize

theorem SameTags.noted {tags found : ExtTags} (same : SameTags tags found) (eccResult : EccResult) :
    SameTags tags { found with eccResult } := by
  obtain ⟨chunkUsed, objId, chunkId, nBytes, seqNumber, available, parent, isShrink, shadows, type,
    equivId, fileSize⟩ := same
  exact ⟨chunkUsed, objId, chunkId, nBytes, seqNumber, available, parent, isShrink, shadows, type,
    equivId, fileSize⟩

/-! ## Packing and unpacking -/

theorem packObj_objId (objId : U32) (type : ObjType) :
    packObj objId type &&& 0x0fffffff = objId &&& 0x0fffffff := by
  cases type <;> simp [packObj, BitVec.and_or_distrib_right, BitVec.and_assoc, ObjType.code]

/-- A header whose extra information fits. -/
theorem unpack_pack_extra (swap : Bool) {tags : ExtTags} (packable : checkTagsExtraPackable tags)
    (used : BitVec.ofNat 32 tags.seqNumber ≠ 0xffffffff) (parent_lt : tags.extraParentId < 2 ^ 28) :
    unpackTags2TagsOnly swap (packTags2TagsOnly swap tags) =
      { chunkUsed := true
        objId := tags.objId % 2 ^ 28
        seqNumber := tags.seqNumber % 2 ^ 32
        extraAvailable := true
        extraParentId := tags.extraParentId
        extraIsShrink := tags.extraIsShrink
        extraShadows := tags.extraShadows
        extraObjType := tags.extraObjType
        extraEquivId := if tags.extraObjType = .hardlink then tags.extraEquivId % 2 ^ 32 else 0
        extraFileSize :=
          if tags.extraObjType = .file then tags.extraFileSize % 2 ^ 32 else 0 } := by
  have seq := packTags2TagsOnly_seqNumber swap tags
  have convert : doEndianPackedTags2 swap (packTags2TagsOnly swap tags) =
      packTags2TagsOnly false tags := doEndianPackedTags2_twice swap _
  have packed : packTags2TagsOnly false tags =
      { seqNumber := BitVec.ofNat 32 tags.seqNumber
        objId := packObj (BitVec.ofNat 32 tags.objId) tags.extraObjType
        chunkId :=
          packParent (BitVec.ofNat 32 tags.extraParentId) tags.extraIsShrink tags.extraShadows
        nBytes :=
          if tags.extraObjType = .hardlink then BitVec.ofNat 32 tags.extraEquivId
          else if tags.extraObjType = .file then BitVec.ofNat 32 tags.extraFileSize
          else 0 } := by
    simp only [packTags2TagsOnly]
    rw [if_pos packable]
    rfl
  have parent_eq : (BitVec.ofNat 32 tags.extraParentId).toNat = tags.extraParentId := by
    rw [BitVec.toNat_ofNat]
    omega
  have parent_small : (BitVec.ofNat 32 tags.extraParentId).toNat < 2 ^ 28 := by
    rwa [parent_eq]
  have parent : (packParent (BitVec.ofNat 32 tags.extraParentId) tags.extraIsShrink
      tags.extraShadows &&& 0x0fffffff).toNat = tags.extraParentId := by
    rw [packParent_parent, toNat_mask, parent_eq, Nat.mod_eq_of_lt parent_lt]
  have obj : (packObj (BitVec.ofNat 32 tags.objId) tags.extraObjType &&& 0x0fffffff).toNat =
      tags.objId % 2 ^ 28 := by
    rw [packObj_objId, toNat_mask, BitVec.toNat_ofNat, Nat.mod_mod_of_dvd _ (by decide)]
  unfold unpackTags2TagsOnly
  rw [seq, if_neg (mt doEndianU32_ones.mp used), convert, packed]
  dsimp only
  rw [if_pos (packParent_flag _ _ _), packObj_type, parent, obj,
    packParent_isShrink parent_small, packParent_shadows parent_small]
  by_cases hardlink : tags.extraObjType = .hardlink
  · simp only [hardlink, if_true, BitVec.toNat_ofNat]
    rfl
  · by_cases file : tags.extraObjType = .file
    · simp only [file, if_true, BitVec.toNat_ofNat]
      rfl
    · simp only [hardlink, file, if_false, BitVec.toNat_ofNat]
      rfl

/-- A data page, or a header whose extra information does not fit. -/
theorem unpack_pack_plain (swap : Bool) {tags : ExtTags} (plain : ¬checkTagsExtraPackable tags)
    (used : BitVec.ofNat 32 tags.seqNumber ≠ 0xffffffff) (chunk_lt : tags.chunkId < 2 ^ 31) :
    unpackTags2TagsOnly swap (packTags2TagsOnly swap tags) =
      { chunkUsed := true
        objId := tags.objId % 2 ^ 32
        chunkId := tags.chunkId
        nBytes := tags.nBytes % 2 ^ 32
        seqNumber := tags.seqNumber % 2 ^ 32 } := by
  have seq := packTags2TagsOnly_seqNumber swap tags
  have convert : doEndianPackedTags2 swap (packTags2TagsOnly swap tags) =
      packTags2TagsOnly false tags := doEndianPackedTags2_twice swap _
  have packed : packTags2TagsOnly false tags =
      { seqNumber := BitVec.ofNat 32 tags.seqNumber
        objId := BitVec.ofNat 32 tags.objId
        chunkId := BitVec.ofNat 32 tags.chunkId
        nBytes := BitVec.ofNat 32 tags.nBytes } := by
    simp only [packTags2TagsOnly]
    rw [if_neg plain]
    rfl
  have high : (BitVec.ofNat 32 tags.chunkId).getLsbD 31 = false := by
    rw [BitVec.getLsbD_ofNat, Nat.testBit_lt_two_pow chunk_lt, Bool.and_false]
  have masked := BitVec.and_twoPow (BitVec.ofNat 32 tags.chunkId) 31
  rw [high] at masked
  have no_flag : ¬BitVec.ofNat 32 tags.chunkId &&& 0x80000000 ≠ 0 := fun flag => flag masked
  unfold unpackTags2TagsOnly
  rw [seq, if_neg (mt doEndianU32_ones.mp used), convert, packed]
  dsimp only
  rw [if_neg no_flag]
  simp only [BitVec.toNat_ofNat, Nat.mod_eq_of_lt (show tags.chunkId < 2 ^ 32 by omega)]

theorem checkTagsExtraPackable_iff {tags : ExtTags} :
    checkTagsExtraPackable tags ↔
      tags.chunkId = 0 ∧ tags.extraAvailable = true ∧ ExtraFits tags := by
  have short : tags.extraFileSize >>> 31 = 0 ↔ tags.extraFileSize < 2 ^ 31 := by
    rw [Nat.shiftRight_eq_div_pow]
    omega
  simp only [checkTagsExtraPackable, ExtraFits, Bool.and_eq_true, decide_eq_true_eq,
    Bool.not_eq_true', Bool.and_eq_false_iff, decide_eq_false_iff_not, ne_eq, not_not, short,
    and_assoc]
  rw [← imp_iff_not_or]

/-- Unpacking gives back what was packed. -/
theorem sameTags_unpack_pack (swap : Bool) {tags : ExtTags} (written : WrittenTags tags) :
    SameTags tags (unpackTags2TagsOnly swap (packTags2TagsOnly swap tags)) := by
  obtain ⟨objId, chunkId, nBytes, seqNumber, header, parent, equivId⟩ := written
  rw [maxObjectId] at objId parent
  rw [maxChunkId] at chunkId
  have used : BitVec.ofNat 32 tags.seqNumber ≠ 0xffffffff := by
    intro ones
    have value := congrArg BitVec.toNat ones
    rw [BitVec.toNat_ofNat, Nat.mod_eq_of_lt (by omega)] at value
    exact absurd (value ▸ seqNumber) (by decide)
  by_cases packable : checkTagsExtraPackable tags
  · obtain ⟨is_header, _, fits⟩ := checkTagsExtraPackable_iff.mp packable
    rw [unpack_pack_extra swap packable used (by omega)]
    constructor <;> dsimp only
    case objId => omega
    case chunkId => exact is_header.symm
    case nBytes => exact fun data => absurd is_header data
    case seqNumber => omega
    case extraAvailable => exact iff_of_true rfl ⟨is_header, fits⟩
    case equivId =>
      intro _ hardlink
      rw [if_pos hardlink, Nat.mod_eq_of_lt equivId]
    case fileSize =>
      intro _ file _
      have small := fits file
      rw [if_pos file]
      omega
    all_goals exact fun _ _ => rfl
  · have not_fits (is_header : tags.chunkId = 0) : ¬ExtraFits tags := fun fits =>
      packable (checkTagsExtraPackable_iff.mpr ⟨is_header, header is_header, fits⟩)
    rw [unpack_pack_plain swap packable used (by omega)]
    constructor <;> dsimp only
    case objId => omega
    case nBytes => exact fun _ => Nat.mod_eq_of_lt nBytes
    case seqNumber => omega
    case extraAvailable => exact iff_of_false (by decide) fun both => not_fits both.1 both.2
    case equivId =>
      intro is_header hardlink
      exact absurd (fun file => by rw [hardlink] at file; cases file) (not_fits is_header)
    case fileSize => exact fun is_header _ fits => absurd fits (not_fits is_header)
    all_goals exact fun is_header fits => absurd fits (not_fits is_header)

/-- The code of packed tags does not disturb them. -/
theorem unpackTags2_same (bigEndian : Bool) (storedEndian : Nat) (tags : ExtTags) (tagsEcc : Bool) :
    unpackTags2 bigEndian storedEndian (packTags2 bigEndian storedEndian tags tagsEcc) tagsEcc =
      { unpackTags2TagsOnly (endianConfig bigEndian storedEndian)
          (packTags2TagsOnly (endianConfig bigEndian storedEndian) tags) with
        eccResult := .noError } := by
  unfold unpackTags2 packTags2
  dsimp only
  generalize packTags2TagsOnly (endianConfig bigEndian storedEndian) tags = ptt
  have length_eq := PackedTags2TagsOnly.layout.length_store bigEndian ptt
  have load := PackedTags2TagsOnly.layout.load_store bigEndian ptt []
  rw [List.append_nil] at load
  rw [List.take_left' length_eq, List.drop_left' length_eq, load]
  split
  case isTrue both =>
    have load_ecc := EccOther.layout.load_store bigEndian
      (eccCalcOther (PackedTags2TagsOnly.layout.store bigEndian ptt)) []
    rw [List.append_nil] at load_ecc
    rw [if_pos both.2, load_ecc, eccCorrectOther_same]
    simp only [load]
  case isFalse _ => simp only [load]

/-- Memory as an erased page leaves it. -/
theorem load_erased (bigEndian : Bool) {count : Nat}
    (room : PackedTags2TagsOnly.layout.size ≤ count) :
    (PackedTags2TagsOnly.layout.load bigEndian (List.replicate count 0xff)).seqNumber =
      0xffffffff := by
  let ones : PackedTags2TagsOnly := ⟨0xffffffff, 0xffffffff, 0xffffffff, 0xffffffff⟩
  have stored : PackedTags2TagsOnly.layout.store bigEndian ones =
      List.replicate PackedTags2TagsOnly.layout.size 0xff := by
    cases bigEndian <;> decide
  have split : List.replicate count (0xff : UInt8) =
      PackedTags2TagsOnly.layout.store bigEndian ones ++
        List.replicate (count - PackedTags2TagsOnly.layout.size) 0xff := by
    rw [stored, List.replicate_append_replicate, Nat.add_sub_cancel' room]
  rw [split, PackedTags2TagsOnly.layout.load_store]

/-! ## Pages -/

namespace TagsFormat

variable {Flash : Type} {fmt : TagsFormat} {drv : FaithfulDriver Flash} {flash : Flash}
  {nandChunk : Nat} {data : List UInt8} {tags : ExtTags}

theorem stuffed_length (inband : fmt.inbandTags = true)
    (length_eq : data.length = fmt.totalBytesPerChunk) :
    (fmt.stuffed data tags).length = fmt.totalBytesPerChunk := by
  have room := fmt.room inband
  have size := PackedTags2TagsOnly.layout.length_store fmt.bigEndian
    (packTags2TagsOnly fmt.swapEndian tags)
  simp only [stuffed, List.length_append, List.length_take, List.length_drop, size]
  omega

theorem load_stuffed (inband : fmt.inbandTags = true)
    (length_eq : data.length = fmt.totalBytesPerChunk) :
    PackedTags2TagsOnly.layout.load fmt.bigEndian
        ((fmt.stuffed data tags).drop fmt.dataBytesPerChunk) =
      packTags2TagsOnly fmt.swapEndian tags := by
  have room := fmt.room inband
  have taken : (data.take fmt.dataBytesPerChunk).length = fmt.dataBytesPerChunk := by
    rw [List.length_take]
    omega
  rw [stuffed, List.append_assoc, List.drop_left' taken, PackedTags2TagsOnly.layout.load_store]

theorem packTags2_length (bigEndian : Bool) (storedEndian : Nat) (tags : ExtTags) :
    (packTags2 bigEndian storedEndian tags (!fmt.noTagsEcc)).length = fmt.packedTagsSize := by
  simp only [packTags2, packedTagsSize, List.length_append,
    PackedTags2TagsOnly.layout.length_store]
  cases fmt.noTagsEcc
  · exact congrArg _ (EccOther.layout.length_store _ _)
  · rfl

/-- Tags that were written are read back. -/
theorem tagsMarshallRead_write (length_eq : data.length = fmt.totalBytesPerChunk)
    (written : WrittenTags tags)
    (stored : (fmt.tagsMarshallWrite drv flash nandChunk data tags).1 = true) (wantData : Bool) :
    ∃ returned found,
      fmt.tagsMarshallRead drv (fmt.tagsMarshallWrite drv flash nandChunk data tags).2 nandChunk
        wantData true = (true, returned, some found) ∧ SameTags tags found := by
  have same := sameTags_unpack_pack fmt.swapEndian written
  simp only [tagsMarshallRead, tagsMarshallWrite] at stored ⊢
  by_cases inband : fmt.inbandTags = true
  · simp only [inband, if_true] at stored ⊢
    have read := drv.read_written flash nandChunk (fmt.stuffed data tags) [] true 0 stored
      (Nat.zero_le _)
    rw [stuffed_length inband length_eq] at read
    rw [read]
    refine ⟨_, _, rfl, ?_⟩
    simp only [noteEccResult, unpackRead, inband, if_true, load_stuffed inband length_eq]
    exact same
  · have spare : fmt.inbandTags = false := Bool.eq_false_iff.mpr inband
    simp only [spare, Bool.false_eq_true, if_false, if_true, Bool.not_true, Bool.and_false]
      at stored ⊢
    have size : (packTags2 fmt.bigEndian fmt.storedEndian tags (!fmt.noTagsEcc)).length =
        fmt.packedTagsSize := packTags2_length fmt.bigEndian fmt.storedEndian tags
    have read := drv.read_written flash nandChunk data _ wantData fmt.packedTagsSize stored size.ge
    rw [length_eq, List.take_of_length_le size.le] at read
    rw [read]
    refine ⟨_, _, rfl, ?_⟩
    simp only [noteEccResult, unpackRead, spare, Bool.false_eq_true, if_false]
    rw [unpackTags2_same]
    exact same.noted .noError

/-- An erased page reads as unused. -/
theorem tagsMarshallRead_erased (erased : drv.Erased flash nandChunk) (wantData : Bool) :
    ∃ returned found,
      fmt.tagsMarshallRead drv flash nandChunk wantData true = (true, returned, some found) ∧
        found.chunkUsed = false := by
  have unused {count : Nat} (room : PackedTags2TagsOnly.layout.size ≤ count) :
      unpackTags2TagsOnly fmt.swapEndian
        (PackedTags2TagsOnly.layout.load fmt.bigEndian (List.replicate count 0xff)) = {} := by
    rw [unpackTags2TagsOnly, if_pos (load_erased fmt.bigEndian room)]
  simp only [tagsMarshallRead]
  by_cases inband : fmt.inbandTags = true
  · have room := fmt.room inband
    simp only [inband, if_true]
    rw [drv.read_erased flash nandChunk true fmt.totalBytesPerChunk 0 erased]
    refine ⟨_, _, rfl, ?_⟩
    simp only [noteEccResult, unpackRead, inband, if_true, List.drop_replicate]
    rw [unused (by omega)]
  · have spare : fmt.inbandTags = false := Bool.eq_false_iff.mpr inband
    have room : PackedTags2TagsOnly.layout.size ≤ fmt.packedTagsSize := Nat.le_add_right _ _
    simp only [spare, Bool.false_eq_true, if_false, if_true, Bool.not_true, Bool.and_false]
    rw [drv.read_erased flash nandChunk wantData fmt.totalBytesPerChunk fmt.packedTagsSize erased]
    refine ⟨_, _, rfl, ?_⟩
    simp only [noteEccResult, unpackRead, spare, Bool.false_eq_true, if_false, unpackTags2,
      List.take_replicate, Nat.min_eq_left room]
    have first := load_erased fmt.bigEndian (Nat.le_refl PackedTags2TagsOnly.layout.size)
    rw [if_neg fun both => both.1 first]
    exact congrArg ExtTags.chunkUsed (unused (Nat.le_refl _))

end TagsFormat

/-- Tags that are written are read back, and erased pages read as unused. -/
structure TagsRoundTrip {Flash : Type} (fmt : TagsFormat) (drv : FaithfulDriver Flash) : Prop where
  written : ∀ flash nandChunk data tags wantData, data.length = fmt.totalBytesPerChunk →
    WrittenTags tags → (fmt.tagsMarshallWrite drv flash nandChunk data tags).1 = true →
      ∃ returned found,
        fmt.tagsMarshallRead drv (fmt.tagsMarshallWrite drv flash nandChunk data tags).2 nandChunk
          wantData true = (true, returned, some found) ∧ SameTags tags found
  erased : ∀ flash nandChunk wantData, drv.Erased flash nandChunk →
    ∃ returned found,
      fmt.tagsMarshallRead drv flash nandChunk wantData true = (true, returned, some found) ∧
        found.chunkUsed = false

/-- The round trip holds for every placement of the tags and either byte order. -/
theorem tags_round_trip {Flash : Type} (fmt : TagsFormat) (drv : FaithfulDriver Flash) :
    TagsRoundTrip fmt drv where
  written _ _ _ _ wantData length_eq written stored :=
    TagsFormat.tagsMarshallRead_write length_eq written stored wantData
  erased _ _ wantData erased := TagsFormat.tagsMarshallRead_erased erased wantData

/-- A driver that keeps the pages in a table. -/
def tableDriver : FaithfulDriver (Nat → Option (List UInt8 × List UInt8)) where
  writeChunk flash nandChunk data oob :=
    (true, fun page => if page = nandChunk then some (data, oob) else flash page)
  readChunk flash nandChunk wantData dataLen oobLen :=
    match flash nandChunk with
    | none =>
      ⟨true, .noError, if wantData then List.replicate dataLen 0xff else [],
        List.replicate oobLen 0xff⟩
    | some (data, oob) =>
      ⟨true, .noError, if wantData then data.take dataLen else [], oob.take oobLen⟩
  Erased flash nandChunk := flash nandChunk = none
  read_written flash nandChunk data oob wantData oobLen _ _ := by
    simp only [if_true, List.take_length]
  read_erased flash nandChunk wantData dataLen oobLen erased := by
    simp only [erased]

/-- Inband tags on a host that reverses the words. -/
theorem tags_round_trip_inband :
    TagsRoundTrip ⟨false, 2, true, false, 2032, 2048, fun _ => by decide⟩ tableDriver :=
  tags_round_trip _ tableDriver

end Yaffs.Stored
