import Yaffs.Chunks
import Yaffs.Library.Layout

/-!
# Records in either byte order

The records on flash are stored with the least or the most significant byte of a word first, as the
parameter `stored_endian` says.  A host of the other kind reverses the words of a record before it
stores it, and after it has loaded it.  Each type of record has a conversion of its own.
-/

namespace Yaffs.Stored

/-- A word of four bytes. -/
abbrev U32 := BitVec 32

/-! ## Words -/

/-- A word with its bytes in reverse. -/
def swapU32 (val : U32) : U32 :=
  ((val >>> 24) &&& 0x000000ff) ||| ((val >>> 8) &&& 0x0000ff00) |||
    ((val <<< 8) &&& 0x00ff0000) ||| ((val <<< 24) &&& 0xff000000)

/-- Sizes of the type of a file offset. -/
inductive LoffSize
  | four
  | eight
deriving DecidableEq, Repr

/-- The number of bytes. -/
def LoffSize.bytes : LoffSize → Nat
  | four => 4
  | eight => 8

/-- A file offset with its bytes in reverse. -/
def swapLoffT : (size : LoffSize) → BitVec (8 * size.bytes) → BitVec (8 * size.bytes)
  | .four, lval => swapU32 lval
  | .eight, lval =>
    let vall : U32 := swapU32 (lval.setWidth 32)
    let valh : U32 := swapU32 ((lval >>> 32).setWidth 32)
    (vall.setWidth 64 <<< 32) ||| valh.setWidth 64

/-- Are the words stored in the order that is not the host's own?  A host keeps the most significant
byte of a word last or first. -/
def endianConfig (bigEndian : Bool) (storedEndian : Nat) : Bool :=
  if bigEndian then storedEndian == 1 else storedEndian == 2

/-- Convert a word. -/
def doEndianU32 (swapEndian : Bool) (val : U32) : U32 := if swapEndian then swapU32 val else val

/-! ## Tags -/

/-- Tags as they are stored. -/
structure PackedTags2TagsOnly where
  seqNumber : U32
  objId : U32
  chunkId : U32
  nBytes : U32
deriving DecidableEq

/-- Convert packed tags. -/
def doEndianPackedTags2 (swapEndian : Bool) (ptt : PackedTags2TagsOnly) : PackedTags2TagsOnly :=
  if swapEndian then
    { seqNumber := swapU32 ptt.seqNumber
      objId := swapU32 ptt.objId
      chunkId := swapU32 ptt.chunkId
      nBytes := swapU32 ptt.nBytes }
  else ptt

/-- Packed tags in memory. -/
def PackedTags2TagsOnly.layout : RecordLayout PackedTags2TagsOnly :=
  ((RecordLayout.word 4).pair ((RecordLayout.word 4).pair ((RecordLayout.word 4).pair (RecordLayout.word 4)))).named
    { toFun := fun ptt => (ptt.seqNumber, ptt.objId, ptt.chunkId, ptt.nBytes)
      invFun := fun words => ⟨words.1, words.2.1, words.2.2.1, words.2.2.2⟩
      left_inv := fun _ => rfl
      right_inv := fun _ => rfl }

/-- Pack tags. -/
def packTags2TagsOnly (swapEndian : Bool) (t : ExtTags) : PackedTags2TagsOnly :=
  let seqNumber := BitVec.ofNat 32 t.seqNumber
  let objId := BitVec.ofNat 32 t.objId
  doEndianPackedTags2 swapEndian <|
    if checkTagsExtraPackable t then
      { seqNumber
        objId := (objId &&& 0x0fffffff) ||| (BitVec.ofNat 32 t.extraObjType.code <<< 28)
        chunkId := 0x80000000 ||| BitVec.ofNat 32 t.extraParentId |||
          (if t.extraIsShrink then 0x40000000 else 0) |||
          (if t.extraShadows then 0x20000000 else 0)
        nBytes :=
          if t.extraObjType = .hardlink then BitVec.ofNat 32 t.extraEquivId
          else if t.extraObjType = .file then BitVec.ofNat 32 t.extraFileSize
          else 0 }
    else
      { seqNumber
        objId
        chunkId := BitVec.ofNat 32 t.chunkId
        nBytes := BitVec.ofNat 32 t.nBytes }

/-- Unpack tags. -/
def unpackTags2TagsOnly (swapEndian : Bool) (ptt : PackedTags2TagsOnly) : ExtTags :=
  if ptt.seqNumber = 0xffffffff then {}
  else
    let ptt := doEndianPackedTags2 swapEndian ptt
    let t : ExtTags :=
      { chunkUsed := true
        objId := ptt.objId.toNat
        chunkId := ptt.chunkId.toNat
        nBytes := ptt.nBytes.toNat
        seqNumber := ptt.seqNumber.toNat }
    if ptt.chunkId &&& 0x80000000 ≠ 0 then
      let extraObjType := ObjType.ofCode (ptt.objId >>> 28).toNat
      { t with
        chunkId := 0
        nBytes := 0
        extraAvailable := true
        extraParentId := (ptt.chunkId &&& 0x0fffffff).toNat
        extraIsShrink := decide (ptt.chunkId &&& 0x40000000 ≠ 0)
        extraShadows := decide (ptt.chunkId &&& 0x20000000 ≠ 0)
        extraObjType
        objId := (ptt.objId &&& 0x0fffffff).toNat
        extraEquivId := if extraObjType = .hardlink then ptt.nBytes.toNat else 0
        extraFileSize := if extraObjType = .hardlink then 0 else ptt.nBytes.toNat }
    else t

/-! ## Error correction of tags -/

/-- Parities of the bits of a byte, with the parity of the whole byte in the lowest bit. -/
def columnParityTable : List (BitVec 8) := [
  0x00, 0x55, 0x59, 0x0c, 0x65, 0x30, 0x3c, 0x69, 0x69, 0x3c, 0x30, 0x65, 0x0c, 0x59, 0x55, 0x00,
  0x95, 0xc0, 0xcc, 0x99, 0xf0, 0xa5, 0xa9, 0xfc, 0xfc, 0xa9, 0xa5, 0xf0, 0x99, 0xcc, 0xc0, 0x95,
  0x99, 0xcc, 0xc0, 0x95, 0xfc, 0xa9, 0xa5, 0xf0, 0xf0, 0xa5, 0xa9, 0xfc, 0x95, 0xc0, 0xcc, 0x99,
  0x0c, 0x59, 0x55, 0x00, 0x69, 0x3c, 0x30, 0x65, 0x65, 0x30, 0x3c, 0x69, 0x00, 0x55, 0x59, 0x0c,
  0xa5, 0xf0, 0xfc, 0xa9, 0xc0, 0x95, 0x99, 0xcc, 0xcc, 0x99, 0x95, 0xc0, 0xa9, 0xfc, 0xf0, 0xa5,
  0x30, 0x65, 0x69, 0x3c, 0x55, 0x00, 0x0c, 0x59, 0x59, 0x0c, 0x00, 0x55, 0x3c, 0x69, 0x65, 0x30,
  0x3c, 0x69, 0x65, 0x30, 0x59, 0x0c, 0x00, 0x55, 0x55, 0x00, 0x0c, 0x59, 0x30, 0x65, 0x69, 0x3c,
  0xa9, 0xfc, 0xf0, 0xa5, 0xcc, 0x99, 0x95, 0xc0, 0xc0, 0x95, 0x99, 0xcc, 0xa5, 0xf0, 0xfc, 0xa9,
  0xa9, 0xfc, 0xf0, 0xa5, 0xcc, 0x99, 0x95, 0xc0, 0xc0, 0x95, 0x99, 0xcc, 0xa5, 0xf0, 0xfc, 0xa9,
  0x3c, 0x69, 0x65, 0x30, 0x59, 0x0c, 0x00, 0x55, 0x55, 0x00, 0x0c, 0x59, 0x30, 0x65, 0x69, 0x3c,
  0x30, 0x65, 0x69, 0x3c, 0x55, 0x00, 0x0c, 0x59, 0x59, 0x0c, 0x00, 0x55, 0x3c, 0x69, 0x65, 0x30,
  0xa5, 0xf0, 0xfc, 0xa9, 0xc0, 0x95, 0x99, 0xcc, 0xcc, 0x99, 0x95, 0xc0, 0xa9, 0xfc, 0xf0, 0xa5,
  0x0c, 0x59, 0x55, 0x00, 0x69, 0x3c, 0x30, 0x65, 0x65, 0x30, 0x3c, 0x69, 0x00, 0x55, 0x59, 0x0c,
  0x99, 0xcc, 0xc0, 0x95, 0xfc, 0xa9, 0xa5, 0xf0, 0xf0, 0xa5, 0xa9, 0xfc, 0x95, 0xc0, 0xcc, 0x99,
  0x95, 0xc0, 0xcc, 0x99, 0xf0, 0xa5, 0xa9, 0xfc, 0xfc, 0xa9, 0xa5, 0xf0, 0x99, 0xcc, 0xc0, 0x95,
  0x00, 0x55, 0x59, 0x0c, 0x65, 0x30, 0x3c, 0x69, 0x69, 0x3c, 0x30, 0x65, 0x0c, 0x59, 0x55, 0x00
]

/-- The error correction code of some bytes. -/
structure EccOther where
  colParity : BitVec 8
  lineParity : U32
  lineParityPrime : U32
deriving DecidableEq

/-- The code in memory. -/
def EccOther.layout : RecordLayout EccOther :=
  ((RecordLayout.word 1).padded 3 |>.pair ((RecordLayout.word 4).pair (RecordLayout.word 4))).named
    { toFun := fun ecc => (ecc.colParity, ecc.lineParity, ecc.lineParityPrime)
      invFun := fun words => ⟨words.1, words.2.1, words.2.2⟩
      left_inv := fun _ => rfl
      right_inv := fun _ => rfl }

/-- The loop of `eccCalcOther`. -/
def eccCalcOtherLoop : Nat → List UInt8 → EccOther → EccOther
  | _, [], ecc => ecc
  | i, byte :: data, ecc =>
    let b := columnParityTable.getD byte.toNat 0
    let odd := b &&& 0x01 ≠ 0
    eccCalcOtherLoop (i + 1) data
      { colParity := ecc.colParity ^^^ b
        lineParity := if odd then ecc.lineParity ^^^ BitVec.ofNat 32 i else ecc.lineParity
        lineParityPrime :=
          if odd then ecc.lineParityPrime ^^^ ~~~BitVec.ofNat 32 i else ecc.lineParityPrime }

/-- Compute the code of some bytes. -/
def eccCalcOther (data : List UInt8) : EccOther :=
  let ecc := eccCalcOtherLoop 0 data ⟨0, 0, 0⟩
  { ecc with colParity := (ecc.colParity >>> 2) &&& 0x3f }

/-- Number of bits set in a word. -/
def hweight {width : Nat} (x : BitVec width) : Nat :=
  (List.range width).countP fun i => x.getLsbD i

/-- Correct some bytes whose code has been read.  A single wrong bit is put right. -/
def eccCorrectOther (data : List UInt8) (readEcc testEcc : EccOther) : EccResult × List UInt8 :=
  let deltaCol := readEcc.colParity ^^^ testEcc.colParity
  let deltaLine := readEcc.lineParity ^^^ testEcc.lineParity
  let deltaLinePrime := readEcc.lineParityPrime ^^^ testEcc.lineParityPrime
  if deltaCol.setWidth 32 ||| deltaLine ||| deltaLinePrime = 0 then (.noError, data)
  else if deltaLine = ~~~deltaLinePrime ∧ (deltaCol ^^^ (deltaCol >>> 1)) &&& 0x15 = 0x15 then
    let bit := (if deltaCol &&& 0x20 ≠ 0 then 4 else 0) + (if deltaCol &&& 0x08 ≠ 0 then 2 else 0) +
      (if deltaCol &&& 0x02 ≠ 0 then 1 else 0)
    if data.length ≤ deltaLine.toNat then (.unfixed, data)
    else
      (.fixed, data.modify deltaLine.toNat fun byte => byte ^^^ UInt8.ofNat (2 ^ bit))
  else if hweight deltaLine + hweight deltaLinePrime + hweight deltaCol = 1 then (.fixed, data)
  else (.unfixed, data)

/-- The bytes that a host stores for the tags of a page. -/
def packTags2 (bigEndian : Bool) (storedEndian : Nat) (t : ExtTags) (tagsEcc : Bool) : List UInt8 :=
  let ptt := packTags2TagsOnly (endianConfig bigEndian storedEndian) t
  let data := PackedTags2TagsOnly.layout.store bigEndian ptt
  data ++ if tagsEcc then EccOther.layout.store bigEndian (eccCalcOther data) else []

/-- The tags that a host finds in stored bytes. -/
def unpackTags2 (bigEndian : Bool) (storedEndian : Nat) (memory : List UInt8) (tagsEcc : Bool) :
    ExtTags :=
  let size := PackedTags2TagsOnly.layout.size
  let data := memory.take size
  let corrected : EccResult × List UInt8 :=
    if (PackedTags2TagsOnly.layout.load bigEndian data).seqNumber ≠ 0xffffffff ∧ tagsEcc then
      eccCorrectOther data (EccOther.layout.load bigEndian (memory.drop size)) (eccCalcOther data)
    else (.noError, data)
  let ptt := PackedTags2TagsOnly.layout.load bigEndian corrected.2
  { unpackTags2TagsOnly (endianConfig bigEndian storedEndian) ptt with eccResult := corrected.1 }

/-! ## Object headers -/

/-- A given number of characters. -/
abbrev Chars (count : Nat) := { bytes : List UInt8 // bytes.length = count }

/-- The header of an object. -/
structure ObjHdr where
  type : U32
  parentObjId : U32
  sumNoLongerUsed : BitVec 16
  name : Chars 256
  ystMode : U32
  ystUid : U32
  ystGid : U32
  ystAtime : U32
  ystMtime : U32
  ystCtime : U32
  fileSizeLow : U32
  equivId : U32
  aliasName : Chars 160
  ystRdev : U32
  winCtime : U32 × U32
  winAtime : U32 × U32
  winMtime : U32 × U32
  inbandShadowedObjId : U32
  inbandIsShrink : U32
  fileSizeHigh : U32
  reserved : U32
  shadowsObj : U32
  isShrink : U32

/-- Convert an object header. -/
def doEndianOh (swapEndian : Bool) (oh : ObjHdr) : ObjHdr :=
  if swapEndian then
    { oh with
      type := swapU32 oh.type
      parentObjId := swapU32 oh.parentObjId
      ystMode := swapU32 oh.ystMode
      ystUid := swapU32 oh.ystUid
      ystGid := swapU32 oh.ystGid
      ystAtime := swapU32 oh.ystAtime
      ystMtime := swapU32 oh.ystMtime
      ystCtime := swapU32 oh.ystCtime
      fileSizeLow := swapU32 oh.fileSizeLow
      equivId := swapU32 oh.equivId
      ystRdev := swapU32 oh.ystRdev
      winCtime := (swapU32 oh.winCtime.1, swapU32 oh.winCtime.2)
      winAtime := (swapU32 oh.winAtime.1, swapU32 oh.winAtime.2)
      winMtime := (swapU32 oh.winMtime.1, swapU32 oh.winMtime.2)
      inbandShadowedObjId := swapU32 oh.inbandShadowedObjId
      inbandIsShrink := swapU32 oh.inbandIsShrink
      fileSizeHigh := swapU32 oh.fileSizeHigh
      reserved := swapU32 oh.reserved
      shadowsObj := swapU32 oh.shadowsObj
      isShrink := swapU32 oh.isShrink }
  else oh

/-- An object header in memory. -/
def ObjHdr.layout : RecordLayout ObjHdr :=
  let word := RecordLayout.word 4
  let words := word.pair word
  let name := (RecordLayout.chars 256).padded 2
  let aliasName := RecordLayout.chars 160
  RecordLayout.named
    (.pair word <| .pair word <| .pair (RecordLayout.word 2) <| .pair name <| .pair word <| .pair word <|
      .pair word <| .pair word <| .pair word <| .pair word <| .pair word <| .pair word <|
      .pair aliasName <| .pair word <| .pair words <| .pair words <| .pair words <| .pair word <|
      .pair word <| .pair word <| .pair word <| .pair word word)
    { toFun := fun oh =>
        (oh.type, oh.parentObjId, oh.sumNoLongerUsed, oh.name, oh.ystMode, oh.ystUid, oh.ystGid,
          oh.ystAtime, oh.ystMtime, oh.ystCtime, oh.fileSizeLow, oh.equivId, oh.aliasName,
          oh.ystRdev, oh.winCtime, oh.winAtime, oh.winMtime, oh.inbandShadowedObjId,
          oh.inbandIsShrink, oh.fileSizeHigh, oh.reserved, oh.shadowsObj, oh.isShrink)
      invFun := fun (type, parentObjId, sumNoLongerUsed, name, ystMode, ystUid, ystGid, ystAtime,
          ystMtime, ystCtime, fileSizeLow, equivId, aliasName, ystRdev, winCtime, winAtime,
          winMtime, inbandShadowedObjId, inbandIsShrink, fileSizeHigh, reserved, shadowsObj,
          isShrink) =>
        { type, parentObjId, sumNoLongerUsed, name, ystMode, ystUid, ystGid, ystAtime, ystMtime,
          ystCtime, fileSizeLow, equivId, aliasName, ystRdev, winCtime, winAtime, winMtime,
          inbandShadowedObjId, inbandIsShrink, fileSizeHigh, reserved, shadowsObj, isShrink }
      left_inv := fun _ => rfl
      right_inv := fun _ => rfl }

/-! ## Records of the checkpoint -/

/-- The marker at the head and at the tail of a checkpoint. -/
structure CheckptValidity where
  structType : U32
  magic : U32
  version : U32
  head : U32
deriving DecidableEq

/-- Convert a validity marker. -/
def doEndianValidityMarker (swapEndian : Bool) (v : CheckptValidity) : CheckptValidity :=
  if swapEndian then
    { structType := swapU32 v.structType
      magic := swapU32 v.magic
      version := swapU32 v.version
      head := swapU32 v.head }
  else v

/-- A validity marker in memory. -/
def CheckptValidity.layout : RecordLayout CheckptValidity :=
  let word := RecordLayout.word 4
  RecordLayout.named (.pair word <| .pair word <| .pair word word)
    { toFun := fun v => (v.structType, v.magic, v.version, v.head)
      invFun := fun (structType, magic, version, head) => { structType, magic, version, head }
      left_inv := fun _ => rfl
      right_inv := fun _ => rfl }

/-- The counters of the device in a checkpoint. -/
structure CheckptDev where
  structType : U32
  nErasedBlocks : U32
  allocBlock : U32
  allocPage : U32
  nFreeChunks : U32
  nDeletedFiles : U32
  nUnlinkedFiles : U32
  nBgDeletions : U32
  seqNumber : U32
deriving DecidableEq

/-- Convert the counters of the device.  The sequence number is left as it is. -/
def doEndianCheckptDev (swapEndian : Bool) (cp : CheckptDev) : CheckptDev :=
  if swapEndian then
    { cp with
      structType := swapU32 cp.structType
      nErasedBlocks := swapU32 cp.nErasedBlocks
      allocBlock := swapU32 cp.allocBlock
      allocPage := swapU32 cp.allocPage
      nFreeChunks := swapU32 cp.nFreeChunks
      nDeletedFiles := swapU32 cp.nDeletedFiles
      nUnlinkedFiles := swapU32 cp.nUnlinkedFiles
      nBgDeletions := swapU32 cp.nBgDeletions }
  else cp

/-- The counters of the device in memory. -/
def CheckptDev.layout : RecordLayout CheckptDev :=
  let word := RecordLayout.word 4
  RecordLayout.named
    (.pair word <| .pair word <| .pair word <| .pair word <| .pair word <| .pair word <|
      .pair word <| .pair word word)
    { toFun := fun cp =>
        (cp.structType, cp.nErasedBlocks, cp.allocBlock, cp.allocPage, cp.nFreeChunks,
          cp.nDeletedFiles, cp.nUnlinkedFiles, cp.nBgDeletions, cp.seqNumber)
      invFun := fun (structType, nErasedBlocks, allocBlock, allocPage, nFreeChunks, nDeletedFiles,
          nUnlinkedFiles, nBgDeletions, seqNumber) =>
        { structType, nErasedBlocks, allocBlock, allocPage, nFreeChunks, nDeletedFiles,
          nUnlinkedFiles, nBgDeletions, seqNumber }
      left_inv := fun _ => rfl
      right_inv := fun _ => rfl }

/-- An object in a checkpoint. -/
structure CheckptObj (size : LoffSize) where
  structType : U32
  objId : U32
  parentId : U32
  hdrChunk : U32
  bitField : U32
  nDataChunks : U32
  sizeOrEquivObj : BitVec (8 * size.bytes)

/-- Convert an object. -/
def doEndianCheckptObj {size : LoffSize} (swapEndian : Bool) (cp : CheckptObj size) :
    CheckptObj size :=
  if swapEndian then
    { structType := swapU32 cp.structType
      objId := swapU32 cp.objId
      parentId := swapU32 cp.parentId
      hdrChunk := swapU32 cp.hdrChunk
      bitField := swapU32 cp.bitField
      nDataChunks := swapU32 cp.nDataChunks
      sizeOrEquivObj := swapLoffT size cp.sizeOrEquivObj }
  else cp

/-- An object of a checkpoint in memory. -/
def CheckptObj.layout (size : LoffSize) : RecordLayout (CheckptObj size) :=
  let word := RecordLayout.word 4
  RecordLayout.named
    (.pair word <| .pair word <| .pair word <| .pair word <| .pair word <| .pair word <|
      RecordLayout.word size.bytes)
    { toFun := fun cp =>
        (cp.structType, cp.objId, cp.parentId, cp.hdrChunk, cp.bitField, cp.nDataChunks,
          cp.sizeOrEquivObj)
      invFun := fun (structType, objId, parentId, hdrChunk, bitField, nDataChunks,
          sizeOrEquivObj) =>
        { structType, objId, parentId, hdrChunk, bitField, nDataChunks, sizeOrEquivObj }
      left_inv := fun _ => rfl
      right_inv := fun _ => rfl }

/-! ## Summaries -/

/-- The tags of a page in the summary of its block, as they are stored. -/
structure PackedSummaryTags where
  objId : U32
  chunkId : U32
  nBytes : U32
deriving DecidableEq

/-- The tags of a page in memory. -/
def PackedSummaryTags.layout : RecordLayout PackedSummaryTags :=
  let word := RecordLayout.word 4
  RecordLayout.named (.pair word <| .pair word word)
    { toFun := fun st => (st.objId, st.chunkId, st.nBytes)
      invFun := fun (objId, chunkId, nBytes) => { objId, chunkId, nBytes }
      left_inv := fun _ => rfl
      right_inv := fun _ => rfl }

/-- The beginning of each page of a summary. -/
structure SummaryHeader where
  version : U32
  block : U32
  seq : U32
  sum : U32
deriving DecidableEq

/-- The beginning of a page of a summary in memory. -/
def SummaryHeader.layout : RecordLayout SummaryHeader :=
  let word := RecordLayout.word 4
  RecordLayout.named (.pair word <| .pair word <| .pair word word)
    { toFun := fun hdr => (hdr.version, hdr.block, hdr.seq, hdr.sum)
      invFun := fun (version, block, seq, sum) => { version, block, seq, sum }
      left_inv := fun _ => rfl
      right_inv := fun _ => rfl }

/-- Note the tags of a page for the summary. -/
def summaryAdd (swapEndian : Bool) (tags : ExtTags) : PackedSummaryTags :=
  let tagsOnly := packTags2TagsOnly swapEndian tags
  { objId := tagsOnly.objId, chunkId := tagsOnly.chunkId, nBytes := tagsOnly.nBytes }

/-- The sum of all bytes of a summary. -/
def summarySum (stored : List UInt8) : U32 :=
  stored.foldl (fun sum byte => sum + BitVec.ofNat 32 byte.toNat) 0

/-- A page of a summary, with the tags it is written or read with. -/
structure SummaryPage where
  tags : ExtTags
  data : List UInt8

/-- The loop of `summaryWrite`. -/
def summaryWriteLoop (hdr : List UInt8) (sumBytesPerChunk : Nat) :
    Nat → Nat → List UInt8 → List SummaryPage
  | 0, _, _ => []
  | fuel + 1, chunkId, sumBuffer =>
    let thisTx := min sumBuffer.length sumBytesPerChunk
    let page : SummaryPage :=
      { tags := { objId := objectIdSummary, chunkId, nBytes := thisTx + hdr.length }
        data := hdr ++ sumBuffer.take thisTx }
    page ::
      if 0 < sumBuffer.length - thisTx then
        summaryWriteLoop hdr sumBytesPerChunk fuel (chunkId + 1) (sumBuffer.drop thisTx)
      else []

/-- The pages that a host writes for the summary of a block. -/
def summaryWrite (bigEndian : Bool) (storedEndian : Nat) (dataBytesPerChunk blk seqNumber : Nat)
    (sumTags : List ExtTags) : List SummaryPage :=
  let packed := sumTags.map (summaryAdd (endianConfig bigEndian storedEndian))
  let sumBuffer := packed.flatMap (PackedSummaryTags.layout.store bigEndian)
  let hdr : SummaryHeader :=
    { version := BitVec.ofNat 32 summaryVersion
      block := BitVec.ofNat 32 blk
      seq := BitVec.ofNat 32 seqNumber
      sum := summarySum sumBuffer }
  let stored := SummaryHeader.layout.store bigEndian hdr
  summaryWriteLoop stored (dataBytesPerChunk - stored.length) (sumBuffer.length + 1) 1 sumBuffer

/-- The page as it is found again. -/
def SummaryPage.found (page : SummaryPage) : SummaryPage :=
  { page with tags := { page.tags with chunkUsed := true, eccResult := .noError } }

/-- The loop of `summaryRead`: the header of the last page, and the bytes behind the headers. -/
def summaryReadLoop (bigEndian : Bool) (sumBytesPerChunk : Nat) :
    List SummaryPage → Nat → Nat → List UInt8 → Option (SummaryHeader × List UInt8)
  | [], _, _, _ => none
  | page :: pages, chunkId, nBytes, sumBuffer =>
    let thisTx := min nBytes sumBytesPerChunk
    let hdrSize := SummaryHeader.layout.size
    if page.tags.chunkId ≠ chunkId ∨ page.tags.objId ≠ objectIdSummary ∨
        page.tags.chunkUsed = false ∨ EccResult.fixed.code < page.tags.eccResult.code ∨
        page.tags.nBytes ≠ thisTx + hdrSize then none
    else
      let hdr := SummaryHeader.layout.load bigEndian page.data
      let sumBuffer := sumBuffer ++ (page.data.drop hdrSize).take thisTx
      if 0 < nBytes - thisTx then
        summaryReadLoop bigEndian sumBytesPerChunk pages (chunkId + 1) (nBytes - thisTx) sumBuffer
      else some (hdr, sumBuffer)

/-- The tags in a summary. -/
def loadSummaryTags (bigEndian : Bool) : Nat → List UInt8 → List PackedSummaryTags
  | 0, _ => []
  | count + 1, sumBuffer =>
    PackedSummaryTags.layout.load bigEndian sumBuffer ::
      loadSummaryTags bigEndian count (sumBuffer.drop PackedSummaryTags.layout.size)

/-- The summary that a host finds in the pages of a block. -/
def summaryRead (bigEndian : Bool) (dataBytesPerChunk seqNumber chunksPerSummary : Nat)
    (pages : List SummaryPage) : Option (List PackedSummaryTags) :=
  let nBytes := PackedSummaryTags.layout.size * chunksPerSummary
  match summaryReadLoop bigEndian (dataBytesPerChunk - SummaryHeader.layout.size) pages 1 nBytes []
  with
  | none => none
  | some (hdr, sumBuffer) =>
    if hdr.version ≠ BitVec.ofNat 32 summaryVersion ∨ hdr.seq ≠ BitVec.ofNat 32 seqNumber ∨
        hdr.sum ≠ summarySum sumBuffer then none
    else some (loadSummaryTags bigEndian chunksPerSummary sumBuffer)

/-- The tags of a page, from the summary.  The sequence number is left as it happens to be. -/
def summaryFetch (swapEndian : Bool) (seqNumber : U32) (sumTags : PackedSummaryTags) : ExtTags :=
  unpackTags2TagsOnly swapEndian
    { seqNumber, objId := sumTags.objId, chunkId := sumTags.chunkId, nBytes := sumTags.nBytes }

/-! ## Exchange between hosts -/

/-- The bytes that a host stores for a record, with the conversion of its type. -/
def storeRecord {α : Type} (A : RecordLayout α) (doEndian : Bool → α → α) (storedEndian : Nat)
    (record : α) (bigEndian : Bool) : List UInt8 :=
  A.store bigEndian (doEndian (endianConfig bigEndian storedEndian) record)

/-- The record that a host finds in stored bytes. -/
def loadRecord {α : Type} (A : RecordLayout α) (doEndian : Bool → α → α) (storedEndian : Nat)
    (bigEndian : Bool) (memory : List UInt8) : α :=
  doEndian (endianConfig bigEndian storedEndian) (A.load bigEndian memory)

/-- What a host of either kind has written is read alike by the other one. -/
def ReadAlike {Stored α : Type} (write : Bool → Stored) (read : Bool → Stored → α) : Prop :=
  ∀ host, read (!host) (write host) = read host (write host)

/-- A record that is stored on flash. -/
inductive FlashRecord
  | tags (t : ExtTags) (tagsEcc : Bool)
  | header (oh : ObjHdr)
  | summary (dataBytesPerChunk : Nat) (enough : SummaryHeader.layout.size < dataBytesPerChunk)
      (blk seqNumber : Nat) (left : U32) (sumTags : List ExtTags)
  | validity (v : CheckptValidity)
  | checkptDev (cp : CheckptDev)
  | checkptObj (size : LoffSize) (cp : CheckptObj size)
  | xattrSize (size : U32)

/-- Do hosts of both kinds read the record alike? -/
def FlashRecord.Portable (storedEndian : Nat) : FlashRecord → Prop
  | .tags t tagsEcc =>
    ReadAlike (fun host => packTags2 host storedEndian t tagsEcc)
      fun host memory => unpackTags2 host storedEndian memory tagsEcc
  | .header oh =>
    ReadAlike (storeRecord ObjHdr.layout doEndianOh storedEndian oh)
      (loadRecord ObjHdr.layout doEndianOh storedEndian)
  | .summary dataBytesPerChunk _ blk seqNumber left sumTags =>
    ReadAlike
      (fun host =>
        (summaryWrite host storedEndian dataBytesPerChunk blk seqNumber sumTags).map
          SummaryPage.found)
      fun host pages =>
        (summaryRead host dataBytesPerChunk seqNumber sumTags.length pages).map
          (List.map (summaryFetch (endianConfig host storedEndian) left))
  | .validity v =>
    ReadAlike (storeRecord CheckptValidity.layout doEndianValidityMarker storedEndian v)
      (loadRecord CheckptValidity.layout doEndianValidityMarker storedEndian)
  | .checkptDev cp =>
    ReadAlike (storeRecord CheckptDev.layout doEndianCheckptDev storedEndian cp)
      (loadRecord CheckptDev.layout doEndianCheckptDev storedEndian)
  | .checkptObj size cp =>
    ReadAlike (storeRecord (CheckptObj.layout size) doEndianCheckptObj storedEndian cp)
      (loadRecord (CheckptObj.layout size) doEndianCheckptObj storedEndian)
  | .xattrSize size =>
    ReadAlike (storeRecord (RecordLayout.word 4) doEndianU32 storedEndian size)
      (loadRecord (RecordLayout.word 4) doEndianU32 storedEndian)

/-- No word that is stored as the host has it tells the two orders apart: the parities of the tags
are not used or zero, the other words are the same in reverse.  A summary has its version in such a
word. -/
def FlashRecord.Symmetric (storedEndian : Nat) : FlashRecord → Prop
  | .tags t tagsEcc =>
    let ptt := packTags2TagsOnly false t
    tagsEcc = false ∨ ptt.seqNumber = 0xffffffff ∨
      (eccCalcOther (PackedTags2TagsOnly.layout.store (storedEndian == 2) ptt)).lineParity = 0
  | .header oh => (RecordLayout.word 2).swapped oh.sumNoLongerUsed = oh.sumNoLongerUsed
  | .summary .. => False
  | .validity _ => True
  | .checkptDev cp => swapU32 cp.seqNumber = cp.seqNumber
  | .checkptObj _ _ => True
  | .xattrSize _ => True

end Yaffs.Stored
