import Yaffs.ByteOrderExchange

/-!
# Pages with an object header

A header page says the same things twice: in the header, and in the tags.  A scan takes them from
the tags where it can, and reads the header where it has to.  With inband tags the tags lie behind
the data of the page, where they may cover the end of the header; the header keeps two of the words
there a second time.
-/

namespace Yaffs.Stored

/-- How pages are stored. -/
structure PageFormat where
  /-- The byte order of the host. -/
  bigEndian : Bool
  /-- The parameter `stored_endian`. -/
  storedEndian : Nat
  inbandTags : Bool
  /-- With inband tags, the place of the tags in the page. -/
  dataBytesPerChunk : Nat
  /-- A page has room for a header. -/
  room : ObjHdr.layout.size ≤
    dataBytesPerChunk + if inbandTags then PackedTags2TagsOnly.layout.size else 0

/-- A header page, as its header and its tags are found in memory. -/
structure HeaderPage where
  oh : ObjHdr
  ptt : PackedTags2TagsOnly

/-- What `updateOh` finds in an object, and what it is called with. -/
structure HdrSource where
  objId : Nat
  serial : Nat
  variantType : ObjType
  /-- Zero if the object has no parent. -/
  parentObjId : U32
  ystMode : U32
  ystUid : U32
  ystGid : U32
  ystAtime : U32
  ystMtime : U32
  ystCtime : U32
  ystRdev : U32
  /-- The new name, or the one that the old header has. -/
  name : Chars 256
  /-- Files only. -/
  storedSize : Nat
  /-- Hard links only. -/
  equivId : U32
  /-- Symbolic links only. -/
  aliasName : Chars 160
  isShrink : Bool
  shadows : U32

/-- Memory that has been set to ones. -/
def ObjHdr.blank : ObjHdr :=
  let ones : U32 := 0xffffffff
  { type := ones, parentObjId := ones, sumNoLongerUsed := 0xffff
    name := ⟨List.replicate 256 0xff, List.length_replicate⟩
    ystMode := ones, ystUid := ones, ystGid := ones, ystAtime := ones, ystMtime := ones
    ystCtime := ones, fileSizeLow := ones, equivId := ones
    aliasName := ⟨List.replicate 160 0xff, List.length_replicate⟩
    ystRdev := ones, winCtime := (ones, ones), winAtime := (ones, ones), winMtime := (ones, ones)
    inbandShadowedObjId := ones, inbandIsShrink := ones, fileSizeHigh := ones, reserved := ones
    shadowsObj := ones, isShrink := ones }

/-- Put a file size into a header. -/
def ohSizeLoad (swapEndian : Bool) (oh : ObjHdr) (fsize : Nat) (doEndian : Bool) : ObjHdr :=
  let low := BitVec.ofNat 32 fsize
  let high := BitVec.ofNat 32 (fsize >>> 32)
  if doEndian then
    { oh with
      fileSizeLow := doEndianU32 swapEndian low
      fileSizeHigh := doEndianU32 swapEndian high }
  else { oh with fileSizeLow := low, fileSizeHigh := high }

/-- The file size in a header. -/
def ohToSize (oh : ObjHdr) : Nat :=
  if ~~~oh.fileSizeHigh ≠ 0 then oh.fileSizeHigh.toNat <<< 32 ||| oh.fileSizeLow.toNat
  else oh.fileSizeLow.toNat

/-- The directory of unlinked objects. -/
def objectIdUnlinked : U32 := 3

/-- The directory of deleted objects. -/
def objectIdDeleted : U32 := 4

namespace PageFormat

variable (fmt : PageFormat)

/-- Are the words stored in the order that is not the host's own? -/
def swapEndian : Bool := endianConfig fmt.bigEndian fmt.storedEndian

/-- The header after the tags have been stuffed behind the data of its page. -/
def stuff (oh : ObjHdr) (ptt : PackedTags2TagsOnly) : ObjHdr :=
  if fmt.inbandTags then
    let kept := (ObjHdr.layout.store fmt.bigEndian oh).take fmt.dataBytesPerChunk
    let tags := PackedTags2TagsOnly.layout.store fmt.bigEndian ptt
    ObjHdr.layout.load fmt.bigEndian (kept ++ tags.take (ObjHdr.layout.size - kept.length))
  else oh

/-- Write a header, whose words are in the order of the store, to a page of a block with some
sequence number. -/
def writeNewChunk (oh : ObjHdr) (tags : ExtTags) (seqNumber : Nat) : HeaderPage :=
  let ptt := packTags2TagsOnly fmt.swapEndian { tags with seqNumber }
  { oh := fmt.stuff oh ptt, ptt }

/-- The size that the header of a file has.  Files that are gone have none. -/
def headerSize (src : HdrSource) : Nat :=
  if src.parentObjId ≠ objectIdDeleted ∧ src.parentObjId ≠ objectIdUnlinked then src.storedSize
  else 0

/-- Fill in the header of an object.  The buffer holds ones, or whatever has been left there by a
read of the old header that has failed. -/
def filledOh (src : HdrSource) (buffer : ObjHdr) : ObjHdr :=
  let oh : ObjHdr :=
    { buffer with
      type := BitVec.ofNat 32 src.variantType.code
      ystMode := src.ystMode
      shadowsObj := src.shadows
      inbandShadowedObjId := src.shadows
      ystUid := src.ystUid
      ystGid := src.ystGid
      ystAtime := src.ystAtime
      ystMtime := src.ystMtime
      ystCtime := src.ystCtime
      ystRdev := src.ystRdev
      parentObjId := src.parentObjId
      name := src.name
      isShrink := if src.isShrink then 1 else 0 }
  match src.variantType with
  | .file => ohSizeLoad fmt.swapEndian oh (headerSize src) false
  | .hardlink => { oh with equivId := src.equivId }
  | .symlink => { oh with aliasName := src.aliasName }
  | _ => oh

/-- Write the header of an object. -/
def updateOh (src : HdrSource) (buffer : ObjHdr) (seqNumber : Nat) : HeaderPage :=
  let oh := fmt.filledOh src buffer
  let newTags : ExtTags :=
    { chunkId := 0
      objId := src.objId
      serialNumber := src.serial + 1
      extraAvailable := true
      extraParentId := oh.parentObjId.toNat
      extraFileSize := if src.variantType = .file then headerSize src else 0
      extraIsShrink := decide (oh.isShrink ≠ 0)
      extraEquivId := oh.equivId.toNat
      extraShadows := decide (0 < oh.shadowsObj.toInt)
      extraObjType := src.variantType }
  fmt.writeNewChunk (doEndianOh fmt.swapEndian oh) newTags seqNumber

/-- The tags of a page. -/
def tagsOf (page : HeaderPage) : ExtTags := unpackTags2TagsOnly fmt.swapEndian page.ptt

/-- Copy the header of an object to a new page.  A file may have another size by now. -/
def gcProcessChunk (objectType : ObjType) (storedSize : Nat) (page : HeaderPage)
    (seqNumber : Nat) : HeaderPage :=
  let tags := fmt.tagsOf page
  let tags :=
    { tags with
      serialNumber := tags.serialNumber + 1
      extraIsShrink := false
      extraShadows := false }
  let oh : ObjHdr := { page.oh with isShrink := 0, shadowsObj := 0, inbandShadowedObjId := 0 }
  if objectType = .file then
    fmt.writeNewChunk (ohSizeLoad fmt.swapEndian oh storedSize true)
      { tags with extraFileSize := storedSize } seqNumber
  else fmt.writeNewChunk oh tags seqNumber

/-- The header that a scan reads, with the words that inband tags may have covered put right. -/
def scannedOh (page : HeaderPage) : ObjHdr :=
  let oh := doEndianOh fmt.swapEndian page.oh
  if fmt.inbandTags then
    { oh with shadowsObj := oh.inbandShadowedObjId, isShrink := oh.inbandIsShrink }
  else oh

/-- A copy that the garbage collection has made of a header page: the size of the object then, and
the sequence number of the block that the copy went to. -/
structure Rewrite where
  storedSize : Nat
  seqNumber : Nat

/-- A header page that has been written, and has been copied some times since. -/
def headerPage (src : HdrSource) (buffer : ObjHdr) (seqNumber : Nat) (rewrites : List Rewrite) :
    HeaderPage :=
  rewrites.foldl
    (fun page rewrite =>
      fmt.gcProcessChunk src.variantType rewrite.storedSize page rewrite.seqNumber)
    (fmt.updateOh src buffer seqNumber)

/-- The sequence number in the tags of that page. -/
def lastSeqNumber (seqNumber : Nat) (rewrites : List Rewrite) : Nat :=
  rewrites.foldl (fun _ rewrite => rewrite.seqNumber) seqNumber

/-- The bytes of the sequence number that cover the upper word of the file size. -/
def coverBytes (seqNumber : Nat) : List UInt8 :=
  if fmt.inbandTags then
    ((RecordLayout.word 4).store fmt.bigEndian
      (doEndianU32 fmt.swapEndian (BitVec.ofNat 32 seqNumber))).take (500 - fmt.dataBytesPerChunk)
  else []

end PageFormat

/-- A scan takes the same from the tags and from the header.  Only files have a size, and only hard
links another object that they stand for. -/
def ScannedAlike (tags : ExtTags) (oh : ObjHdr) : Prop :=
  oh.type = BitVec.ofNat 32 tags.extraObjType.code ∧
    oh.parentObjId.toNat = tags.extraParentId ∧
    (tags.extraObjType = .file → ohToSize oh = tags.extraFileSize) ∧
    (oh.isShrink ≠ 0 ↔ tags.extraIsShrink) ∧
    (0 < oh.shadowsObj.toInt ↔ tags.extraShadows) ∧
    (tags.extraObjType = .hardlink → oh.equivId.toNat = tags.extraEquivId)

instance (tags : ExtTags) (oh : ObjHdr) : Decidable (ScannedAlike tags oh) :=
  inferInstanceAs (Decidable (_ ∧ _ ∧ _ ∧ _ ∧ _ ∧ _))

/-! ## Memory -/

/-- The last words of a header. -/
def ObjHdr.tail : RecordLayout (U32 × U32 × U32 × U32) :=
  let word := RecordLayout.word 4
  word.pair (word.pair (word.pair word))

/-- A header with other words at its end. -/
def ObjHdr.setTail (oh : ObjHdr) (words : U32 × U32 × U32 × U32) : ObjHdr :=
  { oh with
    fileSizeHigh := words.1
    reserved := words.2.1
    shadowsObj := words.2.2.1
    isShrink := words.2.2.2 }

theorem ObjHdr.size_layout : ObjHdr.layout.size = 512 := rfl

/-- A layout that ends with another one: the end can be replaced in memory. -/
def EndsWith {α β : Type*} (A : RecordLayout α) (B : RecordLayout β) (get : α → β)
    (set : α → β → α) : Prop :=
  ∀ order record, ∃ head : List UInt8, A.store order record = head ++ B.store order (get record) ∧
    ∀ memory, A.load order (head ++ memory) = set record (B.load order memory)

theorem EndsWith.whole {α : Type*} (A : RecordLayout α) :
    EndsWith A A (fun record => record) (fun _ last => last) :=
  fun _ _ => ⟨[], rfl, fun _ => rfl⟩

theorem EndsWith.pair {α β γ : Type*} (A : RecordLayout α) {B : RecordLayout β}
    {C : RecordLayout γ} {get : β → γ} {set : β → γ → β} (ends : EndsWith B C get set) :
    EndsWith (A.pair B) C (fun record => get record.2)
      (fun record last => (record.1, set record.2 last)) := by
  intro order record
  obtain ⟨head, store, load⟩ := ends order record.2
  refine ⟨A.store order record.1 ++ head, ?_, fun memory => ?_⟩
  · rw [List.append_assoc, ← store]
    rfl
  · rw [List.append_assoc, RecordLayout.load_pair, load]

theorem EndsWith.named {α β γ : Type*} {A : RecordLayout α} {C : RecordLayout γ} {get : α → γ}
    {set : α → γ → α} (ends : EndsWith A C get set) (names : β ≃ α) :
    EndsWith (A.named names) C (fun record => get (names record))
      (fun record last => names.symm (set (names record) last)) := by
  intro order record
  obtain ⟨head, store, load⟩ := ends order (names record)
  exact ⟨head, store, fun memory => congrArg names.symm (load memory)⟩

/-- All words but the last ones are found again, whatever the last ones have become. -/
theorem ObjHdr.endsWith_tail :
    EndsWith ObjHdr.layout ObjHdr.tail
      (fun oh => (oh.fileSizeHigh, oh.reserved, oh.shadowsObj, oh.isShrink)) ObjHdr.setTail := by
  let word := RecordLayout.word 4
  let words := word.pair word
  let name := (RecordLayout.chars 256).padded 2
  have ends := EndsWith.pair word <| .pair word <| .pair (RecordLayout.word 2) <| .pair name <|
    .pair word <| .pair word <| .pair word <| .pair word <| .pair word <| .pair word <|
    .pair word <| .pair word <| .pair (RecordLayout.chars 160) <| .pair word <| .pair words <|
    .pair words <| .pair words <| .pair word <| .pair word <| .whole ObjHdr.tail
  exact ends.named _

theorem load_word_take {count : Nat} (order : Bool) (memory : List UInt8) :
    (RecordLayout.word count).load order memory =
      (RecordLayout.word count).load order (memory.take count) := by
  change BitVec.ofNat _ _ = BitVec.ofNat _ _
  rw [List.take_take, Nat.min_self]

theorem store_zero (order : Bool) :
    (RecordLayout.word 4).store order (0 : U32) = List.replicate 4 0 := by
  cases order <;> rfl

theorem store_ones (order : Bool) :
    (RecordLayout.word 4).store order (0xffffffff : U32) = List.replicate 4 0xff := by
  cases order <;> rfl

namespace PageFormat

variable (fmt : PageFormat)

/-- The last words of a header after the tags have been stuffed behind the data. -/
def covered (words : U32 × U32 × U32 × U32) (ptt : PackedTags2TagsOnly) : U32 × U32 × U32 × U32 :=
  let kept := (ObjHdr.tail.store fmt.bigEndian words).take (fmt.dataBytesPerChunk - 496)
  let tags := PackedTags2TagsOnly.layout.store fmt.bigEndian ptt
  ObjHdr.tail.load fmt.bigEndian (kept ++ tags.take (16 - kept.length))

theorem le_dataBytesPerChunk : 496 ≤ fmt.dataBytesPerChunk := by
  have room := fmt.room
  change 512 ≤ _ + (if fmt.inbandTags then 16 else 0) at room
  split at room
  · omega
  · omega

variable {fmt}

theorem stuff_of_inband (inband : fmt.inbandTags = true) (oh : ObjHdr) (ptt : PackedTags2TagsOnly) :
    fmt.stuff oh ptt =
      oh.setTail (fmt.covered (oh.fileSizeHigh, oh.reserved, oh.shadowsObj, oh.isShrink) ptt) := by
  obtain ⟨head, store, load⟩ := ObjHdr.endsWith_tail fmt.bigEndian oh
  have room := fmt.le_dataBytesPerChunk
  have length : head.length = 496 := by
    have total := ObjHdr.layout.length_store fmt.bigEndian oh
    rw [store, List.length_append, ObjHdr.tail.length_store] at total
    change head.length + 16 = 512 at total
    omega
  unfold stuff covered
  rw [if_pos inband]
  dsimp only
  rw [store, List.take_append, List.take_of_length_le (by omega), length, List.append_assoc, load,
    List.length_append, length, ObjHdr.size_layout, show ∀ n, 512 - (496 + n) = 16 - n by omega]

/-- The upper word of the file size, in memory. -/
theorem take_covered (reserved shadowsObj isShrink : U32) (ptt : PackedTags2TagsOnly) :
    (fmt.covered (0, reserved, shadowsObj, isShrink) ptt).1 =
      (RecordLayout.word 4).load fmt.bigEndian
        ((List.replicate 4 0).take (fmt.dataBytesPerChunk - 496) ++
          ((RecordLayout.word 4).store fmt.bigEndian ptt.seqNumber).take
            (500 - fmt.dataBytesPerChunk)) := by
  have room := fmt.le_dataBytesPerChunk
  obtain ⟨rest, words⟩ : ∃ rest,
      ObjHdr.tail.store fmt.bigEndian (0, reserved, shadowsObj, isShrink) =
        List.replicate 4 0 ++ rest := by
    rw [← store_zero fmt.bigEndian]
    exact ⟨_, rfl⟩
  obtain ⟨others, tags⟩ : ∃ others, PackedTags2TagsOnly.layout.store fmt.bigEndian ptt =
      (RecordLayout.word 4).store fmt.bigEndian ptt.seqNumber ++ others := ⟨_, rfl⟩
  have size := ObjHdr.tail.length_store fmt.bigEndian (0, reserved, shadowsObj, isShrink)
  change _ = 16 at size
  have four := (RecordLayout.word 4).length_store fmt.bigEndian ptt.seqNumber
  change _ = 4 at four
  obtain ⟨kept, room⟩ : ∃ kept, fmt.dataBytesPerChunk = 496 + kept := Nat.exists_eq_add_of_le room
  change (RecordLayout.word 4).load _ _ = _
  rw [load_word_take, tags, room, Nat.add_sub_cancel_left, List.take_append, List.length_take, size,
    words, List.take_take, List.take_append_of_le_length (by simp), List.take_take,
    List.take_append_of_le_length (by omega), show 500 - (496 + kept) = 4 - kept by omega,
    show min (4 - min kept 16) (16 - min kept 16) = 4 - kept by omega, List.take_replicate,
    List.take_replicate, show min (min 4 kept) 4 = min kept 4 by omega]

/-- The file size is left alone only if it is covered by zeros. -/
theorem covered_zero_iff (reserved shadowsObj isShrink : U32) (ptt : PackedTags2TagsOnly) :
    (fmt.covered (0, reserved, shadowsObj, isShrink) ptt).1 = 0 ↔
      ∀ byte ∈ ((RecordLayout.word 4).store fmt.bigEndian ptt.seqNumber).take
        (500 - fmt.dataBytesPerChunk), byte = 0 := by
  have room := fmt.le_dataBytesPerChunk
  have four := (RecordLayout.word 4).length_store fmt.bigEndian ptt.seqNumber
  change _ = 4 at four
  rw [take_covered, RecordLayout.load_word_eq_iff _ (by simp [four]; omega)]
  refine Iff.trans (Eq.congr_right (store_zero fmt.bigEndian)) ?_
  rw [List.eq_replicate_iff]
  constructor
  · exact fun all byte mem => all.2 byte (List.mem_append_right _ mem)
  · intro zeros
    refine ⟨by simp [four]; omega, fun byte mem => ?_⟩
    rcases List.mem_append.mp mem with own | cover
    · exact List.eq_of_mem_replicate (List.mem_of_mem_take own)
    · exact zeros byte cover

theorem covered_ne_ones {reserved shadowsObj isShrink : U32} {ptt : PackedTags2TagsOnly}
    (ne : ptt.seqNumber ≠ 0xffffffff) :
    (fmt.covered (0, reserved, shadowsObj, isShrink) ptt).1 ≠ 0xffffffff := by
  have room := fmt.le_dataBytesPerChunk
  have four := (RecordLayout.word 4).length_store fmt.bigEndian ptt.seqNumber
  change _ = 4 at four
  rw [take_covered, ne_eq, RecordLayout.load_word_eq_iff _ (by simp [four]; omega)]
  intro ones
  replace ones := ones.trans (store_ones fmt.bigEndian)
  obtain ⟨kept, room⟩ : ∃ kept, fmt.dataBytesPerChunk = 496 + kept := Nat.exists_eq_add_of_le room
  cases kept with
  | zero =>
    -- the whole word is the sequence number
    rw [room, Nat.add_zero, Nat.sub_self, List.take_zero, List.nil_append,
      List.take_of_length_le (by omega)] at ones
    exact ne ((RecordLayout.word 4).store_injective fmt.bigEndian
      (ones.trans (store_ones fmt.bigEndian).symm))
  | succ kept =>
    -- a byte of the file size is left
    rw [room, show 496 + (kept + 1) - 496 = kept + 1 by omega] at ones
    exact absurd (congrArg List.head? ones) (by simp [List.replicate])
end PageFormat

/-! ## Tags -/

theorem doEndianPackedTags2_twice (swap : Bool) (ptt : PackedTags2TagsOnly) :
    doEndianPackedTags2 swap (doEndianPackedTags2 swap ptt) = ptt := by
  cases swap <;> simp [doEndianPackedTags2]

/-- The word with the parent and the flags. -/
def packParent (parent : U32) (isShrink shadows : Bool) : U32 :=
  0x80000000 ||| parent ||| (if isShrink then 0x40000000 else 0) |||
    (if shadows then 0x20000000 else 0)

theorem mask_lt {value : U32} (lt : value.toNat < 2 ^ 28) : value &&& 0x0fffffff = value := by
  apply BitVec.eq_of_toNat_eq
  exact (BitVec.toNat_and _ _).trans
    ((Nat.and_two_pow_sub_one_eq_mod value.toNat 28).trans (Nat.mod_eq_of_lt lt))

theorem toNat_mask (value : U32) : (value &&& 0x0fffffff).toNat = value.toNat % 2 ^ 28 :=
  (BitVec.toNat_and _ _).trans (Nat.and_two_pow_sub_one_eq_mod value.toNat 28)

theorem packParent_flag (parent : U32) (isShrink shadows : Bool) :
    packParent parent isShrink shadows &&& 0x80000000 ≠ 0 := by
  intro zero
  have bit := congrArg (fun word : U32 => word.getLsbD 31) zero
  revert bit
  cases isShrink <;> cases shadows <;> simp [packParent]

theorem packParent_parent (parent : U32) (isShrink shadows : Bool) :
    packParent parent isShrink shadows &&& 0x0fffffff = parent &&& 0x0fffffff := by
  cases isShrink <;> cases shadows <;> simp [packParent, BitVec.and_or_distrib_right]

theorem packParent_isShrink {parent : U32} (lt : parent.toNat < 2 ^ 28) (isShrink shadows : Bool) :
    decide (packParent parent isShrink shadows &&& 0x40000000 ≠ 0) = isShrink := by
  rw [← mask_lt lt]
  cases isShrink <;> cases shadows <;>
    simp [packParent, BitVec.and_or_distrib_right, BitVec.and_assoc]

theorem packParent_shadows {parent : U32} (lt : parent.toNat < 2 ^ 28) (isShrink shadows : Bool) :
    decide (packParent parent isShrink shadows &&& 0x20000000 ≠ 0) = shadows := by
  rw [← mask_lt lt]
  cases isShrink <;> cases shadows <;>
    simp [packParent, BitVec.and_or_distrib_right, BitVec.and_assoc]

/-- The word with the object and its type. -/
def packObj (objId : U32) (type : ObjType) : U32 :=
  (objId &&& 0x0fffffff) ||| (BitVec.ofNat 32 type.code <<< 28)

theorem packObj_type (objId : U32) (type : ObjType) :
    ObjType.ofCode (packObj objId type >>> 28).toNat = type := by
  have low : (objId &&& 0x0fffffff) >>> 28 = 0 := by
    apply BitVec.eq_of_toNat_eq
    have lt : (objId &&& 0x0fffffff).toNat < 2 ^ 28 := by
      rw [toNat_mask]
      exact Nat.mod_lt _ (by decide)
    rw [BitVec.toNat_ushiftRight, Nat.shiftRight_eq_div_pow, Nat.div_eq_of_lt lt]
    rfl
  have high : packObj objId type >>> 28 = (BitVec.ofNat 32 type.code <<< 28) >>> 28 := by
    refine Eq.trans (BitVec.ushiftRight_or_distrib _ _ _) ?_
    refine Eq.trans (congrArg (· ||| (BitVec.ofNat 32 type.code <<< 28) >>> 28) low) ?_
    exact BitVec.zero_or
  rw [high]
  cases type <;> rfl

theorem doEndianU32_ones {swap : Bool} {value : U32} :
    doEndianU32 swap value = 0xffffffff ↔ value = 0xffffffff := by
  cases swap
  · exact Iff.rfl
  · constructor
    · intro ones
      rw [← swapU32_swapU32 value]
      exact congrArg swapU32 ones
    · intro ones
      rw [ones]
      exact swapU32_ones

/-- What is found in the tags of a header. -/
structure Unpacked (tags found : ExtTags) : Prop where
  packable : checkTagsExtraPackable tags
  parent : found.extraParentId = tags.extraParentId % 2 ^ 28
  type : found.extraObjType = tags.extraObjType
  isShrink : tags.extraParentId < 2 ^ 28 → found.extraIsShrink = tags.extraIsShrink
  shadows : tags.extraParentId < 2 ^ 28 → found.extraShadows = tags.extraShadows
  equivId : tags.extraObjType = .hardlink → found.extraEquivId = tags.extraEquivId % 2 ^ 32
  fileSize : tags.extraObjType = .file → found.extraFileSize = tags.extraFileSize

theorem packTags2TagsOnly_seqNumber (swap : Bool) (tags : ExtTags) :
    (packTags2TagsOnly swap tags).seqNumber =
      doEndianU32 swap (BitVec.ofNat 32 tags.seqNumber) := by
  have plain : (packTags2TagsOnly false tags).seqNumber = BitVec.ofNat 32 tags.seqNumber := by
    simp only [packTags2TagsOnly]
    by_cases packable : checkTagsExtraPackable tags = true
    · rw [if_pos packable]
      rfl
    · rw [if_neg packable]
      rfl
  rw [packTags2TagsOnly_eq, ← plain]
  cases swap <;> rfl

theorem unpack_pack (swap : Bool) (tags : ExtTags) (header : tags.chunkId = 0) :
    let found := unpackTags2TagsOnly swap (packTags2TagsOnly swap tags)
    found.chunkId = 0 ∧ (found.extraAvailable = true →
      BitVec.ofNat 32 tags.seqNumber ≠ 0xffffffff ∧ Unpacked tags found) := by
  have seq := packTags2TagsOnly_seqNumber swap tags
  have convert : doEndianPackedTags2 swap (packTags2TagsOnly swap tags) =
      packTags2TagsOnly false tags := doEndianPackedTags2_twice swap _
  dsimp only
  unfold unpackTags2TagsOnly
  simp only [seq, doEndianU32_ones, convert]
  split
  case isTrue => exact ⟨rfl, fun available => Bool.noConfusion available⟩
  case isFalse ne =>
    by_cases packable : checkTagsExtraPackable tags
    · have packed : packTags2TagsOnly false tags =
          { seqNumber := BitVec.ofNat 32 tags.seqNumber
            objId := packObj (BitVec.ofNat 32 tags.objId) tags.extraObjType
            chunkId :=
              packParent (BitVec.ofNat 32 tags.extraParentId) tags.extraIsShrink tags.extraShadows
            nBytes :=
              if tags.extraObjType = .hardlink then BitVec.ofNat 32 tags.extraEquivId
              else if tags.extraObjType = .file then BitVec.ofNat 32 tags.extraFileSize
              else 0 } := by
        simp only [packTags2TagsOnly]
        rw [if_pos packable]
        rfl
      rw [packed]
      dsimp only
      rw [if_pos (packParent_flag _ _ _)]
      refine ⟨rfl, fun _ => ⟨ne, packable, ?_, ?_, ?_, ?_, ?_, ?_⟩⟩
      · dsimp only
        rw [packParent_parent, toNat_mask, BitVec.toNat_ofNat, Nat.mod_mod_of_dvd _ (by decide)]
      · exact packObj_type _ _
      · intro lt
        exact packParent_isShrink (by rw [BitVec.toNat_ofNat]; omega) _ _
      · intro lt
        exact packParent_shadows (by rw [BitVec.toNat_ofNat]; omega) _ _
      · intro hardlink
        dsimp only
        rw [packObj_type, if_pos hardlink, if_pos hardlink, BitVec.toNat_ofNat]
      · intro file
        dsimp only
        rw [packObj_type, file, if_neg (by decide), if_neg (by decide), if_pos rfl,
          BitVec.toNat_ofNat]
        have short : tags.extraFileSize >>> 31 = 0 := by
          simp only [checkTagsExtraPackable, file, decide_true, Bool.true_and, Bool.and_eq_true,
            Bool.not_eq_true', decide_eq_false_iff_not, ne_eq, not_not] at packable
          exact packable.2
        rw [Nat.shiftRight_eq_div_pow] at short
        exact Nat.mod_eq_of_lt (by omega)
    · have packed : (packTags2TagsOnly false tags).chunkId = 0 := by
        simp only [packTags2TagsOnly]
        rw [if_neg packable, header]
        rfl
      rw [packed]
      exact ⟨rfl, fun available => Bool.noConfusion available⟩

/-! ## What a page says -/

@[simp]
theorem doEndianU32_twice (swap : Bool) (value : U32) :
    doEndianU32 swap (doEndianU32 swap value) = value := by
  cases swap <;> simp [doEndianU32]

theorem doEndianU32_zero {swap : Bool} {value : U32} : doEndianU32 swap value = 0 ↔ value = 0 := by
  have zero : doEndianU32 swap 0 = 0 := by
    cases swap <;> decide
  constructor
  · intro same
    rw [← doEndianU32_twice swap value, same, zero]
  · intro same
    rw [same, zero]

theorem doEndianOh_twice (swap : Bool) (oh : ObjHdr) :
    doEndianOh swap (doEndianOh swap oh) = oh := by
  cases swap <;> simp [doEndianOh]

theorem doEndianOh_setTail (swap : Bool) (oh : ObjHdr) (words : U32 × U32 × U32 × U32) :
    doEndianOh swap (oh.setTail words) =
      (doEndianOh swap oh).setTail (doEndianU32 swap words.1, doEndianU32 swap words.2.1,
        doEndianU32 swap words.2.2.1, doEndianU32 swap words.2.2.2) := by
  cases swap <;> rfl

/-- The extra information in the tags of a header. -/
structure ExtraOf (src : HdrSource) (size : Nat) (shrinks : Bool) (shadows : U32)
    (tags : ExtTags) : Prop where
  parent : tags.extraParentId % 2 ^ 28 = src.parentObjId.toNat % 2 ^ 28
  parent_lt : src.parentObjId.toNat < 2 ^ 28 → tags.extraParentId < 2 ^ 28
  type : tags.extraObjType = src.variantType
  isShrink : src.parentObjId.toNat < 2 ^ 28 → tags.extraIsShrink = shrinks
  shadows : src.parentObjId.toNat < 2 ^ 28 → tags.extraShadows = decide (0 < shadows.toInt)
  fileSize : src.variantType = .file → tags.extraFileSize = size
  equivId : src.variantType = .hardlink → tags.extraEquivId % 2 ^ 32 = src.equivId.toNat

/-- A header and its tags, before they are written. -/
structure Image (src : HdrSource) (buffer : ObjHdr) (size : Nat) (shrinks : Bool) (shadows : U32)
    (oh : ObjHdr) (tags : ExtTags) : Prop where
  chunkId : tags.chunkId = 0
  type : oh.type = BitVec.ofNat 32 src.variantType.code
  parent : oh.parentObjId = src.parentObjId
  isShrink : oh.isShrink ≠ 0 ↔ shrinks = true
  shadowsObj : oh.shadowsObj = shadows
  inbandIsShrink : oh.inbandIsShrink = buffer.inbandIsShrink
  inbandShadowedObjId : oh.inbandShadowedObjId = shadows
  fileSize : src.variantType = .file →
    oh.fileSizeLow = BitVec.ofNat 32 size ∧ oh.fileSizeHigh = BitVec.ofNat 32 (size >>> 32)
  equivId : src.variantType = .hardlink → oh.equivId = src.equivId
  extra : tags.extraAvailable = true → ExtraOf src size shrinks shadows tags

theorem Unpacked.available {tags found : ExtTags} (unpacked : Unpacked tags found) :
    tags.extraAvailable = true := by
  have packable := unpacked.packable
  simp only [checkTagsExtraPackable, Bool.and_eq_true] at packable
  exact packable.1.2

/-- The header that the garbage collection writes has the flags cleared. -/
theorem doEndianOh_cleared (swap : Bool) (oh : ObjHdr) :
    { doEndianOh swap oh with isShrink := 0, shadowsObj := 0, inbandShadowedObjId := 0 } =
      doEndianOh swap { oh with isShrink := 0, shadowsObj := 0, inbandShadowedObjId := 0 } := by
  have zero : swapU32 0 = 0 := by decide
  cases swap
  · rfl
  · simp only [doEndianOh, if_true, zero]

theorem ohSizeLoad_doEndianOh (swap : Bool) (oh : ObjHdr) (size : Nat) :
    ohSizeLoad swap (doEndianOh swap oh) size true =
      doEndianOh swap (ohSizeLoad swap oh size false) := by
  cases swap <;> rfl

namespace PageFormat

variable (fmt : PageFormat)

/-- A page that has been written with a given header and tags. -/
def Shows (src : HdrSource) (buffer : ObjHdr) (isShrink : Bool) (seqNumber : Nat)
    (page : HeaderPage) : Prop :=
  ∃ size shadows oh tags, Image src buffer size isShrink shadows oh tags ∧
    page = fmt.writeNewChunk (doEndianOh fmt.swapEndian oh) tags seqNumber

/-- The fields of a header that has been filled in. -/
structure Filled (src : HdrSource) (buffer oh : ObjHdr) : Prop where
  type : oh.type = BitVec.ofNat 32 src.variantType.code
  parent : oh.parentObjId = src.parentObjId
  isShrink : decide (oh.isShrink ≠ 0) = src.isShrink
  shadowsObj : oh.shadowsObj = src.shadows
  inbandIsShrink : oh.inbandIsShrink = buffer.inbandIsShrink
  inbandShadowedObjId : oh.inbandShadowedObjId = src.shadows
  fileSize : src.variantType = .file → oh.fileSizeLow = BitVec.ofNat 32 (headerSize src) ∧
    oh.fileSizeHigh = BitVec.ofNat 32 (headerSize src >>> 32)
  equivId : src.variantType = .hardlink → oh.equivId = src.equivId

theorem filledOh_filled (src : HdrSource) (buffer : ObjHdr) :
    Filled src buffer (fmt.filledOh src buffer) := by
  have flag : decide ((if src.isShrink then (1 : U32) else 0) ≠ 0) = src.isShrink := by
    cases src.isShrink <;> decide
  unfold filledOh
  constructor
  case isShrink => cases src.variantType <;> exact flag
  case fileSize =>
    intro file
    rw [file]
    exact ⟨rfl, rfl⟩
  case equivId =>
    intro hardlink
    rw [hardlink]
  all_goals cases src.variantType <;> rfl

theorem updateOh_shows (src : HdrSource) (buffer : ObjHdr) (seqNumber : Nat) :
    fmt.Shows src buffer src.isShrink seqNumber (fmt.updateOh src buffer seqNumber) := by
  have filled := fmt.filledOh_filled src buffer
  unfold updateOh
  dsimp only
  generalize fmt.filledOh src buffer = oh at filled ⊢
  refine ⟨headerSize src, src.shadows, oh, _, ?_, rfl⟩
  refine ⟨rfl, filled.type, filled.parent, ?_, filled.shadowsObj, filled.inbandIsShrink,
    filled.inbandShadowedObjId, filled.fileSize, filled.equivId, fun _ => ?_⟩
  · rw [← filled.isShrink, decide_eq_true_iff]
  · constructor
    case parent => exact congrArg (fun id : U32 => id.toNat % 2 ^ 28) filled.parent
    case parent_lt => exact fun lt => by rwa [filled.parent]
    case type => rfl
    case isShrink => exact fun _ => filled.isShrink
    case shadows => exact fun _ => by rw [filled.shadowsObj]
    case fileSize => exact fun file => if_pos file
    case equivId =>
      intro hardlink
      rw [filled.equivId hardlink]
      exact Nat.mod_eq_of_lt src.equivId.isLt

variable {fmt}

/-- The header that is found in a page: all of it, or all but its last words. -/
theorem found_oh (fmt : PageFormat) (oh : ObjHdr) (tags : ExtTags) (seqNumber : Nat) :
    ∃ words, doEndianOh fmt.swapEndian
        (fmt.writeNewChunk (doEndianOh fmt.swapEndian oh) tags seqNumber).oh = oh.setTail words ∧
      (fmt.inbandTags = false →
        words = (oh.fileSizeHigh, oh.reserved, oh.shadowsObj, oh.isShrink)) ∧
      (oh.fileSizeHigh = 0 → BitVec.ofNat 32 seqNumber ≠ 0xffffffff →
        words.1 ≠ 0xffffffff ∧ (words.1 = 0 ↔ ∀ byte ∈ fmt.coverBytes seqNumber, byte = 0)) := by
  have seq : (packTags2TagsOnly fmt.swapEndian { tags with seqNumber }).seqNumber =
      doEndianU32 fmt.swapEndian (BitVec.ofNat 32 seqNumber) := packTags2TagsOnly_seqNumber _ _
  unfold writeNewChunk
  dsimp only
  generalize packTags2TagsOnly fmt.swapEndian { tags with seqNumber } = ptt at seq ⊢
  cases inband : fmt.inbandTags with
  | false =>
    refine ⟨(oh.fileSizeHigh, oh.reserved, oh.shadowsObj, oh.isShrink), ?_, fun _ => rfl, ?_⟩
    · rw [stuff, if_neg (by rw [inband]; decide), doEndianOh_twice]
      rfl
    · intro zero _
      refine ⟨fun ones => absurd (zero.symm.trans ones) (by decide), fun _ byte mem => ?_,
        fun _ => zero⟩
      rw [coverBytes, if_neg (by rw [inband]; decide)] at mem
      exact absurd mem List.not_mem_nil
  | true =>
    rw [stuff_of_inband inband, doEndianOh_setTail, doEndianOh_twice]
    refine ⟨_, rfl, fun none => Bool.noConfusion none, fun zero ne => ?_⟩
    have high : (doEndianOh fmt.swapEndian oh).fileSizeHigh = 0 := by
      have convert : (doEndianOh fmt.swapEndian oh).fileSizeHigh =
          doEndianU32 fmt.swapEndian oh.fileSizeHigh := by
        cases fmt.swapEndian <;> rfl
      rw [convert, zero]
      exact doEndianU32_zero.mpr rfl
    dsimp only
    rw [high, doEndianU32_zero, ne_eq, doEndianU32_ones, covered_zero_iff, coverBytes,
      if_pos inband, seq]
    refine ⟨covered_ne_ones ?_, Iff.rfl⟩
    rw [seq, ne_eq, doEndianU32_ones]
    exact ne

theorem gcProcessChunk_shows {src : HdrSource} {buffer : ObjHdr} {isShrink : Bool}
    {seqNumber : Nat} {page : HeaderPage} (shows : fmt.Shows src buffer isShrink seqNumber page)
    (storedSize newSeqNumber : Nat) :
    fmt.Shows src buffer false newSeqNumber
      (fmt.gcProcessChunk src.variantType storedSize page newSeqNumber) := by
  obtain ⟨size, shadows, oh, tags, image, rfl⟩ := shows
  obtain ⟨words, found, -⟩ := found_oh fmt oh tags seqNumber
  obtain ⟨chunkId, unpacked⟩ := unpack_pack fmt.swapEndian { tags with seqNumber } image.chunkId
  have raw : (fmt.writeNewChunk (doEndianOh fmt.swapEndian oh) tags seqNumber).oh =
      doEndianOh fmt.swapEndian (oh.setTail words) := by
    rw [← found, doEndianOh_twice]
  change (fmt.tagsOf (fmt.writeNewChunk (doEndianOh fmt.swapEndian oh) tags seqNumber)).chunkId = 0
    at chunkId
  change (fmt.tagsOf (fmt.writeNewChunk (doEndianOh fmt.swapEndian oh) tags
    seqNumber)).extraAvailable = true → _ ∧ Unpacked _
      (fmt.tagsOf (fmt.writeNewChunk (doEndianOh fmt.swapEndian oh) tags seqNumber)) at unpacked
  unfold gcProcessChunk
  dsimp only
  rw [raw, doEndianOh_cleared, ohSizeLoad_doEndianOh]
  generalize fmt.tagsOf (fmt.writeNewChunk (doEndianOh fmt.swapEndian oh) tags seqNumber) = t
    at chunkId unpacked ⊢
  have extra (fileSize : Nat) (same : src.variantType = .file → fileSize = storedSize)
      (available : t.extraAvailable = true) : ExtraOf src storedSize false 0
        { t with
          serialNumber := t.serialNumber + 1
          extraIsShrink := false
          extraShadows := false
          extraFileSize := fileSize } := by
    obtain ⟨-, unpacked⟩ := unpacked available
    have extra := image.extra unpacked.available
    constructor
    case parent =>
      refine Eq.trans ?_ extra.parent
      exact (congrArg (· % 2 ^ 28) unpacked.parent).trans (Nat.mod_mod _ _)
    case parent_lt =>
      intro _
      exact Nat.lt_of_le_of_lt (Nat.le_of_eq unpacked.parent) (Nat.mod_lt _ (by decide))
    case type => exact unpacked.type.trans extra.type
    case isShrink => exact fun _ => rfl
    case shadows => exact fun _ => rfl
    case fileSize => exact same
    case equivId =>
      intro hardlink
      refine Eq.trans ?_ (extra.equivId hardlink)
      have equiv := unpacked.equivId (extra.type.trans hardlink)
      exact (congrArg (· % 2 ^ 32) equiv).trans (Nat.mod_mod _ _)
  by_cases file : src.variantType = .file
  · rw [if_pos file]
    refine ⟨storedSize, 0, _, _, ?_, rfl⟩
    refine ⟨chunkId, image.type, image.parent, ?_, rfl, image.inbandIsShrink, rfl,
      fun _ => ⟨rfl, rfl⟩, image.equivId, ?_⟩
    · exact ⟨fun ne => absurd rfl ne, fun set => Bool.noConfusion set⟩
    · exact extra storedSize (fun _ => rfl)
  · rw [if_neg file]
    refine ⟨storedSize, 0, _, _, ?_, rfl⟩
    refine ⟨chunkId, image.type, image.parent, ?_, rfl, image.inbandIsShrink, rfl,
      fun is => absurd is file, image.equivId, ?_⟩
    · exact ⟨fun ne => absurd rfl ne, fun set => Bool.noConfusion set⟩
    · exact extra t.extraFileSize (fun is => absurd is file)

theorem headerPage_shows (src : HdrSource) (buffer : ObjHdr) (seqNumber : Nat)
    (rewrites : List Rewrite) :
    fmt.Shows src buffer (src.isShrink && rewrites.isEmpty) (lastSeqNumber seqNumber rewrites)
      (fmt.headerPage src buffer seqNumber rewrites) := by
  have run (page : HeaderPage) (isShrink : Bool)
      (shows : fmt.Shows src buffer isShrink seqNumber page) :
      fmt.Shows src buffer (isShrink && rewrites.isEmpty) (lastSeqNumber seqNumber rewrites)
        (rewrites.foldl (fun page rewrite =>
          fmt.gcProcessChunk src.variantType rewrite.storedSize page rewrite.seqNumber) page) := by
    induction rewrites generalizing page isShrink seqNumber with
    | nil =>
      rw [List.isEmpty_nil, Bool.and_true]
      exact shows
    | cons rewrite rewrites ih =>
      rw [List.isEmpty_cons, Bool.and_false]
      exact ih _ _ _ (gcProcessChunk_shows shows rewrite.storedSize rewrite.seqNumber)
  exact run _ _ (fmt.updateOh_shows src buffer seqNumber)

theorem ohToSize_of_short {oh : ObjHdr} {size : Nat} (short : size < 2 ^ 31)
    (low : oh.fileSizeLow = BitVec.ofNat 32 size) (ne : oh.fileSizeHigh ≠ 0xffffffff) :
    ohToSize oh = size ↔ oh.fileSizeHigh = 0 := by
  have low_lt := oh.fileSizeLow.isLt
  have value : oh.fileSizeLow.toNat = size := by
    rw [low, BitVec.toNat_ofNat, Nat.mod_eq_of_lt (by omega)]
  have used : ~~~oh.fileSizeHigh ≠ 0 := by
    intro zero
    apply ne
    rw [← BitVec.not_not (b := oh.fileSizeHigh), zero]
    rfl
  rw [ohToSize, if_pos used, ← Nat.shiftLeft_add_eq_or_of_lt low_lt, value, Nat.shiftLeft_eq]
  constructor
  · intro same
    apply BitVec.eq_of_toNat_eq
    change oh.fileSizeHigh.toNat = 0
    omega
  · intro zero
    rw [zero]
    change 0 * 2 ^ 32 + size = size
    omega

/-- The header that a scan uses. -/
structure Scanned (fmt : PageFormat) (src : HdrSource) (buffer : ObjHdr) (isShrink : Bool)
    (shadows : U32) (size seqNumber : Nat) (oh : ObjHdr) : Prop where
  type : oh.type = BitVec.ofNat 32 src.variantType.code
  parent : oh.parentObjId = src.parentObjId
  isShrink : oh.isShrink ≠ 0 ↔
    if fmt.inbandTags then buffer.inbandIsShrink ≠ 0 else isShrink = true
  shadowsObj : oh.shadowsObj = shadows
  fileSize : src.variantType = .file → size < 2 ^ 31 →
    (ohToSize oh = size ↔ ∀ byte ∈ fmt.coverBytes seqNumber, byte = 0)
  equivId : src.variantType = .hardlink → oh.equivId = src.equivId

theorem scannedOh_scanned (fmt : PageFormat) {src : HdrSource} {buffer oh : ObjHdr}
    {isShrink : Bool} {shadows : U32} {size seqNumber : Nat} {tags : ExtTags}
    (image : Image src buffer size isShrink shadows oh tags)
    (ne : BitVec.ofNat 32 seqNumber ≠ 0xffffffff) :
    Scanned fmt src buffer isShrink shadows size seqNumber
      (fmt.scannedOh (fmt.writeNewChunk (doEndianOh fmt.swapEndian oh) tags seqNumber)) := by
  obtain ⟨words, found, own, high⟩ := found_oh fmt oh tags seqNumber
  have fileSize (file : src.variantType = .file) (short : size < 2 ^ 31) {last : ObjHdr}
      (low : last.fileSizeLow = oh.fileSizeLow) (upper : last.fileSizeHigh = words.1) :
      ohToSize last = size ↔ ∀ byte ∈ fmt.coverBytes seqNumber, byte = 0 := by
    obtain ⟨ohLow, ohHigh⟩ := image.fileSize file
    have none : oh.fileSizeHigh = 0 := by
      rw [ohHigh, Nat.shiftRight_eq_div_pow, Nat.div_eq_of_lt (by omega)]
      rfl
    obtain ⟨notOnes, zero⟩ := high none ne
    rw [← zero, ← upper]
    exact ohToSize_of_short short (low.trans ohLow) (by rwa [upper])
  unfold scannedOh
  rw [found]
  cases inband : fmt.inbandTags with
  | false =>
    obtain rfl := own inband
    refine ⟨image.type, image.parent, ?_, image.shadowsObj, fun file short => ?_, image.equivId⟩
    · rw [inband]
      exact image.isShrink
    · exact fileSize file short rfl rfl
  | true =>
    refine ⟨image.type, image.parent, ?_, image.inbandShadowedObjId, fun file short => ?_,
      image.equivId⟩
    · rw [inband]
      exact not_congr (Eq.congr_left image.inbandIsShrink)
    · exact fileSize file short rfl rfl

/-- What the scan takes from the two sources, for one page. -/
theorem scannedAlike_iff {src : HdrSource} {buffer : ObjHdr} {isShrink : Bool} {seqNumber : Nat}
    {page : HeaderPage} (shows : fmt.Shows src buffer isShrink seqNumber page)
    (available : (fmt.tagsOf page).extraAvailable = true) :
    ScannedAlike (fmt.tagsOf page) (fmt.scannedOh page) ↔
      src.parentObjId.toNat < 2 ^ 28 ∧
        (fmt.inbandTags = true → (buffer.inbandIsShrink ≠ 0 ↔ isShrink = true)) ∧
        (src.variantType = .file → ∀ byte ∈ fmt.coverBytes seqNumber, byte = 0) := by
  obtain ⟨size, shadows, oh, tags, image, rfl⟩ := shows
  obtain ⟨-, unpacked⟩ := unpack_pack fmt.swapEndian { tags with seqNumber } image.chunkId
  obtain ⟨ne, unpacked⟩ := unpacked available
  have scanned := scannedOh_scanned fmt image ne
  have extra := image.extra unpacked.available
  change Unpacked _ (fmt.tagsOf (fmt.writeNewChunk (doEndianOh fmt.swapEndian oh) tags seqNumber))
    at unpacked
  generalize fmt.tagsOf (fmt.writeNewChunk (doEndianOh fmt.swapEndian oh) tags seqNumber) = t
    at available unpacked ⊢
  generalize fmt.scannedOh (fmt.writeNewChunk (doEndianOh fmt.swapEndian oh) tags seqNumber) =
    last at scanned ⊢
  have type : t.extraObjType = src.variantType := unpacked.type.trans extra.type
  have parent : t.extraParentId = src.parentObjId.toNat % 2 ^ 28 :=
    unpacked.parent.trans extra.parent
  have short (file : src.variantType = .file) : size < 2 ^ 31 := by
    have packable := unpacked.packable
    simp only [checkTagsExtraPackable, extra.type, file, decide_true, Bool.true_and,
      Bool.and_eq_true, Bool.not_eq_true', decide_eq_false_iff_not, ne_eq, not_not,
      extra.fileSize file, Nat.shiftRight_eq_div_pow] at packable
    have zero := packable.2
    omega
  have fileSize (file : src.variantType = .file) : t.extraFileSize = size :=
    (unpacked.fileSize (extra.type.trans file)).trans (extra.fileSize file)
  constructor
  · rintro ⟨-, sameParent, sameSize, sameShrink, -, -⟩
    rw [scanned.parent, parent] at sameParent
    have lt : src.parentObjId.toNat < 2 ^ 28 := by omega
    refine ⟨lt, fun inband => ?_, fun file => ?_⟩
    · rw [scanned.isShrink, if_pos inband, unpacked.isShrink (extra.parent_lt lt),
        extra.isShrink lt] at sameShrink
      exact sameShrink
    · refine (scanned.fileSize file (short file)).mp ?_
      exact (sameSize (type.trans file)).trans (fileSize file)
  · rintro ⟨lt, shrink, cover⟩
    refine ⟨?_, ?_, fun file => ?_, ?_, ?_, fun hardlink => ?_⟩
    · rw [scanned.type, type]
    · rw [scanned.parent, parent, Nat.mod_eq_of_lt lt]
    · have file := type.symm.trans file
      exact ((scanned.fileSize file (short file)).mpr (cover file)).trans (fileSize file).symm
    · rw [scanned.isShrink, unpacked.isShrink (extra.parent_lt lt), extra.isShrink lt]
      split
      case isTrue inband => exact shrink inband
      case isFalse => exact Iff.rfl
    · rw [scanned.shadowsObj, unpacked.shadows (extra.parent_lt lt), extra.shadows lt,
        decide_eq_true_iff]
    · have hardlink := type.symm.trans hardlink
      rw [scanned.equivId hardlink, unpacked.equivId (extra.type.trans hardlink),
        extra.equivId hardlink]

/-! ## All header pages -/

/-- Without inband tags the tags agree with the header.  With inband tags the header has to be that
of a file that has been cut, and not been copied since, and the sequence number must not cover the
size of the file. -/
theorem headerPage_scannedAlike_iff (fmt : PageFormat) (src : HdrSource) (buffer : ObjHdr)
    (seqNumber : Nat) (rewrites : List Rewrite)
    (available : (fmt.tagsOf
      (fmt.headerPage src buffer seqNumber rewrites)).extraAvailable = true) :
    let page := fmt.headerPage src buffer seqNumber rewrites
    ScannedAlike (fmt.tagsOf page) (fmt.scannedOh page) ↔
      src.parentObjId.toNat < 2 ^ 28 ∧
        (fmt.inbandTags = true →
          (buffer.inbandIsShrink ≠ 0 ↔ src.isShrink = true ∧ rewrites = [])) ∧
        (src.variantType = .file →
          ∀ byte ∈ fmt.coverBytes (lastSeqNumber seqNumber rewrites), byte = 0) := by
  have same := scannedAlike_iff (headerPage_shows src buffer seqNumber rewrites) available
  rwa [Bool.and_eq_true, List.isEmpty_iff] at same

/-- Pages of two thousand bytes. -/
def plainPages : PageFormat where
  bigEndian := false
  storedEndian := 1
  inbandTags := false
  dataBytesPerChunk := 2048
  room := by decide

/-- The same pages with the tags at their end. -/
def inbandPages : PageFormat where
  bigEndian := false
  storedEndian := 1
  inbandTags := true
  dataBytesPerChunk := 2032
  room := by decide

/-- A file in the root directory. -/
def plainFile : HdrSource where
  objId := 257
  serial := 0
  variantType := .file
  parentObjId := 1
  ystMode := 0o666
  ystUid := 0
  ystGid := 0
  ystAtime := 0
  ystMtime := 0
  ystCtime := 0
  ystRdev := 0
  name := ⟨0x66 :: List.replicate 255 0, by rw [List.length_cons, List.length_replicate]⟩
  storedSize := 5
  equivId := 0
  aliasName := ⟨List.replicate 160 0, List.length_replicate⟩
  isShrink := false
  shadows := 0

theorem scannedAlike_plainFile :
    let page := plainPages.headerPage plainFile ObjHdr.blank 0x1000 [⟨7, 0x1001⟩]
    (plainPages.tagsOf page).extraAvailable = true ∧
      ScannedAlike (plainPages.tagsOf page) (plainPages.scannedOh page) := by
  have available : (plainPages.tagsOf (plainPages.headerPage plainFile ObjHdr.blank 0x1000
      [⟨7, 0x1001⟩])).extraAvailable = true := by
    decide +kernel
  refine ⟨available, ?_⟩
  apply (headerPage_scannedAlike_iff plainPages plainFile ObjHdr.blank 0x1000 [⟨7, 0x1001⟩]
    available).mpr
  exact ⟨by decide, fun inband => Bool.noConfusion inband,
    fun _ byte mem => absurd mem List.not_mem_nil⟩

/-- With inband tags the header of any file says that the file has been cut. -/
theorem not_scannedAlike_plainFile :
    let page := inbandPages.headerPage plainFile ObjHdr.blank 0x1000 []
    (inbandPages.tagsOf page).extraAvailable = true ∧
      ¬ScannedAlike (inbandPages.tagsOf page) (inbandPages.scannedOh page) := by
  decide +kernel

end PageFormat
end Yaffs.Stored
