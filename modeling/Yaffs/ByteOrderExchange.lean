import Yaffs.ByteOrder
import Mathlib.Tactic.IntervalCases

/-!
# Exchange of records between hosts

A record can be read by hosts of both kinds if its conversion reverses each of its words.  Not all
words are converted: the parities of the tags, the header of a summary and the sequence number in a
checkpoint are stored as the host has them.
-/

namespace Yaffs.Stored

/-! ## Words -/

theorem swapU32_eq_append (val : U32) :
    swapU32 val = val.extractLsb' 0 8 ++ val.extractLsb' 8 8 ++ val.extractLsb' 16 8 ++
      val.extractLsb' 24 8 := by
  refine BitVec.eq_of_getLsbD_eq fun i lt => ?_
  unfold swapU32
  rw [BitVec.getLsbD_append, BitVec.getLsbD_append, BitVec.getLsbD_append]
  simp only [BitVec.getLsbD_extractLsb', BitVec.getLsbD_or, BitVec.getLsbD_and,
    BitVec.getLsbD_ushiftRight, BitVec.getLsbD_shiftLeft]
  interval_cases i <;> simp

theorem toNat_swapU32 (val : U32) :
    (swapU32 val).toNat = val.toNat / 16777216 + 256 * (val.toNat / 65536 % 256) +
      65536 * (val.toNat / 256 % 256) + 16777216 * (val.toNat % 256) := by
  have lt := val.isLt
  rw [swapU32_eq_append]
  simp only [BitVec.toNat_append, BitVec.extractLsb'_toNat]
  rw [← Nat.shiftLeft_add_eq_or_of_lt, ← Nat.shiftLeft_add_eq_or_of_lt,
    ← Nat.shiftLeft_add_eq_or_of_lt]
  · simp only [Nat.shiftLeft_eq, Nat.shiftRight_eq_div_pow, Nat.reducePow, Nat.div_one]
    omega
  all_goals
    simp only [Nat.shiftRight_eq_div_pow]
    omega

theorem toNat_swapU32_eq_lowValue (val : U32) :
    (swapU32 val).toNat = Words.lowValue (Words.lowBytes 4 val.toNat).reverse := by
  have lt := val.isLt
  rw [toNat_swapU32]
  simp only [Words.lowBytes, Words.lowValue, List.reverse_cons, List.reverse_nil, List.nil_append,
    List.cons_append, UInt8.toNat_ofNat', Nat.div_div_eq_div_mul, Nat.reduceMul, Nat.reducePow]
  omega

theorem toNat_swapped (count : Nat) (val : BitVec (8 * count)) :
    ((RecordLayout.word count).swapped val).toNat =
      Words.lowValue (Words.lowBytes count val.toNat).reverse := by
  have lt := Words.lowValue_lt (Words.lowBytes count val.toNat).reverse
  rw [List.length_reverse, Words.length_lowBytes, show 256 = 2 ^ 8 by rfl, ← Nat.pow_mul] at lt
  exact (BitVec.toNat_ofNat _ _).trans (Nat.mod_eq_of_lt lt)

theorem swapU32_eq_swapped (val : U32) : swapU32 val = (RecordLayout.word 4).swapped val := by
  apply BitVec.eq_of_toNat_eq
  rw [toNat_swapU32_eq_lowValue]
  exact (toNat_swapped 4 val).symm

@[simp]
theorem swapU32_swapU32 (val : U32) : swapU32 (swapU32 val) = val := by
  rw [swapU32_eq_swapped, swapU32_eq_swapped, RecordLayout.swapped_swapped]

theorem toNat_halves (vall valh : U32) :
    (((vall.setWidth 64 <<< 32) ||| valh.setWidth 64 : BitVec 64)).toNat =
      valh.toNat + 2 ^ 32 * vall.toNat := by
  have vall_lt := vall.isLt
  have valh_lt := valh.isLt
  simp only [BitVec.toNat_or, BitVec.toNat_shiftLeft, BitVec.toNat_setWidth]
  rw [Nat.mod_eq_of_lt (show vall.toNat < 2 ^ 64 by omega),
    Nat.mod_eq_of_lt (show valh.toNat < 2 ^ 64 by omega), Nat.shiftLeft_eq,
    Nat.mod_eq_of_lt (by omega), ← Nat.shiftLeft_eq, ← Nat.shiftLeft_add_eq_or_of_lt valh_lt,
    Nat.shiftLeft_eq]
  omega

/-- The halves are exchanged, and each of them is reversed. -/
theorem swapped_eight (lval : BitVec 64) :
    ((swapU32 (lval.setWidth 32)).setWidth 64 <<< 32) |||
        (swapU32 ((lval >>> 32).setWidth 32)).setWidth 64 = (RecordLayout.word 8).swapped lval := by
  apply BitVec.eq_of_toNat_eq
  have low : (swapU32 (lval.setWidth 32)).toNat =
      Words.lowValue (Words.lowBytes 4 lval.toNat).reverse := by
    rw [toNat_swapU32_eq_lowValue, BitVec.toNat_setWidth]
    exact congrArg (fun bytes => Words.lowValue bytes.reverse) (Words.lowBytes_mod 4 lval.toNat)
  have high : (swapU32 ((lval >>> 32).setWidth 32)).toNat =
      Words.lowValue (Words.lowBytes 4 (lval.toNat / 256 ^ 4)).reverse := by
    rw [toNat_swapU32_eq_lowValue, BitVec.toNat_setWidth, BitVec.toNat_ushiftRight,
      Nat.shiftRight_eq_div_pow]
    exact congrArg (fun bytes => Words.lowValue bytes.reverse) (Words.lowBytes_mod 4 _)
  rw [toNat_halves, low, high]
  refine Eq.trans ?_ (toNat_swapped 8 lval).symm
  rw [Words.lowBytes_add 4 4, List.reverse_append, Words.lowValue_append, List.length_reverse,
    Words.length_lowBytes]
  rfl

theorem swapLoffT_eq_swapped (size : LoffSize) (lval : BitVec (8 * size.bytes)) :
    swapLoffT size lval = (RecordLayout.word size.bytes).swapped lval := by
  cases size with
  | four => exact swapU32_eq_swapped lval
  | eight => exact swapped_eight lval

/-! ## Records with a conversion -/

theorem endianConfig_eq {storedEndian : Nat} (stored : storedEndian = 1 ∨ storedEndian = 2)
    (bigEndian : Bool) :
    endianConfig bigEndian storedEndian = (bigEndian != (storedEndian == 2)) := by
  rcases stored with rfl | rfl <;> cases bigEndian <;> rfl

section Records

variable {α : Type} {A : RecordLayout α} {doEndian : Bool → α → α} {storedEndian : Nat} {record : α}

/-- A record is read alike if its conversion reverses each of its words, and only then. -/
theorem readAlike_iff (stored : storedEndian = 1 ∨ storedEndian = 2)
    (none : ∀ record, doEndian false record = record)
    (twice : ∀ record, doEndian true (doEndian true record) = record) :
    ReadAlike (storeRecord A doEndian storedEndian record) (loadRecord A doEndian storedEndian) ↔
      doEndian true record = A.swapped record := by
  have write (host : Bool) : storeRecord A doEndian storedEndian record host =
      A.write doEndian host (storedEndian == 2) record ++ [] := by
    rw [List.append_nil, storeRecord, RecordLayout.write, endianConfig_eq stored]
  have read (host : Bool) (memory : List UInt8) : loadRecord A doEndian storedEndian host memory =
      A.read doEndian host (storedEndian == 2) memory := by
    rw [loadRecord, RecordLayout.read, endianConfig_eq stored]
  simp only [ReadAlike, write, read, RecordLayout.read_write_same none twice,
    RecordLayout.read_write_other_iff none twice]
  exact ⟨fun all => all true, fun reverses _ => reverses⟩

theorem doEndianOh_reverses_iff (oh : ObjHdr) :
    doEndianOh true oh = ObjHdr.layout.swapped oh ↔
      (RecordLayout.word 2).swapped oh.sumNoLongerUsed = oh.sumNoLongerUsed := by
  have swapped : ObjHdr.layout.swapped oh = { doEndianOh true oh with
      sumNoLongerUsed := (RecordLayout.word 2).swapped oh.sumNoLongerUsed } := by
    simp only [doEndianOh, if_true, swapU32_eq_swapped]
    rfl
  rw [swapped]
  constructor
  · exact fun same => (congrArg ObjHdr.sumNoLongerUsed same).symm
  · intro same
    rw [same]
    rfl

theorem doEndianValidityMarker_reverses (v : CheckptValidity) :
    doEndianValidityMarker true v = CheckptValidity.layout.swapped v := by
  simp only [doEndianValidityMarker, if_true, swapU32_eq_swapped]
  rfl

theorem doEndianCheckptDev_reverses_iff (cp : CheckptDev) :
    doEndianCheckptDev true cp = CheckptDev.layout.swapped cp ↔
      swapU32 cp.seqNumber = cp.seqNumber := by
  have swapped : CheckptDev.layout.swapped cp =
      { doEndianCheckptDev true cp with seqNumber := swapU32 cp.seqNumber } := by
    simp only [doEndianCheckptDev, if_true, swapU32_eq_swapped]
    rfl
  rw [swapped]
  constructor
  · exact fun same => (congrArg CheckptDev.seqNumber same).symm
  · intro same
    rw [same]
    rfl

theorem doEndianCheckptObj_reverses {size : LoffSize} (cp : CheckptObj size) :
    doEndianCheckptObj true cp = (CheckptObj.layout size).swapped cp := by
  simp only [doEndianCheckptObj, if_true, swapU32_eq_swapped, swapLoffT_eq_swapped]
  rfl

end Records

/-! ## Tags -/

theorem doEndianPackedTags2_reverses (ptt : PackedTags2TagsOnly) :
    doEndianPackedTags2 true ptt = PackedTags2TagsOnly.layout.swapped ptt := by
  simp only [doEndianPackedTags2, if_true, swapU32_eq_swapped]
  rfl

theorem packTags2TagsOnly_eq (swapEndian : Bool) (t : ExtTags) :
    packTags2TagsOnly swapEndian t = doEndianPackedTags2 swapEndian (packTags2TagsOnly false t) :=
  rfl

/-- The bytes are the same on all hosts. -/
theorem store_packTags2TagsOnly {storedEndian : Nat} (stored : storedEndian = 1 ∨ storedEndian = 2)
    (host : Bool) (t : ExtTags) :
    PackedTags2TagsOnly.layout.store host (packTags2TagsOnly (endianConfig host storedEndian) t) =
      PackedTags2TagsOnly.layout.store (storedEndian == 2) (packTags2TagsOnly false t) := by
  rw [packTags2TagsOnly_eq, endianConfig_eq stored]
  generalize (storedEndian == 2) = order
  by_cases same : host = order
  · rw [same, bne_self_eq_false]
    rfl
  · have other : host = !order := Bool.eq_not.mpr same
    have swaps : (host != order) = true := bne_iff_ne.mpr same
    rw [swaps, doEndianPackedTags2_reverses, RecordLayout.store_swapped, other, Bool.not_not]

theorem swapU32_ones : swapU32 0xffffffff = 0xffffffff := by decide

/-- The tags are the same on all hosts. -/
theorem unpackTags2TagsOnly_load {storedEndian : Nat}
    (stored : storedEndian = 1 ∨ storedEndian = 2) (host : Bool) (ptt : PackedTags2TagsOnly) :
    let found := PackedTags2TagsOnly.layout.load host
      (PackedTags2TagsOnly.layout.store (storedEndian == 2) ptt)
    unpackTags2TagsOnly (endianConfig host storedEndian) found = unpackTags2TagsOnly false ptt ∧
      (found.seqNumber = 0xffffffff ↔ ptt.seqNumber = 0xffffffff) := by
  rw [endianConfig_eq stored]
  generalize (storedEndian == 2) = order
  dsimp only
  by_cases same : host = order
  · have load := PackedTags2TagsOnly.layout.load_store order ptt []
    rw [List.append_nil] at load
    rw [same, bne_self_eq_false, load]
    exact ⟨rfl, Iff.rfl⟩
  · have other : host = !order := Bool.eq_not.mpr same
    have swaps : (host != order) = true := bne_iff_ne.mpr same
    have load := PackedTags2TagsOnly.layout.load_store_other order ptt []
    rw [List.append_nil, ← doEndianPackedTags2_reverses] at load
    have seq : (doEndianPackedTags2 true ptt).seqNumber = 0xffffffff ↔
        ptt.seqNumber = 0xffffffff := by
      change swapU32 ptt.seqNumber = 0xffffffff ↔ _
      constructor
      · intro ones
        rw [← swapU32_swapU32 ptt.seqNumber, ones, swapU32_ones]
      · intro ones
        rw [ones, swapU32_ones]
    have twice : doEndianPackedTags2 true (doEndianPackedTags2 true ptt) = ptt := by
      simp [doEndianPackedTags2]
    rw [swaps, other, load]
    refine ⟨?_, seq⟩
    simp only [unpackTags2TagsOnly, seq, twice]
    rfl

/-! ## Error correction -/

theorem byte_swapped (val : BitVec 8) : (RecordLayout.word 1).swapped val = val := by
  refine (RecordLayout.word 1).store_injective false ?_
  rw [RecordLayout.store_swapped]
  rfl

/-- The parities of a line: both come from the positions of the odd bytes. -/
def LineParities (ecc : EccOther) : Prop :=
  ecc.lineParity.toNat < 16 ∧
    (ecc.lineParityPrime = ecc.lineParity ∨ ecc.lineParityPrime = ~~~ecc.lineParity)

theorem eccCalcOtherLoop_keeps {data : List UInt8} {i : Nat} {ecc : EccOther}
    (short : i + data.length ≤ 16) (parities : LineParities ecc) :
    LineParities (eccCalcOtherLoop i data ecc) := by
  induction data generalizing i ecc with
  | nil => exact parities
  | cons byte data ih =>
    rw [List.length_cons] at short
    refine ih (by omega) ?_
    obtain ⟨lt, prime⟩ := parities
    split
    case isFalse => exact ⟨lt, prime⟩
    case isTrue =>
      constructor
      · rw [BitVec.toNat_xor, BitVec.toNat_ofNat, Nat.mod_eq_of_lt (by omega)]
        exact Nat.xor_lt_two_pow (n := 4) lt (by omega)
      · rcases prime with same | inverse
        · right
          rw [same]
          ext j
          simp
        · left
          rw [inverse]
          ext j
          simp

theorem eccCalcOther_parities {data : List UInt8} (short : data.length ≤ 16) :
    LineParities (eccCalcOther data) := by
  have parities : LineParities (eccCalcOtherLoop 0 data ⟨0, 0, 0⟩) :=
    eccCalcOtherLoop_keeps (by omega) ⟨by decide, .inl rfl⟩
  exact parities

/-- A code is itself again. -/
theorem eccCorrectOther_same (data : List UInt8) (ecc : EccOther) :
    eccCorrectOther data ecc ecc = (.noError, data) := by
  simp [eccCorrectOther]

theorem delta_of_parity :
    ∀ parity < 16, ∀ inverse : Bool,
      let line := BitVec.ofNat 32 parity
      let linePrime := if inverse then ~~~line else line
      let delta := swapU32 line ^^^ line
      swapU32 linePrime ^^^ linePrime = delta ∧ (delta = 0 ↔ line = 0) ∧ delta ≠ ~~~delta ∧
        hweight delta + hweight delta ≠ 1 := by
  decide +kernel

/-- A code with its words in reverse is taken for another one, unless the parity is zero. -/
theorem eccCorrectOther_swapped (data : List UInt8) {ecc : EccOther} (parities : LineParities ecc) :
    eccCorrectOther data (EccOther.layout.swapped ecc) ecc =
      (if ecc.lineParity = 0 then .noError else .unfixed, data) := by
  have swapped : EccOther.layout.swapped ecc =
      ⟨ecc.colParity, swapU32 ecc.lineParity, swapU32 ecc.lineParityPrime⟩ := by
    rw [swapU32_eq_swapped, swapU32_eq_swapped]
    exact congrArg (fun col => EccOther.mk col _ _) (byte_swapped ecc.colParity)
  obtain ⟨lt, prime⟩ := parities
  obtain ⟨inverse, prime⟩ : ∃ inverse : Bool,
      ecc.lineParityPrime = if inverse then ~~~ecc.lineParity else ecc.lineParity := by
    rcases prime with same | inverse
    · exact ⟨false, same⟩
    · exact ⟨true, inverse⟩
  obtain ⟨deltaPrime, delta_zero, delta_ne, weight⟩ := delta_of_parity _ lt inverse
  rw [BitVec.ofNat_toNat, BitVec.setWidth_eq] at deltaPrime delta_zero delta_ne weight
  rw [← prime] at deltaPrime
  rw [swapped, eccCorrectOther]
  dsimp only
  rw [deltaPrime, BitVec.xor_self]
  generalize swapU32 ecc.lineParity ^^^ ecc.lineParity = delta at delta_zero delta_ne weight ⊢
  have weight_zero : hweight 0#8 = 0 := by decide
  have or_self : BitVec.setWidth 32 0#8 ||| delta ||| delta = delta := by
    ext j
    simp
  rw [or_self, weight_zero, Nat.add_zero]
  by_cases zero : ecc.lineParity = 0
  · rw [if_pos (delta_zero.mpr zero), if_pos zero]
  · rw [if_neg (fun none => zero (delta_zero.mp none)), if_neg zero,
      if_neg (fun both => delta_ne both.1), if_neg weight]

/-- What a host finds in the tags of a page: the same on all hosts but for the error correction. -/
theorem unpackTags2_packTags2 {storedEndian : Nat} (stored : storedEndian = 1 ∨ storedEndian = 2)
    (host writer : Bool) (t : ExtTags) (tagsEcc : Bool) :
    let ptt := packTags2TagsOnly false t
    let ecc := eccCalcOther (PackedTags2TagsOnly.layout.store (storedEndian == 2) ptt)
    unpackTags2 host storedEndian (packTags2 writer storedEndian t tagsEcc) tagsEcc =
      { unpackTags2TagsOnly false ptt with
        eccResult :=
          if ptt.seqNumber ≠ 0xffffffff ∧ tagsEcc ∧ host ≠ writer ∧ ecc.lineParity ≠ 0 then .unfixed
          else .noError } := by
  have data := store_packTags2TagsOnly stored writer t
  simp only [unpackTags2, packTags2, data]
  generalize packTags2TagsOnly false t = ptt
  obtain ⟨unpack, seq⟩ := unpackTags2TagsOnly_load stored host ptt
  have length := PackedTags2TagsOnly.layout.length_store (storedEndian == 2) ptt
  generalize PackedTags2TagsOnly.layout.store (storedEndian == 2) ptt = data at unpack seq length ⊢
  have parities := eccCalcOther_parities (Nat.le_of_eq length)
  rw [List.take_left' length, List.drop_left' length]
  generalize eccCalcOther data = ecc at parities ⊢
  by_cases used : ptt.seqNumber ≠ 0xffffffff ∧ tagsEcc
  · obtain ⟨used, rfl⟩ := used
    have corrected :
        eccCorrectOther data (EccOther.layout.load host (EccOther.layout.store writer ecc)) ecc =
          (if host ≠ writer ∧ ecc.lineParity ≠ 0 then .unfixed else .noError, data) := by
      by_cases same : host = writer
      · have load := EccOther.layout.load_store writer ecc []
        rw [List.append_nil] at load
        rw [same, load, eccCorrectOther_same, if_neg (fun both => both.1 rfl)]
      · have other : host = !writer := Bool.eq_not.mpr same
        have load := EccOther.layout.load_store_other writer ecc []
        rw [List.append_nil] at load
        rw [other, load, eccCorrectOther_swapped _ parities]
        by_cases zero : ecc.lineParity = 0 <;> simp [zero]
    rw [if_pos ⟨fun ones => used (seq.mp ones), rfl⟩, if_pos rfl, corrected]
    simp only [unpack, used, ne_eq, not_false_eq_true, true_and]
  · rw [if_neg (fun both => used ⟨fun ones => both.1 (seq.mpr ones), both.2⟩),
      if_neg (fun all => used ⟨all.1, all.2.1⟩)]
    simp only [unpack]

theorem portable_tags_iff {storedEndian : Nat} (stored : storedEndian = 1 ∨ storedEndian = 2)
    (t : ExtTags) (tagsEcc : Bool) :
    (FlashRecord.tags t tagsEcc).Portable storedEndian ↔
      (FlashRecord.tags t tagsEcc).Symmetric storedEndian := by
  simp only [FlashRecord.Portable, ReadAlike, unpackTags2_packTags2 stored, FlashRecord.Symmetric]
  generalize eccCalcOther (PackedTags2TagsOnly.layout.store (storedEndian == 2)
    (packTags2TagsOnly false t)) = ecc
  generalize packTags2TagsOnly false t = ptt
  constructor
  · intro all
    have result := congrArg ExtTags.eccResult (all true)
    by_contra symmetric
    push Not at symmetric
    obtain ⟨used, ne, parity⟩ := symmetric
    simp only [Bool.eq_true_of_not_eq_false used, true_and, Bool.not_true, ne_eq,
      Bool.false_eq_true, not_false_eq_true, not_true_eq_false, false_and, and_false, if_false]
      at result
    rw [if_pos ⟨ne, parity⟩] at result
    exact EccResult.noConfusion result
  · intro symmetric host
    have right : ¬(ptt.seqNumber ≠ 0xffffffff ∧ tagsEcc = true ∧ host ≠ host ∧
        ecc.lineParity ≠ 0) := fun all => all.2.2.1 rfl
    have left : ¬(ptt.seqNumber ≠ 0xffffffff ∧ tagsEcc = true ∧ (!host) ≠ host ∧
        ecc.lineParity ≠ 0) := by
      rintro ⟨ne, used, -, parity⟩
      rcases symmetric with unused | ones | zero
      · simp [unused] at used
      · exact ne ones
      · exact parity zero
    rw [if_neg left, if_neg right]

/-! ## Summaries -/

/-- All bytes of a summary are read, and the last header, as the host finds it. -/
theorem summaryReadLoop_writeLoop {host : Bool} {stored : List UInt8} {found : SummaryHeader}
    (length : stored.length = SummaryHeader.layout.size)
    (loads : ∀ rest, SummaryHeader.layout.load host (stored ++ rest) = found)
    {sumBytesPerChunk : Nat} (positive : 0 < sumBytesPerChunk) {fuel chunkId : Nat}
    {sumBuffer : List UInt8} (enough : sumBuffer.length < fuel) (read : List UInt8) :
    summaryReadLoop host sumBytesPerChunk
        ((summaryWriteLoop stored sumBytesPerChunk fuel chunkId sumBuffer).map SummaryPage.found)
        chunkId sumBuffer.length read =
      some (found, read ++ sumBuffer) := by
  induction fuel generalizing chunkId sumBuffer read with
  | zero => exact absurd enough (Nat.not_lt_zero _)
  | succ fuel ih =>
    have take : (stored ++ sumBuffer.take (min sumBuffer.length sumBytesPerChunk)).drop
        SummaryHeader.layout.size = sumBuffer.take (min sumBuffer.length sumBytesPerChunk) :=
      List.drop_left' length
    have tags : ¬(chunkId ≠ chunkId ∨ objectIdSummary ≠ objectIdSummary ∨ true = false ∨
        EccResult.fixed.code < EccResult.noError.code ∨
        min sumBuffer.length sumBytesPerChunk + stored.length ≠
          min sumBuffer.length sumBytesPerChunk + SummaryHeader.layout.size) := by
      rw [length]
      simp [EccResult.code]
    simp only [summaryWriteLoop, List.map_cons, summaryReadLoop, SummaryPage.found, take,
      if_neg tags, loads, List.take_take, Nat.min_self]
    by_cases more : 0 < sumBuffer.length - min sumBuffer.length sumBytesPerChunk
    · have shorter :
          (sumBuffer.drop (min sumBuffer.length sumBytesPerChunk)).length < fuel := by
        rw [List.length_drop]
        omega
      have rest (chunkId : Nat) := @ih chunkId _ shorter
        (read ++ sumBuffer.take (min sumBuffer.length sumBytesPerChunk))
      simp only [List.length_drop, List.append_assoc, List.take_append_drop] at rest
      rw [if_pos more, if_pos more]
      exact rest (chunkId + 1)
    · have all : sumBuffer.length ≤ min sumBuffer.length sumBytesPerChunk := by omega
      rw [if_neg more, List.take_of_length_le all]

theorem loadSummaryTags_store (host : Bool) (packed : List PackedSummaryTags) :
    loadSummaryTags host packed.length (packed.flatMap (PackedSummaryTags.layout.store host)) =
      packed := by
  induction packed with
  | nil => rfl
  | cons tags packed ih =>
    rw [List.flatMap_cons, List.length_cons, loadSummaryTags, RecordLayout.load_store,
      List.drop_left' (PackedSummaryTags.layout.length_store host tags), ih]

theorem length_flatMap_store {α : Type} (A : RecordLayout α) (host : Bool) (records : List α) :
    (records.flatMap (A.store host)).length = A.size * records.length := by
  induction records with
  | nil => rfl
  | cons record records ih =>
    rw [List.flatMap_cons, List.length_append, A.length_store, ih, List.length_cons]
    ring

/-- A host finds the summary that it has written, and no other host does. -/
theorem summaryRead_summaryWrite (host writer : Bool) (storedEndian : Nat)
    {dataBytesPerChunk : Nat} (enough : SummaryHeader.layout.size < dataBytesPerChunk)
    (blk seqNumber : Nat) (sumTags : List ExtTags) :
    summaryRead host dataBytesPerChunk seqNumber sumTags.length
        ((summaryWrite writer storedEndian dataBytesPerChunk blk seqNumber sumTags).map
          SummaryPage.found) =
      if host = writer then some (sumTags.map (summaryAdd (endianConfig writer storedEndian)))
      else none := by
  generalize packed_eq : sumTags.map (summaryAdd (endianConfig writer storedEndian)) = packed
  have count : sumTags.length = packed.length := by
    rw [← packed_eq, List.length_map]
  simp only [summaryRead, summaryWrite, packed_eq, count]
  rw [← length_flatMap_store PackedSummaryTags.layout writer]
  generalize buffer_eq : packed.flatMap (PackedSummaryTags.layout.store writer) = sumBuffer
  generalize hdr_eq : SummaryHeader.mk (BitVec.ofNat 32 summaryVersion) (BitVec.ofNat 32 blk)
    (BitVec.ofNat 32 seqNumber) (summarySum sumBuffer) = hdr
  have length := SummaryHeader.layout.length_store writer hdr
  have positive : 0 < dataBytesPerChunk - SummaryHeader.layout.size := by omega
  rw [length]
  by_cases same : host = writer
  · subst same
    rw [if_pos rfl, summaryReadLoop_writeLoop length
      (fun rest => SummaryHeader.layout.load_store host hdr rest) positive (Nat.lt_succ_self _)]
    have valid : ¬(hdr.version ≠ BitVec.ofNat 32 summaryVersion ∨
        hdr.seq ≠ BitVec.ofNat 32 seqNumber ∨ hdr.sum ≠ summarySum sumBuffer) := by
      rw [← hdr_eq]
      simp
    simp only [List.nil_append, if_neg valid]
    rw [← buffer_eq, loadSummaryTags_store]
  · have other : host = !writer := Bool.eq_not.mpr same
    rw [if_neg same, other, summaryReadLoop_writeLoop length
      (fun rest => SummaryHeader.layout.load_store_other writer hdr rest) positive
      (Nat.lt_succ_self _)]
    have version : (SummaryHeader.layout.swapped hdr).version ≠ BitVec.ofNat 32 summaryVersion := by
      rw [← hdr_eq]
      change (RecordLayout.word 4).swapped (BitVec.ofNat 32 summaryVersion) ≠ _
      rw [← swapU32_eq_swapped]
      decide
    simp only [if_pos (Or.inl version)]

theorem not_portable_summary {storedEndian dataBytesPerChunk : Nat}
    (enough : SummaryHeader.layout.size < dataBytesPerChunk) (blk seqNumber : Nat) (left : U32)
    (sumTags : List ExtTags) :
    ¬(FlashRecord.summary dataBytesPerChunk enough blk seqNumber left sumTags).Portable
      storedEndian := by
  intro portable
  have alike := portable true
  dsimp only at alike
  rw [Bool.not_true, summaryRead_summaryWrite _ _ _ enough, summaryRead_summaryWrite _ _ _ enough,
    if_neg Bool.false_ne_true, if_pos rfl] at alike
  simp at alike

/-! ## All records -/

/-- Hosts of both kinds read a record alike if and only if no word that is stored as the host has it
tells them apart. -/
theorem FlashRecord.portable_iff {storedEndian : Nat}
    (stored : storedEndian = 1 ∨ storedEndian = 2) (record : FlashRecord) :
    record.Portable storedEndian ↔ record.Symmetric storedEndian := by
  cases record with
  | tags t tagsEcc => exact portable_tags_iff stored t tagsEcc
  | header oh =>
    refine (readAlike_iff stored (fun _ => rfl) fun oh => ?_).trans (doEndianOh_reverses_iff oh)
    simp [doEndianOh]
  | summary dataBytesPerChunk enough blk seqNumber left sumTags =>
    exact iff_of_false (not_portable_summary enough blk seqNumber left sumTags) fun none => none
  | validity v =>
    refine iff_of_true ((readAlike_iff stored (fun _ => rfl) fun v => ?_).mpr
      (doEndianValidityMarker_reverses v)) trivial
    simp [doEndianValidityMarker]
  | checkptDev cp =>
    refine (readAlike_iff stored (fun _ => rfl) fun cp => ?_).trans
      (doEndianCheckptDev_reverses_iff cp)
    simp [doEndianCheckptDev]
  | checkptObj size cp =>
    refine iff_of_true ((readAlike_iff stored (fun _ => rfl) fun cp => ?_).mpr
      (doEndianCheckptObj_reverses cp)) trivial
    simp [doEndianCheckptObj, swapLoffT_eq_swapped]
  | xattrSize size =>
    refine iff_of_true ((readAlike_iff stored (fun _ => rfl) fun size => ?_).mpr
      (swapU32_eq_swapped size)) trivial
    simp [doEndianU32]

/-- A checkpoint with a sequence number that is the same in reverse. -/
theorem FlashRecord.portable_checkptDev_reversible :
    (FlashRecord.checkptDev ⟨36, 50, 7, 3, 3000, 0, 0, 0, 0x00111100⟩).Portable 2 :=
  (FlashRecord.portable_iff (.inr rfl) _).mpr (by rw [Symmetric]; decide)

/-- The tags of a data page, the summary of an empty block and a checkpoint. -/
theorem FlashRecord.not_portable :
    ¬(FlashRecord.tags { objId := 257, chunkId := 1, nBytes := 2048, seqNumber := 4097 }
        true).Portable 1 ∧
      ¬(FlashRecord.summary 2048 (by decide) 7 4097 0 []).Portable 1 ∧
      ¬(FlashRecord.checkptDev ⟨36, 50, 7, 3, 3000, 0, 0, 0, 4097⟩).Portable 1 := by
  refine ⟨fun portable => ?_, fun portable => ?_, fun portable => ?_⟩
  · exact absurd (portable false) (by decide +kernel)
  · exact absurd (portable false) (by decide +kernel)
  · exact absurd (portable false) (by decide +kernel)

end Yaffs.Stored
