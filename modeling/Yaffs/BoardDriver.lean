import Yaffs.TagsMarshall
import Yaffs.DataEcc

/-!
# Reading pages on the board

The board has two read functions.  One is for the tags marshaller: it corrects all blocks of the
data and reports the worst that happened.  The other one unpacks the tags itself, so that the
marshaller is not used.  It keeps only the status of the last block, stops at the first block that
it cannot correct, and forgets the result of the read of the main area.
-/

namespace Yaffs.Board

open Stored

/-- `PAGE_DATA_SIZE`, which the board also sets as the bytes of a chunk. -/
abbrev pageDataSize : Nat := 4096

/-- `PAGE_SPARE_SIZE`. -/
abbrev pageSpareSize : Nat := 224

/-- `YAFFS_FAIL`. -/
def yaffsFail : Int := 0

/-- `YAFFS_OK`. -/
def yaffsOk : Int := 1

/-- The parameters of the device that the read functions use. -/
structure BoardParam where
  /-- The byte order of the host. -/
  bigEndian : Bool
  /-- The parameter `stored_endian`. -/
  storedEndian : Nat
  inbandTags : Bool
  noTagsEcc : Bool

/-- What the two raw reads of a page return and leave in their buffers. -/
structure RawPage where
  /-- The result of `upmNandRead`, negative for a failure. -/
  mainResult : Int
  main : Chars pageDataSize
  /-- The result of `upmNandReadExtra`. -/
  spareResult : Int
  spare : Chars pageSpareSize

namespace RawPage

/-- A byte of the spare area. -/
def spareByte (page : RawPage) (i : Nat) : BitVec 8 := (page.spare.1.getD i 0).toBitVec

/-- The blocks that the loops go through: 256 bytes of the data and three of the spare area. -/
def blocks (page : RawPage) : List (List UInt8 × Ecc) :=
  (List.range (pageDataSize / 256)).map fun k =>
    ((page.main.1.drop (256 * k)).take 256,
      ⟨page.spareByte (40 + 3 * k), page.spareByte (40 + 3 * k + 1),
        page.spareByte (40 + 3 * k + 2)⟩)

/-- The packed tags with their code. -/
def packedTags (page : RawPage) : List UInt8 :=
  (page.spare.1.drop 2).take (PackedTags2TagsOnly.layout.size + EccOther.layout.size)

end RawPage

/-- What a block looks like after correction. -/
abbrev corrected (block : List UInt8 × Ecc) : List UInt8 := (correctRead block).2

/-- The outcome of the correction: no error, corrected, or negative. -/
abbrev status (block : List UInt8 × Ecc) : Int := (correctRead block).1

/-! ## For the marshaller -/

/-- What the driver returns for a page; the data comes in blocks. -/
structure DrvRead where
  retval : Int
  data : List (List UInt8)
  oob : List UInt8
  eccResult : EccResult

/-- The loop over the blocks of `drvReadChunk`. -/
def drvLoop : EccResult → List (List UInt8 × Ecc) → EccResult × List (List UInt8)
  | eccResult, [] => (eccResult, [])
  | eccResult, block :: rest =>
    let ret := status block
    let eccResult : EccResult :=
      if ret < 0 then .unfixed
      else if 0 < ret ∧ eccResult = .noError then .fixed
      else eccResult
    let done := drvLoop eccResult rest
    (done.1, corrected block :: done.2)

/-- Read a page for the marshaller. -/
def drvReadChunk (page : RawPage) (data : Bool) : DrvRead :=
  let ret := if data then page.mainResult else 0
  let ret1 := page.spareResult
  let read := if data then page.blocks else []
  if ret < 0 ∨ ret1 < 0 then ⟨yaffsFail, read.map Prod.fst, [], .unknown⟩
  else
    let done := drvLoop .noError read
    ⟨yaffsOk, done.2, page.packedTags, done.1⟩

/-! ## With the tags -/

/-- The loop over the blocks of `tagReadChunk`. -/
def tagLoop : Int → List (List UInt8 × Ecc) → Int × List (List UInt8)
  | eccStatus, [] => (eccStatus, [])
  | _, block :: rest =>
    let eccStatus := status block
    -- the other blocks stay as they were read
    if eccStatus < 0 then (eccStatus, corrected block :: rest.map Prod.fst)
    else
      let done := tagLoop eccStatus rest
      (done.1, corrected block :: done.2)

/-- What a read with tags returns; the data comes in blocks. -/
structure TagRead where
  retval : Int
  data : List (List UInt8)
  tags : Option ExtTags

/-- The blocks that a read goes through: a buffer of its own stands in for the caller's where the
tags are in the data. -/
def blocksRead (dev : BoardParam) (page : RawPage) (data tags : Bool) : List (List UInt8 × Ecc) :=
  if data || tags && dev.inbandTags then page.blocks else []

/-- Read a page with its tags. -/
def tagReadChunk (dev : BoardParam) (page : RawPage) (data tags : Bool) : TagRead :=
  -- the result of the main area has been overwritten
  let retval := page.spareResult
  let unpacked := unpackTags2 dev.bigEndian dev.storedEndian page.packedTags (!dev.noTagsEcc)
  let done := tagLoop 0 (blocksRead dev page data tags)
  let eccStatus := done.1
  let tagsOut :=
    if unpacked.chunkUsed then
      { unpacked with
        eccResult :=
          if eccStatus < 0 ∨ unpacked.eccResult = .unfixed then .unfixed
          else if 0 < eccStatus ∨ unpacked.eccResult = .fixed then .fixed
          else .noError }
    else unpacked
  ⟨retval + 1, if data then done.2 else [], if tags then some tagsOut else none⟩

/-! ## The worst that happened -/

section Worst

variable (dev : BoardParam) (page : RawPage) (data : Bool)

/-- The tags that were read, with the outcome of their own correction. -/
def unpacked : ExtTags :=
  unpackTags2 dev.bigEndian dev.storedEndian page.packedTags (!dev.noTagsEcc)

/-- The worst of the outcomes for the tags and for some blocks. -/
def worst (tagsResult : EccResult) (read : List (List UInt8 × Ecc)) : EccResult :=
  if (∃ block ∈ read, status block < 0) ∨ tagsResult = .unfixed then .unfixed
  else if (∃ block ∈ read, 0 < status block) ∨ tagsResult = .fixed then .fixed
  else .noError

/-- One of the raw reads that were made has failed. -/
def ReadFails : Prop :=
  (data || dev.inbandTags) ∧ page.mainResult < 0 ∨ page.spareResult < 0

/-- A read reports the worst that happened, fails with the raw reads, corrects all blocks, and
agrees with the marshaller where that one has something to work on. -/
structure ReportsWorst : Prop where
  worst : (tagReadChunk dev page data true).tags =
    some { unpacked dev page with
      eccResult := worst (unpacked dev page).eccResult (blocksRead dev page data true) }
  fails : ReadFails dev page data → (tagReadChunk dev page data true).retval = yaffsFail
  corrects : data = true → (tagReadChunk dev page data true).data = page.blocks.map corrected
  marshalled : let drv := drvReadChunk page (data || dev.inbandTags)
    drv.retval = yaffsOk →
      (data = true → (tagReadChunk dev page data true).data = drv.data) ∧
      (tagReadChunk dev page data true).tags =
        some (TagsFormat.noteEccResult drv.eccResult
          (unpackTags2 dev.bigEndian dev.storedEndian drv.oob (!dev.noTagsEcc)))

/-- What the loop and the result of the read pass over does not matter. -/
structure NothingLost : Prop where
  /-- Only the second raw read fails, with the one result that becomes `YAFFS_FAIL`. -/
  failure : ReadFails dev page data → page.spareResult = -1
  /-- A block behind one that cannot be corrected has no wrong bit that can be. -/
  behind : data = true → page.blocks.Pairwise fun earlier later =>
    status earlier < 0 → corrected later = later.1
  /-- When a block is corrected and nothing else says so, the last block is corrected. -/
  last : (unpacked dev page).eccResult = .noError →
    (∀ block ∈ blocksRead dev page data true, 0 ≤ status block) →
    (∃ block ∈ blocksRead dev page data true, 0 < status block) →
      ∃ block ∈ (blocksRead dev page data true).getLast?, 0 < status block

end Worst

/-! ## The loops -/

/-- What a block makes of the outcome so far. -/
def noteStatus (ret : Int) (eccResult : EccResult) : EccResult :=
  if ret < 0 then .unfixed
  else if 0 < ret ∧ eccResult = .noError then .fixed
  else eccResult

theorem noteStatus_known (ret : Int) {eccResult : EccResult} (known : eccResult ≠ .unknown) :
    noteStatus ret eccResult ≠ .unknown := by
  unfold noteStatus
  split
  · decide
  · split
    · decide
    · exact known

/-- One block more for the worst outcome. -/
theorem worst_cons {tagsResult : EccResult} (known : tagsResult ≠ .unknown)
    (block : List UInt8 × Ecc) (rest : List (List UInt8 × Ecc)) :
    worst tagsResult (block :: rest) = worst (noteStatus (status block) tagsResult) rest := by
  have outcome : (noteStatus (status block) tagsResult = .unfixed ↔
        status block < 0 ∨ tagsResult = .unfixed) ∧
      (¬status block < 0 → tagsResult ≠ .unfixed →
        (noteStatus (status block) tagsResult = .fixed ↔
          0 < status block ∨ tagsResult = .fixed)) := by
    generalize status block = ret
    unfold noteStatus
    split
    case isTrue negative => simp [negative]
    case isFalse negative =>
      by_cases positive : 0 < ret
      · cases tagsResult <;> simp [negative, positive] at known ⊢
      · simp [negative, positive]
  unfold worst
  simp only [List.exists_mem_cons_iff, outcome.1, or_assoc, or_left_comm]
  split
  · rfl
  · rename_i unfixed
    obtain ⟨not_negative, -, not_unfixed⟩ := not_or.1 unfixed |>.imp_right not_or.1
    simp only [outcome.2 not_negative not_unfixed, or_left_comm]

/-- The loop for the marshaller corrects all blocks and has the worst outcome. -/
theorem drvLoop_eq (read : List (List UInt8 × Ecc)) {eccResult : EccResult}
    (known : eccResult ≠ .unknown) :
    drvLoop eccResult read = (worst eccResult read, read.map corrected) := by
  induction read generalizing eccResult with
  | nil => cases eccResult <;> simp [drvLoop, worst] at known ⊢
  | cons block rest ih =>
    have next := ih (noteStatus_known (status block) known)
    rw [worst_cons known, List.map_cons]
    exact congrArg₂ Prod.mk (congrArg Prod.fst next)
      (congrArg (corrected block :: ·) (congrArg Prod.snd next))

/-- The status is negative after a block that cannot be corrected. -/
theorem tagLoop_negative (read : List (List UInt8 × Ecc)) {eccStatus : Int}
    (before : 0 ≤ eccStatus) :
    (tagLoop eccStatus read).1 < 0 ↔ ∃ block ∈ read, status block < 0 := by
  induction read generalizing eccStatus with
  | nil => simpa [tagLoop] using before
  | cons block rest ih =>
    simp only [tagLoop, List.exists_mem_cons_iff]
    split
    case isTrue negative => exact ⟨fun _ => .inl negative, fun _ => negative⟩
    case isFalse corrects =>
      rw [ih (Int.not_lt.mp corrects)]
      exact (or_iff_right corrects).symm

/-- Otherwise it is the one of the last block. -/
theorem tagLoop_last (read : List (List UInt8 × Ecc)) (eccStatus : Int)
    (corrects : ∀ block ∈ read, 0 ≤ status block) :
    (tagLoop eccStatus read).1 = (read.getLast?.map status).getD eccStatus := by
  induction read generalizing eccStatus with
  | nil => rfl
  | cons block rest ih =>
    have first : ¬status block < 0 := Int.not_lt.mpr (corrects block List.mem_cons_self)
    rw [tagLoop, if_neg first]
    dsimp only
    rw [ih _ fun later member => corrects later (List.mem_cons_of_mem block member),
      List.getLast?_cons]
    cases rest.getLast? <;> rfl

/-- All blocks are corrected unless there is something to correct behind a block that cannot be. -/
theorem tagLoop_data (read : List (List UInt8 × Ecc)) (eccStatus : Int) :
    (tagLoop eccStatus read).2 = read.map corrected ↔
      read.Pairwise fun earlier later => status earlier < 0 → corrected later = later.1 := by
  induction read generalizing eccStatus with
  | nil => simp [tagLoop]
  | cons block rest ih =>
    rw [tagLoop, List.pairwise_cons]
    dsimp only
    by_cases negative : status block < 0
    · rw [if_pos negative]
      constructor
      · intro same
        have untouched : ∀ later ∈ rest, later.1 = corrected later :=
          List.map_inj_left.1 (List.cons.inj same).2
        refine ⟨fun later member _ => (untouched later member).symm, ?_⟩
        exact List.pairwise_of_forall_mem_list
          fun _ _ later member _ => (untouched later member).symm
      · rintro ⟨untouched, -⟩
        exact congrArg (corrected block :: ·)
          (List.map_inj_left.2 fun later member => (untouched later member negative).symm)
    · rw [if_neg negative, List.map_cons, List.cons_inj_right, ih]
      refine ⟨fun behind => ⟨fun _ _ below => absurd below negative, behind⟩, And.right⟩

/-! ## What is lost -/

section Lost

variable {dev : BoardParam} {page : RawPage} {data : Bool}

/-- Unpacking always has an outcome. -/
theorem unpacked_known : (unpacked dev page).eccResult ≠ .unknown := by
  simp only [unpacked, unpackTags2]
  split
  · unfold eccCorrectOther
    dsimp only
    split_ifs <;> simp only [ne_eq, reduceCtorEq, not_false_eq_true]
  · simp only [ne_eq, reduceCtorEq, not_false_eq_true]

/-- The outcome that is reported, from the status that the loop leaves. -/
def reported (eccStatus : Int) (tagsResult : EccResult) : EccResult :=
  if eccStatus < 0 ∨ tagsResult = .unfixed then .unfixed
  else if 0 < eccStatus ∨ tagsResult = .fixed then .fixed
  else .noError

theorem tagReadChunk_tags (used : (unpacked dev page).chunkUsed = true) :
    (tagReadChunk dev page data true).tags =
      some { unpacked dev page with
        eccResult := reported (tagLoop 0 (blocksRead dev page data true)).1
          (unpacked dev page).eccResult } := by
  simp only [tagReadChunk, if_true]
  exact congrArg some (if_pos used)

/-- The status is positive just when the last block was corrected. -/
theorem tagLoop_positive {read : List (List UInt8 × Ecc)}
    (corrects : ∀ block ∈ read, 0 ≤ status block) :
    0 < (tagLoop 0 read).1 ↔ ∃ block ∈ read.getLast?, 0 < status block := by
  rw [tagLoop_last read 0 corrects]
  cases read.getLast? with
  | none => simp
  | some last => simp

/-- The worst outcome is reported unless only an earlier block was corrected. -/
theorem reported_eq_worst {tagsResult : EccResult} (known : tagsResult ≠ .unknown)
    (read : List (List UInt8 × Ecc)) :
    reported (tagLoop 0 read).1 tagsResult = worst tagsResult read ↔
      (tagsResult = .noError → (∀ block ∈ read, 0 ≤ status block) →
        (∃ block ∈ read, 0 < status block) → ∃ block ∈ read.getLast?, 0 < status block) := by
  unfold reported worst
  simp only [tagLoop_negative read (Int.le_refl 0)]
  by_cases unfixed : (∃ block ∈ read, status block < 0) ∨ tagsResult = .unfixed
  · rw [if_pos unfixed, if_pos unfixed]
    refine iff_of_true rfl fun no_error corrects => ?_
    obtain ⟨block, member, negative⟩ | tags_unfixed := unfixed
    · exact absurd (corrects block member) (Int.not_le.mpr negative)
    · exact absurd (no_error.symm.trans tags_unfixed) (by decide)
  · obtain ⟨no_negative, not_unfixed⟩ := not_or.1 unfixed
    have corrects : ∀ block ∈ read, 0 ≤ status block :=
      fun block member => Int.not_lt.mp fun negative => no_negative ⟨block, member, negative⟩
    rw [if_neg unfixed, if_neg unfixed]
    simp only [tagLoop_positive corrects]
    cases tagsResult with
    | unknown => exact absurd rfl known
    | unfixed => exact absurd rfl not_unfixed
    | fixed => simp
    | noError =>
      have last_mem : (∃ block ∈ read.getLast?, 0 < status block) →
          ∃ block ∈ read, 0 < status block :=
        fun ⟨block, last, positive⟩ => ⟨block, List.mem_of_getLast? last, positive⟩
      simp only [reduceCtorEq, or_false, forall_const]
      split_ifs with last any any
      · exact iff_of_true rfl fun _ _ => last
      · exact absurd (last_mem last) any
      · exact iff_of_false (by decide) fun lost => last (lost corrects any)
      · exact iff_of_true rfl fun _ any' => absurd any' any

/-- The marshaller also ends with the worst outcome. -/
theorem noteEccResult_worst (tags : ExtTags) {tagsResult : EccResult}
    (known : tagsResult ≠ .unknown) (read : List (List UInt8 × Ecc)) :
    TagsFormat.noteEccResult (worst .noError read) { tags with eccResult := tagsResult } =
      { tags with eccResult := worst tagsResult read } := by
  unfold worst
  by_cases negative : ∃ block ∈ read, status block < 0
  · rw [if_pos (.inl negative), if_pos (.inl negative)]
    rfl
  · by_cases positive : ∃ block ∈ read, 0 < status block
    · cases tagsResult <;>
        simp [TagsFormat.noteEccResult, negative, positive, EccResult.code] at known ⊢
    · cases tagsResult <;>
        simp [TagsFormat.noteEccResult, negative, positive] at known ⊢

/-- A correction that is reported has reached the last block. -/
theorem ReportsWorst.last (used : (unpacked dev page).chunkUsed = true)
    (reports : ReportsWorst dev page data) :
    (unpacked dev page).eccResult = .noError →
      (∀ block ∈ blocksRead dev page data true, 0 ≤ status block) →
      (∃ block ∈ blocksRead dev page data true, 0 < status block) →
        ∃ block ∈ (blocksRead dev page data true).getLast?, 0 < status block := by
  have same := Option.some.inj ((tagReadChunk_tags used).symm.trans reports.worst)
  exact (reported_eq_worst unpacked_known _).1 (congrArg ExtTags.eccResult same)

/-- A read for the marshaller that succeeds. -/
theorem drvReadChunk_ok {data : Bool} (succeeds : (drvReadChunk page data).retval = yaffsOk) :
    drvReadChunk page data =
      let read := if data then page.blocks else []
      ⟨yaffsOk, read.map corrected, page.packedTags, worst .noError read⟩ := by
  by_cases failed : (if data then page.mainResult else 0) < 0 ∨ page.spareResult < 0
  · have retval : (drvReadChunk page data).retval = yaffsFail :=
      congrArg DrvRead.retval (if_pos failed)
    exact absurd (retval.symm.trans succeeds) (by decide)
  · refine Eq.trans (if_neg failed) ?_
    rw [drvLoop_eq _ (by decide : EccResult.noError ≠ .unknown)]

/-- A read of a used page reports the worst that happened, fails with the raw reads and corrects
what can be corrected, as the marshaller does, just when nothing is lost in its loop and its result.
-/
theorem reports_worst_iff (used : (unpacked dev page).chunkUsed = true) :
    ReportsWorst dev page data ↔ NothingLost dev page data := by
  constructor
  · intro reports
    refine ⟨?_, ?_, reports.last used⟩
    · intro failed
      have retval : page.spareResult + 1 = 0 := reports.fails failed
      omega
    · intro wanted
      subst wanted
      exact (tagLoop_data _ 0).1 (reports.corrects rfl)
  · intro nothing
    have tags_eq := @tagReadChunk_tags dev page data used
    have worst_eq := (reported_eq_worst unpacked_known _).2 nothing.last
    rw [worst_eq] at tags_eq
    have corrects : data = true →
        (tagReadChunk dev page data true).data = page.blocks.map corrected := by
      intro wanted
      subst wanted
      exact (tagLoop_data _ 0).2 (nothing.behind rfl)
    refine ⟨tags_eq, ?_, corrects, ?_⟩
    · intro failed
      exact (congrArg (· + 1) (nothing.failure failed) : page.spareResult + 1 = 0)
    · intro drv succeeds
      simp only [drv, drvReadChunk_ok succeeds]
      refine ⟨fun wanted => ?_, ?_⟩
      · rw [corrects wanted, wanted]
        rfl
      · rw [tags_eq, blocksRead, Bool.true_and]
        exact congrArg some
          (noteEccResult_worst (unpacked dev page) unpacked_known _).symm

end Lost

/-! ## A page with one wrong bit -/

/-- The device of the board on a host with the least significant byte first. -/
def boardParam : BoardParam where
  bigEndian := false
  storedEndian := 0
  inbandTags := false
  noTagsEcc := false

/-- A page of zeros with its codes, up to the first byte. -/
def writtenPage (first : UInt8) : RawPage where
  mainResult := 0
  main := ⟨first :: List.replicate 4095 0, congrArg (· + 1) List.length_replicate⟩
  spareResult := 0
  spare := ⟨[0xff, 0xff] ++ packTags2 false 0
    { chunkUsed := true
      objId := 257
      chunkId := 1
      nBytes := 4096
      seqNumber := 4097 } true ++ List.replicate 194 0xff, by decide +kernel⟩

theorem unpacked_writtenPage (first : UInt8) :
    (unpacked boardParam (writtenPage first)).chunkUsed = true ∧
      (unpacked boardParam (writtenPage first)).eccResult = .noError := by
  have zero : (unpacked boardParam (writtenPage 0)).chunkUsed = true ∧
      (unpacked boardParam (writtenPage 0)).eccResult = .noError := by
    decide +kernel
  exact zero

theorem writtenPage_blocks : ∀ first ∈ ([0, 1] : List UInt8),
    (writtenPage first).blocks =
      (first :: List.replicate 255 0, ⟨0xff, 0xff, 0xff⟩) ::
        List.replicate 15 (List.replicate 256 0, ⟨0xff, 0xff, 0xff⟩) := by
  decide +kernel

theorem status_zeros : status (List.replicate 256 0, ⟨0xff, 0xff, 0xff⟩) = 0 := by
  decide +kernel

theorem status_first : status (1 :: List.replicate 255 0, ⟨0xff, 0xff, 0xff⟩) = 1 := by
  decide +kernel

/-- Nothing is lost on a page without a wrong bit. -/
theorem reports_worst_zeros : ReportsWorst boardParam (writtenPage 0) true := by
  refine (reports_worst_iff (unpacked_writtenPage 0).1).2 ?_
  have intact : ∀ block ∈ (writtenPage 0).blocks, status block = 0 := by
    intro block member
    rw [writtenPage_blocks 0 List.mem_cons_self, ← List.replicate_succ (n := 255)] at member
    obtain rfl | member := List.mem_cons.1 member
    · exact status_zeros
    · exact List.eq_of_mem_replicate member ▸ status_zeros
  refine ⟨?_, ?_, ?_⟩
  · rintro (⟨-, failed⟩ | failed)
    · exact absurd failed (by decide)
    · exact absurd failed (by decide)
  · refine fun _ => List.pairwise_of_forall_mem_list fun earlier member _ _ negative => ?_
    exact absurd negative (intact earlier member ▸ Int.lt_irrefl 0)
  · rintro - - ⟨block, member, positive⟩
    exact absurd positive (intact block member ▸ Int.lt_irrefl 0)

/-- The correction of the first block is forgotten after the second. -/
theorem not_reports_worst_first : ¬ReportsWorst boardParam (writtenPage 1) true := by
  intro reports
  have tags := unpacked_writtenPage 1
  have blocks := writtenPage_blocks 1 (by decide)
  have last := reports.last tags.1 tags.2
  have read : blocksRead boardParam (writtenPage 1) true true = (writtenPage 1).blocks := rfl
  rw [read, blocks] at last
  obtain ⟨block, is_last, positive⟩ := last
    (by
      intro block member
      obtain rfl | member := List.mem_cons.1 member
      · exact status_first ▸ Int.zero_le_ofNat 1
      · exact List.eq_of_mem_replicate member ▸ status_zeros.ge)
    ⟨_, List.mem_cons_self, status_first ▸ Int.zero_lt_one⟩
  rw [List.getLast?_cons, List.getLast?_replicate] at is_last
  obtain rfl := Option.some.inj is_last
  rw [if_neg (by decide), Option.getD_some, status_zeros] at positive
  exact Int.lt_irrefl 0 positive

end Yaffs.Board
