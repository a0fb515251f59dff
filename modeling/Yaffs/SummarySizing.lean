import Yaffs.CheckpointStream
import Yaffs.Chunks
import Yaffs.Geometry

/-!
# Sizing of block summaries

The last pages of a block are kept for its summary.  Their number is computed from all pages of the
block, while the summary that goes into them describes only the other ones, and every summary page
starts with a header.
-/

namespace Yaffs

open Dev (intOfU32 u32OfInt)

/-! ## Turns of the summary loops -/

/-- Pages that a summary loop gets to, with the page number in the block, the chunk number and the
bytes of each, and whether it gets to the end.  A page is `none` when a negative number of bytes is
copied, and so is a loop that goes on without ever getting further. -/
def summaryTurns (bytesPerChunk : Int) (page : Int → Nat → Int → Option Bool)
    (chunkInBlock : Int) (chunkId : Nat) (nBytes : Int) : Option (List (Int × Nat × Int) × Bool) :=
  let thisTx := min nBytes bytesPerChunk
  match page chunkInBlock chunkId thisTx with
  | none => none
  | some false => some ([(chunkInBlock, chunkId, thisTx)], false)
  | some true =>
    if _ : 0 < thisTx ∧ 0 < nBytes - thisTx then
      (summaryTurns bytesPerChunk page (chunkInBlock + 1) (chunkId + 1) (nBytes - thisTx)).map
        fun rest => ((chunkInBlock, chunkId, thisTx) :: rest.1, rest.2)
    else if 0 < nBytes - thisTx then none
    else some ([(chunkInBlock, chunkId, thisTx)], true)
termination_by nBytes.toNat
decreasing_by omega

/-- One page of `yaffs_summary_write`. -/
def summaryWritePage (result : Int → Bool) (chunk thisTx : Int) : Option Bool :=
  if thisTx < 0 then none else some (result chunk)

/-- One page of `yaffs_summary_read`. -/
def summaryReadPage (answer : Int → Bool × ExtTags) (chunk : Int) (chunkId : Nat) (thisTx : Int) :
    Option Bool :=
  let tags := (answer chunk).2
  let result :=
    if tags.chunkId ≠ chunkId ∨ tags.objId ≠ objectIdSummary ∨ tags.chunkUsed = false ∨
        EccResult.fixed.code < tags.eccResult.code ∨ (tags.nBytes : Int) ≠ thisTx +
          summaryHeaderSize
      then false
    else (answer chunk).1
  if result = false then some false else if thisTx < 0 then none else some true

theorem summaryWritePage_isSome {result : Int → Bool} {chunk thisTx : Int} (amount : 0 ≤ thisTx) :
    (summaryWritePage result chunk thisTx).isSome := by
  rw [summaryWritePage, if_neg (not_lt.mpr amount), Option.isSome_some]

theorem summaryReadPage_isSome {answer : Int → Bool × ExtTags} {chunk : Int} {chunkId : Nat}
    {thisTx : Int} (amount : 0 ≤ thisTx) :
      (summaryReadPage answer chunk chunkId thisTx).isSome := by
  simp only [summaryReadPage]
  split
  · rfl
  · rw [if_neg (not_lt.mpr amount)]
    split <;> rfl

/-- The pages are visited one after the other, as long as there are bytes for them. -/
theorem summaryTurns_visits {bytesPerChunk : Int} (page : Int → Nat → Int → Option Bool)
    (some_bytes : 0 < bytesPerChunk)
    (defined : ∀ chunk chunkId thisTx, 0 ≤ thisTx → (page chunk chunkId thisTx).isSome)
    (chunkInBlock : Int) (chunkId : Nat) {nBytes : Int} (left : 0 < nBytes) :
    ∃ out, summaryTurns bytesPerChunk page chunkInBlock chunkId nBytes = some out ∧
      (∀ turn ∈ out.1, chunkInBlock ≤ turn.1 ∧
        (turn.1 - chunkInBlock) * bytesPerChunk < nBytes) ∧
      (out.2 → (out.1.map fun turn => turn.2.2).sum = nBytes) ∧
      ((∀ chunk chunkId thisTx, page chunk chunkId thisTx ≠ some false) → out.2) := by
  induction h : nBytes.toNat using Nat.strong_induction_on generalizing chunkInBlock chunkId nBytes
  case h count induction =>
    rw [summaryTurns.eq_def]
    dsimp only
    have amount : 0 < min nBytes bytesPerChunk := lt_min left some_bytes
    obtain ⟨answer, got⟩ := Option.isSome_iff_exists.mp
      (defined chunkInBlock chunkId (min nBytes bytesPerChunk) amount.le)
    rw [got]
    cases answer with
    | false =>
      refine ⟨_, rfl, ?_, nofun, fun good => absurd got (good _ _ _)⟩
      intro turn visited
      obtain rfl := List.mem_singleton.mp visited
      simpa using left
    | true =>
      dsimp only
      by_cases more : 0 < nBytes - min nBytes bytesPerChunk
      · have full : min nBytes bytesPerChunk = bytesPerChunk := by omega
        rw [dif_pos ⟨amount, more⟩]
        rw [full] at more ⊢
        obtain ⟨out, turned, inside, total, done⟩ := induction _ (by omega) (chunkInBlock + 1)
          (chunkId + 1) more rfl
        refine ⟨((chunkInBlock, chunkId, bytesPerChunk) :: out.1, out.2), by rw [turned]; rfl, ?_,
          ?_, done⟩
        · intro turn visited
          obtain rfl | later := List.mem_cons.mp visited
          · simpa using left
          · obtain ⟨from_next, near⟩ := inside turn later
            refine ⟨by omega, ?_⟩
            have further : (turn.1 - chunkInBlock) * bytesPerChunk =
                (turn.1 - (chunkInBlock + 1)) * bytesPerChunk + bytesPerChunk := by ring
            omega
        · intro done
          have rest := total done
          simp only [List.map_cons, List.sum_cons]
          omega
      · have last : min nBytes bytesPerChunk = nBytes := by omega
        rw [dif_neg fun both => more both.2, if_neg more]
        refine ⟨_, rfl, ?_, ?_, fun _ => rfl⟩
        · intro turn visited
          obtain rfl := List.mem_singleton.mp visited
          simpa using left
        · intro _
          simpa using last

/-- A loop that finds every page of another loop in order visits the same pages. -/
theorem summaryTurns_same {bytesPerChunk : Int} {page other : Int → Nat → Int → Option Bool}
    {out : List (Int × Nat × Int)} (chunkInBlock : Int) (chunkId : Nat) (nBytes : Int)
    (turned : summaryTurns bytesPerChunk page chunkInBlock chunkId nBytes = some (out, true))
    (found : ∀ turn ∈ out, page turn.1 turn.2.1 turn.2.2 = some true →
      other turn.1 turn.2.1 turn.2.2 = some true) :
    summaryTurns bytesPerChunk other chunkInBlock chunkId nBytes = some (out, true) := by
  induction h : nBytes.toNat using Nat.strong_induction_on
    generalizing chunkInBlock chunkId nBytes out
  case h count induction =>
    rw [summaryTurns.eq_def] at turned ⊢
    dsimp only at turned ⊢
    cases answered : page chunkInBlock chunkId (min nBytes bytesPerChunk) with
    | none => simp [answered] at turned
    | some answer =>
      cases answer with
      | false => simp [answered] at turned
      | true =>
        rw [answered] at turned
        dsimp only at turned
        split at turned
        case isTrue more =>
          obtain ⟨rest, rest_turned, rest_eq⟩ := Option.map_eq_some_iff.mp turned
          obtain ⟨rfl, done⟩ := Prod.mk.inj rest_eq
          have first := found _ List.mem_cons_self answered
          dsimp only at first
          rw [first]
          dsimp only
          rw [dif_pos more, induction _ (by omega) (chunkInBlock + 1) (chunkId + 1) _
            (by rw [rest_turned, ← done]) (fun turn later => found turn
              (List.mem_cons_of_mem _ later))
            rfl]
          rfl
        case isFalse last =>
          split at turned
          case isTrue => cases turned
          case isFalse none_left =>
            obtain ⟨rfl, -⟩ := Prod.mk.inj (Option.some.inj turned)
            have first := found _ (List.mem_singleton_self _) answered
            dsimp only at first
            rw [first]
            dsimp only
            rw [dif_neg last, if_neg none_left]

/-! ## Sizes -/

namespace Geometry

variable (geo : Geometry)

/-- What is left of a page behind the header of a summary page, as a `size_t`. -/
def summaryRoom (longSize : Bool) : Nat :=
  let sizes := if longSize then 2 ^ 64 else 2 ^ 32
  (geo.dataBytesPerChunk.toNat + sizes - summaryHeaderSize) % sizes

/-- Number of pages of a block that its summary describes.  The sizing fails when it divides by
zero. -/
def summaryInit (longSize : Bool) : Option Int :=
  let sumBytes := geo.param.chunksPerBlock.toNat * summaryTagsSize
  let divisor := geo.summaryRoom longSize
  if divisor = 0 then none
  else
    let chunksUsed : Nat := (sumBytes + geo.dataBytesPerChunk.toNat + (2 ^ 32 - 1)) %
      2 ^ 32 / divisor
    some (intOfU32 (u32OfInt (geo.param.chunksPerBlock.toNat - chunksUsed)))

/-- Size of the summary as an `int`. -/
def summaryBytes (chunksPerSummary : Int) : Int :=
  intOfU32 (u32OfInt (summaryTagsSize * chunksPerSummary))

/-- Size of the part of it that a page takes, as an `int`. -/
def sumBytesPerChunk : Int :=
  intOfU32 (u32OfInt (geo.dataBytesPerChunk.toNat - summaryHeaderSize))

/-- Number of a page of a block, as `yaffs_wr_chunk_tags_nand` gets it. -/
def summaryChunk (block : Nat) (chunkInBlock : Int) : Int :=
  intOfU32 (u32OfInt (block * geo.param.chunksPerBlock.toNat + chunkInBlock))

/-- Write the summary of a block.  `result` says which pages are programmed successfully. -/
def summaryWrite (chunksPerSummary : Int) (block : Nat) (result : Int → Bool) :
    Option (List (Int × Nat × Int) × Bool) :=
  summaryTurns geo.sumBytesPerChunk
    (fun chunkInBlock _ thisTx => summaryWritePage result
      (geo.summaryChunk block chunkInBlock) thisTx)
    chunksPerSummary 1 (summaryBytes chunksPerSummary)

/-- Read the summary of a block.  `answer` is what reading a page gives. -/
def summaryRead (chunksPerSummary : Int) (block : Nat) (answer : Int → Bool × ExtTags) :
    Option (List (Int × Nat × Int) × Bool) :=
  summaryTurns geo.sumBytesPerChunk
    (fun chunkInBlock chunkId thisTx =>
      summaryReadPage answer (geo.summaryChunk block chunkInBlock) chunkId thisTx)
    chunksPerSummary 1 (summaryBytes chunksPerSummary)

/-- The pages of a summary are read with the tags they were written with. -/
def ReadsAsWritten (block : Nat) (answer : Int → Bool × ExtTags) (pages : List (Int × Nat × Int)) :
    Prop :=
  ∀ turn ∈ pages, ∃ tags : ExtTags,
    answer (geo.summaryChunk block turn.1) = (true, tags) ∧
      tags.objId = objectIdSummary ∧ tags.chunkId = turn.2.1 ∧ tags.chunkUsed = true ∧
      tags.eccResult.code ≤ EccResult.fixed.code ∧ (tags.nBytes : Int) =
        turn.2.2 + summaryHeaderSize

/-- The pages of a summary are the last ones of the block. -/
def InLastPages (chunksPerSummary : Int) (pages : List (Int × Nat × Int)) : Prop :=
  ∀ turn ∈ pages, chunksPerSummary ≤ turn.1 ∧ turn.1 < geo.param.chunksPerBlock.toNat

/-- A summary has its size right, and room behind the pages it describes. -/
structure SummaryRight (longSize : Bool) (chunksPerSummary : Int) : Prop where
  sized : geo.summaryInit longSize = some chunksPerSummary
  divides : summaryHeaderSize < geo.dataBytesPerChunk.toNat
  one_le : 1 ≤ chunksPerSummary
  lt : chunksPerSummary < geo.param.chunksPerBlock.toNat
  writes : ∀ (block : Nat) (result : Int → Bool), ∃ out,
    geo.summaryWrite chunksPerSummary block result = some out ∧
      geo.InLastPages chunksPerSummary out.1 ∧
      (out.2 → (out.1.map fun turn => turn.2.2).sum = summaryTagsSize * chunksPerSummary)
  reads : ∀ (block : Nat) (answer : Int → Bool × ExtTags), ∃ out,
    geo.summaryRead chunksPerSummary block answer = some out ∧
      geo.InLastPages chunksPerSummary out.1
  same : ∀ (block : Nat) (result : Int → Bool) (answer : Int → Bool × ExtTags) (pages),
    geo.summaryWrite chunksPerSummary block result = some (pages, true) →
    geo.ReadsAsWritten block answer pages →
    geo.summaryRead chunksPerSummary block answer = some (pages, true)

/-- The sums stay within their words, pages have more room behind a header than entries need, and
blocks have enough pages, but not so many that the size of the summary is no `int`. -/
structure SummaryFits : Prop where
  room : 28 < geo.dataBytesPerChunk.toNat
  amount : geo.dataBytesPerChunk.toNat < 2 ^ 31 + summaryHeaderSize
  sum : summaryTagsSize * geo.param.chunksPerBlock.toNat + geo.dataBytesPerChunk.toNat ≤ 2 ^ 32
  enough : geo.dataBytesPerChunk.toNat ≤
    geo.param.chunksPerBlock.toNat * (geo.dataBytesPerChunk.toNat - 28)
  few : geo.param.chunksPerBlock.toNat * (geo.dataBytesPerChunk.toNat - 28) <
    178956970 * (geo.dataBytesPerChunk.toNat - summaryHeaderSize) + geo.dataBytesPerChunk.toNat

variable {geo} {longSize : Bool}

/-- A value that is kept in an `int` changes by a multiple of 2 ^ 32. -/
theorem intOfU32_spec (value : Int) : ∃ wraps : Int,
    intOfU32 (u32OfInt value) = value + wraps * 2 ^ 32 ∧
      -2 ^ 31 ≤ value + wraps * 2 ^ 32 ∧ value + wraps * 2 ^ 32 < 2 ^ 31 := by
  rw [intOfU32, u32OfInt]
  split
  · exact ⟨-(value / 2 ^ 32), by omega, by omega, by omega⟩
  · exact ⟨-(value / 2 ^ 32) - 1, by omega, by omega, by omega⟩

theorem intOfU32_u32OfInt {value : Int} (low : -2 ^ 31 ≤ value) (high : value < 2 ^ 31) :
    intOfU32 (u32OfInt value) = value := by
  obtain ⟨wraps, kept, low', high'⟩ := intOfU32_spec value
  omega

theorem summaryRoom_eq (room : summaryHeaderSize < geo.dataBytesPerChunk.toNat) (longSize : Bool) :
    geo.summaryRoom longSize = geo.dataBytesPerChunk.toNat - summaryHeaderSize := by
  have bound := UInt32.toNat_lt geo.dataBytesPerChunk
  rw [summaryHeaderSize] at room
  simp only [summaryRoom, summaryHeaderSize]
  cases longSize <;> simp only [if_true, if_false, Bool.false_eq_true] <;> omega

/-- Number of pages that are kept for the summary, when no sum wraps. -/
def chunksUsed (geo : Geometry) : Nat :=
  (summaryTagsSize * geo.param.chunksPerBlock.toNat + geo.dataBytesPerChunk.toNat - 1) /
    (geo.dataBytesPerChunk.toNat - summaryHeaderSize)

/-- A number of pages for the summary leaves others to describe, is not too small and has room. -/
structure Suits (chunks bytes used : Nat) : Prop where
  one_le : 1 ≤ used
  lt : used < chunks
  amount : 12 * (chunks - used) < 2 ^ 31
  room : 12 * (chunks - used) ≤ used * (bytes - 16)

theorem suits_of_fit {chunks bytes : Nat} (room : 28 < bytes)
    (enough : bytes ≤ chunks * (bytes - 28))
    (few : chunks * (bytes - 28) < 178956970 * (bytes - 16) + bytes) :
    Suits chunks bytes ((12 * chunks + bytes - 1) / (bytes - 16)) := by
  obtain ⟨more, size⟩ : ∃ more, bytes = more + 28 := ⟨bytes - 28, by omega⟩
  have room_eq : bytes - 16 = more + 12 := by omega
  have more_eq : bytes - 28 = more := by omega
  have rest := Nat.div_add_mod' (12 * chunks + bytes - 1) (bytes - 16)
  have rest_lt := Nat.mod_lt (12 * chunks + bytes - 1) (show 0 < bytes - 16 by omega)
  generalize (12 * chunks + bytes - 1) / (bytes - 16) = used at rest ⊢
  generalize (12 * chunks + bytes - 1) % (bytes - 16) = left at rest rest_lt
  rw [room_eq] at rest rest_lt few
  rw [more_eq] at enough few
  refine ⟨?_, ?_, ?_, ?_⟩
  · by_contra none
    have zero : used = 0 := by omega
    rw [zero, Nat.zero_mul] at rest
    omega
  · by_contra all
    have product : chunks * (more + 12) ≤ used * (more + 12) := Nat.mul_le_mul_right _
      (not_lt.mp all)
    rw [Nat.mul_add] at product
    omega
  · by_contra large
    have product : (used + 178956971) * (more + 12) ≤ chunks * (more + 12) :=
      Nat.mul_le_mul_right _ (by omega)
    rw [Nat.add_mul, Nat.mul_add chunks] at product
    omega
  · rw [room_eq]
    omega

theorem SummaryFits.suits (fits : geo.SummaryFits) :
    Suits geo.param.chunksPerBlock.toNat geo.dataBytesPerChunk.toNat geo.chunksUsed :=
  suits_of_fit fits.room fits.enough fits.few

theorem SummaryFits.summaryInit (fits : geo.SummaryFits) (longSize : Bool) :
    geo.summaryInit longSize = some (geo.param.chunksPerBlock.toNat - geo.chunksUsed : Int) := by
  obtain ⟨one_le, lt, amount, -⟩ := fits.suits
  have some_room := fits.room
  have room : summaryHeaderSize < geo.dataBytesPerChunk.toNat := by
    rw [summaryHeaderSize]
    omega
  have sum := fits.sum
  simp only [summaryTagsSize] at sum
  have sum_eq : (geo.param.chunksPerBlock.toNat * summaryTagsSize + geo.dataBytesPerChunk.toNat +
      (2 ^ 32 - 1)) % 2 ^ 32 =
      summaryTagsSize * geo.param.chunksPerBlock.toNat + geo.dataBytesPerChunk.toNat - 1 := by
    simp only [summaryTagsSize]
    omega
  simp only [Geometry.summaryInit, summaryRoom_eq room, sum_eq]
  rw [if_neg (by omega), ← chunksUsed]
  exact congrArg some (intOfU32_u32OfInt (by omega) (by omega))

/-- Geometries that fit have their summaries right. -/
theorem SummaryFits.right (fits : geo.SummaryFits) (longSize : Bool) :
    geo.SummaryRight longSize (geo.param.chunksPerBlock.toNat - geo.chunksUsed) := by
  obtain ⟨one_le, lt, amount, room⟩ := fits.suits
  have some_room := fits.room
  have bytes_lt := fits.amount
  rw [summaryHeaderSize] at bytes_lt
  have per_chunk : geo.sumBytesPerChunk = geo.dataBytesPerChunk.toNat - summaryHeaderSize := by
    rw [sumBytesPerChunk]
    apply intOfU32_u32OfInt <;> rw [summaryHeaderSize] <;> omega
  have all_bytes : summaryBytes (geo.param.chunksPerBlock.toNat - geo.chunksUsed) =
      summaryTagsSize * (geo.param.chunksPerBlock.toNat - geo.chunksUsed) := by
    rw [summaryBytes]
    apply intOfU32_u32OfInt <;> rw [summaryTagsSize] <;> omega
  have some_bytes : 0 < geo.sumBytesPerChunk := by
    rw [per_chunk, summaryHeaderSize]
    omega
  have left : 0 < summaryBytes (geo.param.chunksPerBlock.toNat - geo.chunksUsed) := by
    rw [all_bytes, summaryTagsSize]
    omega
  -- A page that is still begun has room before the end of the block.
  have last {turn : Int × Nat × Int}
    (later : (geo.param.chunksPerBlock.toNat - geo.chunksUsed : Int) ≤ turn.1)
      (begun : (turn.1 - (geo.param.chunksPerBlock.toNat - geo.chunksUsed)) * geo.sumBytesPerChunk <
        summaryBytes (geo.param.chunksPerBlock.toNat - geo.chunksUsed)) :
      turn.1 < geo.param.chunksPerBlock.toNat := by
    by_contra beyond
    have product : (geo.chunksUsed : Int) * geo.sumBytesPerChunk ≤
        (turn.1 - (geo.param.chunksPerBlock.toNat - geo.chunksUsed)) * geo.sumBytesPerChunk :=
      Int.mul_le_mul_of_nonneg_right (by omega) some_bytes.le
    have room' : (12 : Int) * (geo.param.chunksPerBlock.toNat - geo.chunksUsed) ≤
        geo.chunksUsed * (geo.dataBytesPerChunk.toNat - 16) := by
      have cast := Int.ofNat_le.mpr room
      push_cast [Nat.cast_sub lt.le, Nat.cast_sub
        (show 16 ≤ geo.dataBytesPerChunk.toNat by omega)] at cast
      exact cast
    rw [all_bytes, summaryTagsSize] at begun
    rw [per_chunk, summaryHeaderSize] at begun product
    push_cast at begun product
    omega
  refine ⟨fits.summaryInit longSize, ?_, by omega, by omega, ?_, ?_, ?_⟩
  · rw [summaryHeaderSize]
    omega
  · intro block result
    obtain ⟨out, turned, inside, total, -⟩ := summaryTurns_visits
      (fun chunkInBlock _ thisTx =>
        summaryWritePage result (geo.summaryChunk block chunkInBlock) thisTx)
      some_bytes (fun _ _ _ => summaryWritePage_isSome)
      (geo.param.chunksPerBlock.toNat - geo.chunksUsed) 1 left
    refine ⟨out, turned, ?_, ?_⟩
    · intro turn visited
      obtain ⟨later, begun⟩ := inside turn visited
      exact ⟨later, last later begun⟩
    · intro done
      rw [total done, all_bytes]
  · intro block answer
    obtain ⟨out, turned, inside, -, -⟩ := summaryTurns_visits
      (fun chunkInBlock chunkId thisTx =>
        summaryReadPage answer (geo.summaryChunk block chunkInBlock) chunkId thisTx)
      some_bytes (fun _ _ _ => summaryReadPage_isSome)
      (geo.param.chunksPerBlock.toNat - geo.chunksUsed) 1 left
    refine ⟨out, turned, ?_⟩
    intro turn visited
    obtain ⟨later, begun⟩ := inside turn visited
    exact ⟨later, last later begun⟩
  · intro block result answer pages wrote reads
    apply summaryTurns_same _ _ _ wrote
    intro turn visited written
    obtain ⟨tags, read, obj, chunk, used, ecc, bytes⟩ := reads turn visited
    have amount : ¬turn.2.2 < 0 := by
      intro negative
      rw [summaryWritePage, if_pos negative] at written
      cases written
    have good : ¬(tags.chunkId ≠ turn.2.1 ∨ tags.objId ≠ objectIdSummary ∨ tags.chunkUsed = false ∨
        EccResult.fixed.code < tags.eccResult.code ∨
        (tags.nBytes : Int) ≠ turn.2.2 + summaryHeaderSize) := by
      simp [obj, chunk, used, ecc, bytes]
    simp only [summaryReadPage, read, if_neg good, Bool.true_eq_false, if_false, if_neg amount]

/-- A number of pages that was computed with sums that may have wrapped. -/
theorem fit_of_used {chunks bytes used : Nat} (bytes_lt : bytes < 2 ^ 32) (room : 16 < bytes)
    (used_eq : used = (chunks * 12 + bytes + (2 ^ 32 - 1)) % 2 ^ 32 / (bytes - 16))
    (one_le : 1 ≤ used) (lt : used < chunks) (amount : 12 * (chunks - used) < 2 ^ 31) :
    (28 < bytes → 12 * chunks + bytes ≤ 2 ^ 32) ∧
      (12 * chunks + bytes ≤ 2 ^ 32 → 28 < bytes ∧ bytes ≤ chunks * (bytes - 28) ∧
        chunks * (bytes - 28) < 178956970 * (bytes - 16) + bytes) := by
  have rest := Nat.div_add_mod' ((chunks * 12 + bytes + (2 ^ 32 - 1)) % 2 ^ 32) (bytes - 16)
  have rest_lt := Nat.mod_lt ((chunks * 12 + bytes + (2 ^ 32 - 1)) % 2 ^ 32)
    (show 0 < bytes - 16 by omega)
  rw [← used_eq] at rest
  generalize (chunks * 12 + bytes + (2 ^ 32 - 1)) % 2 ^ 32 % (bytes - 16) = left at rest rest_lt
  have near : chunks ≤ used + 178956970 := by omega
  have some_used : 1 * (bytes - 16) ≤ used * (bytes - 16) := Nat.mul_le_mul_right _ one_le
  have most : chunks * (bytes - 16) ≤ (used + 178956970) * (bytes - 16) :=
    Nat.mul_le_mul_right _ near
  rw [Nat.add_mul] at most
  constructor
  · intro large
    by_contra wraps
    obtain ⟨more, size⟩ : ∃ more, bytes = more + 28 := ⟨bytes - 28, by omega⟩
    have room_eq : bytes - 16 = more + 12 := by omega
    -- With the wrapped sum a page could only be left if the block had very many of them.
    have many : 357913941 ≤ chunks := by omega
    have product : 357913941 * more ≤ chunks * more := Nat.mul_le_mul_right _ many
    rw [room_eq, Nat.mul_add] at most
    rw [room_eq] at rest
    omega
  · intro sum
    have whole : (chunks * 12 + bytes + (2 ^ 32 - 1)) % 2 ^ 32 = chunks * 12 + bytes - 1 := by omega
    rw [whole] at rest
    have beyond : (used + 1) * (bytes - 16) ≤ chunks * (bytes - 16) := Nat.mul_le_mul_right _ lt
    rw [Nat.add_mul] at beyond
    have large : 28 < bytes := by
      by_contra small
      have product : chunks * (bytes - 16) ≤ chunks * 12 := Nat.mul_le_mul_left _ (by omega)
      omega
    obtain ⟨more, size⟩ : ∃ more, bytes = more + 28 := ⟨bytes - 28, by omega⟩
    have room_eq : bytes - 16 = more + 12 := by omega
    have more_eq : bytes - 28 = more := by omega
    rw [room_eq, Nat.mul_add chunks] at most beyond
    rw [room_eq] at rest rest_lt
    rw [more_eq, room_eq]
    exact ⟨large, by omega, by omega⟩

/-- A writer that puts out all bytes has something to put out in each page. -/
theorem writes_all {chunksPerSummary : Int} {block : Nat} {out : List (Int × Nat × Int) × Bool}
    (one_le : 1 ≤ chunksPerSummary)
    (wrote : geo.summaryWrite chunksPerSummary block (fun _ => true) = some out)
    (total : out.2 → (out.1.map fun turn => turn.2.2).sum = summaryTagsSize * chunksPerSummary)
    (divides : summaryHeaderSize < geo.dataBytesPerChunk.toNat) :
    0 < geo.sumBytesPerChunk ∧ summaryBytes chunksPerSummary = summaryTagsSize *
      chunksPerSummary := by
  have amount : 0 ≤ min (summaryBytes chunksPerSummary) geo.sumBytesPerChunk := by
    by_contra negative
    rw [summaryWrite, summaryTurns.eq_def] at wrote
    simp only [summaryWritePage, if_pos (not_le.mp negative)] at wrote
    cases wrote
  have bound := UInt32.toNat_lt geo.dataBytesPerChunk
  have some_bytes : 0 < geo.sumBytesPerChunk := by
    have nonneg := (le_min_iff.mp amount).2
    obtain ⟨wraps, kept, low, high⟩ :=
      intOfU32_spec (geo.dataBytesPerChunk.toNat - summaryHeaderSize)
    rw [sumBytesPerChunk, kept] at nonneg ⊢
    rw [summaryHeaderSize] at divides low high nonneg ⊢
    omega
  refine ⟨some_bytes, ?_⟩
  obtain left | none_left := lt_or_eq_of_le (le_min_iff.mp amount).1
  · obtain ⟨out', turned, -, total', done⟩ := summaryTurns_visits
      (fun chunkInBlock _ thisTx =>
        summaryWritePage (fun _ => true) (geo.summaryChunk block chunkInBlock) thisTx)
      some_bytes (fun _ _ _ => summaryWritePage_isSome) chunksPerSummary 1 left
    obtain rfl : out' = out := Option.some.inj (turned.symm.trans wrote)
    have ended : out'.2 := by
      apply done
      intro chunk chunkId thisTx
      rw [summaryWritePage]
      split <;> simp
    exact (total' ended).symm.trans (total ended)
  · have empty : min 0 geo.sumBytesPerChunk = 0 := min_eq_left some_bytes.le
    have last : summaryTurns geo.sumBytesPerChunk
        (fun chunkInBlock _ thisTx =>
          summaryWritePage (fun _ => true) (geo.summaryChunk block chunkInBlock) thisTx)
        chunksPerSummary 1 0 = some ([(chunksPerSummary, 1, 0)], true) := by
      rw [summaryTurns.eq_def]
      simp [summaryWritePage, empty]
    rw [summaryWrite, ← none_left] at wrote
    obtain rfl := Option.some.inj (last.symm.trans wrote)
    have none_described : chunksPerSummary = 0 := by simpa [summaryTagsSize] using total rfl
    omega

theorem SummaryRight.used {chunksPerSummary : Int}
    (right : geo.SummaryRight longSize chunksPerSummary) :
    ∃ used : Nat, used = (geo.param.chunksPerBlock.toNat * 12 + geo.dataBytesPerChunk.toNat +
        (2 ^ 32 - 1)) % 2 ^ 32 / (geo.dataBytesPerChunk.toNat - 16) ∧
      1 ≤ used ∧ used < geo.param.chunksPerBlock.toNat ∧
      chunksPerSummary = geo.param.chunksPerBlock.toNat - used := by
  have sized := right.sized
  have bound := UInt32.toNat_lt geo.param.chunksPerBlock
  have one_le := right.one_le
  have lt := right.lt
  simp only [Geometry.summaryInit, summaryRoom_eq right.divides, summaryTagsSize,
    summaryHeaderSize] at sized
  split at sized
  case isTrue => cases sized
  case isFalse =>
    generalize used_eq : (geo.param.chunksPerBlock.toNat * 12 + geo.dataBytesPerChunk.toNat +
      (2 ^ 32 - 1)) % 2 ^ 32 / (geo.dataBytesPerChunk.toNat - 16) = used at sized ⊢
    have used_lt : used < 2 ^ 32 := by
      rw [← used_eq]
      exact (Nat.div_le_self ..).trans_lt (Nat.mod_lt _ (by omega))
    have value := Option.some.inj sized
    obtain ⟨wraps, kept, low, high⟩ := intOfU32_spec (geo.param.chunksPerBlock.toNat - used)
    exact ⟨used, rfl, by omega, by omega, by omega⟩

theorem SummaryRight.fits {chunksPerSummary : Int}
    (right : geo.SummaryRight longSize chunksPerSummary) :
    geo.SummaryFits ∨ geo.dataBytesPerChunk.toNat ≤ 28 ∧
      2 ^ 32 < summaryTagsSize * geo.param.chunksPerBlock.toNat + geo.dataBytesPerChunk.toNat := by
  obtain ⟨used, used_eq, one_le, lt, described⟩ := right.used
  obtain ⟨out, wrote, -, total⟩ := right.writes 0 fun _ => true
  obtain ⟨some_bytes, all_bytes⟩ := writes_all right.one_le wrote total right.divides
  have divides := right.divides
  rw [summaryHeaderSize] at divides
  have bytes_lt := UInt32.toNat_lt geo.dataBytesPerChunk
  have amount : 12 * (geo.param.chunksPerBlock.toNat - used) < 2 ^ 31 := by
    obtain ⟨wraps, kept, low, high⟩ := intOfU32_spec (summaryTagsSize * chunksPerSummary)
    rw [summaryBytes, kept] at all_bytes
    rw [summaryTagsSize] at all_bytes low high
    omega
  obtain ⟨no_wrap, fits⟩ := fit_of_used bytes_lt divides used_eq one_le lt amount
  have per_chunk : geo.dataBytesPerChunk.toNat < 2 ^ 31 + 16 := by
    obtain ⟨wraps, kept, low, high⟩ :=
      intOfU32_spec (geo.dataBytesPerChunk.toNat - summaryHeaderSize)
    rw [sumBytesPerChunk, kept] at some_bytes
    rw [summaryHeaderSize] at some_bytes low high
    omega
  simp only [summaryTagsSize]
  by_cases sum : 12 * geo.param.chunksPerBlock.toNat + geo.dataBytesPerChunk.toNat ≤ 2 ^ 32
  · obtain ⟨room, enough, few⟩ := fits sum
    exact .inl ⟨room, per_chunk, sum, enough, few⟩
  · exact .inr ⟨not_lt.mp fun large => sum (no_wrap large), not_le.mp sum⟩

/-- Summaries are right in geometries that fit, and in no others unless pages are tiny and the sum
of the sizes wraps as well. -/
theorem summaryRight_of_fits (geo : Geometry) (longSize : Bool) :
    (geo.SummaryFits → ∃ chunksPerSummary, geo.SummaryRight longSize chunksPerSummary) ∧
      ((∃ chunksPerSummary, geo.SummaryRight longSize chunksPerSummary) →
        geo.SummaryFits ∨ geo.dataBytesPerChunk.toNat ≤ 28 ∧
          2 ^ 32 < summaryTagsSize * geo.param.chunksPerBlock.toNat +
            geo.dataBytesPerChunk.toNat) := by
  constructor
  · intro fits
    exact ⟨_, fits.right longSize⟩
  · rintro ⟨chunksPerSummary, right⟩
    exact right.fits

end Geometry

namespace GeometryParam

/-- Inband tags in pages of 32 bytes. -/
def tinyPages : GeometryParam :=
  { oneGigabit with inbandTags := true, totalBytesPerChunk := 32 }

/-- The sizing of the summaries divides by zero. -/
theorem not_summaryRight_tinyPages :
    ¬∀ (param : GeometryParam) (geo : Geometry) (longSize : Bool), param.llInit = some geo →
      param.isYaffs2 = true → param.disableSummary = false →
      ∃ chunksPerSummary, geo.SummaryRight longSize chunksPerSummary := by
  intro claim
  obtain ⟨chunksPerSummary, right⟩ :=
    claim tinyPages ⟨tinyPages, 1, 1024, 16⟩ false (by rfl) rfl rfl
  exact absurd right.divides (by decide)

end GeometryParam

end Yaffs
