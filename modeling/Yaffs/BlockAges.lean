import Yaffs.Books
import Mathlib.Logic.Relation

/-!
# Ages of blocks

What the choice of a block for collection goes by: the state and the sequence number of each block,
whether pages of it have been discarded, and whether it holds a shrink header.  Whatever the code
does to them between two choices is a sequence of a few elementary shifts, and these keep the blocks
ranked: what is remembered for collection is no younger than any full block with discarded pages.
-/

namespace Yaffs

/-- What the choice reads of one block. -/
structure BlockAge where
  state : BlockState
  seqNumber : Nat
  /-- Fewer pages than the block has are in use. -/
  discarded : Bool
  hasShrinkHdr : Bool

/-- The part of the device that the choice of a block is about. -/
structure BlockAges where
  isYaffs2 : Bool
  chunksPerBlock : Nat
  first : Nat
  last : Nat
  age : Nat → BlockAge
  seqNumber : Nat
  allocBlock : Option Nat
  allocPage : Nat
  gcBlock : Nat
  gcDirtiest : Nat
  oldestDirtySeq : Nat
  oldestDirtyBlock : Nat

/-- The block holds pages, or takes them. -/
def BlockState.Busy (state : BlockState) : Prop := state = .allocating ∨ Sheet.Held state

theorem BlockState.Busy.of_held {state : BlockState} (held : Sheet.Held state) : state.Busy :=
  .inr held

theorem not_held_of_allocating {state : BlockState} (allocating : state = .allocating) :
    ¬Sheet.Held state := by
  rintro (full | collecting) <;> simp_all

namespace BlockAges

variable (ages : BlockAges)

/-- The blocks of the device. -/
def blocks : Finset Nat := Finset.Icc ages.first ages.last

/-- Replace what is known of one block. -/
def put (block : Nat) (age : BlockAge) : BlockAges :=
  { ages with age := Function.update ages.age block age }

@[simp]
theorem put_age (block other : Nat) (age : BlockAge) :
    (ages.put block age).age other = if other = block then age else ages.age other := by
  simp [put, Function.update_apply]

@[simp]
theorem put_blocks (block : Nat) (age : BlockAge) : (ages.put block age).blocks = ages.blocks := rfl

/-- Zero, or a block that holds pages. -/
def Target (block : Nat) : Prop :=
  block ≠ 0 → block ∈ ages.blocks ∧ Sheet.Held (ages.age block).state

/-- No dirty block that is known is younger than this one. -/
def Low (block : Nat) : Prop :=
  ages.oldestDirtySeq ≠ 0 → ages.oldestDirtySeq ≤ (ages.age block).seqNumber

/-- No block with a shrink header that is remembered is younger than this one. -/
def Clear (block : Nat) : Prop :=
  ages.gcDirtiest ≠ 0 → (ages.age ages.gcDirtiest).hasShrinkHdr = true →
    (ages.age ages.gcDirtiest).seqNumber ≤ (ages.age block).seqNumber

/-- Forget a block that the collector has been pointed at. -/
def drop (block pointer : Nat) : Nat := if block = pointer then 0 else pointer

/-- What is remembered for collection is no younger than any full block with discarded pages, the
block that is being collected apart. -/
structure Ranked : Prop where
  isYaffs2 : ages.isYaffs2 = true
  pages_pos : 0 < ages.chunksPerBlock
  first_pos : 0 < ages.first
  first_le : ages.first ≤ ages.last
  page_lt : ∀ block, ages.allocBlock = some block → ages.allocPage < ages.chunksPerBlock
  allocating : ∀ block ∈ ages.blocks, (ages.age block).state = .allocating →
    ages.allocBlock = some block
  allocBlock : ∀ block, ages.allocBlock = some block → block ∈ ages.blocks ∧
    (ages.age block).state = .allocating ∧ (ages.age block).seqNumber = ages.seqNumber
  seq_le : ∀ block ∈ ages.blocks, Sheet.Held (ages.age block).state →
    (ages.age block).seqNumber ≤ ages.seqNumber
  gcBlock : ages.Target ages.gcBlock
  gcDirtiest : ages.Target ages.gcDirtiest
  oldest : ages.Target ages.oldestDirtyBlock
  oldest_seq : ages.oldestDirtyBlock ≠ 0 →
    (ages.age ages.oldestDirtyBlock).seqNumber = ages.oldestDirtySeq
  oldest_le : ages.oldestDirtySeq ≤ ages.seqNumber
  low : ∀ block ∈ ages.blocks, (ages.age block).state = .full →
    (ages.age block).discarded = true → ages.Low block
  clear : ∀ block ∈ ages.blocks, (ages.age block).state = .full →
    (ages.age block).discarded = true → block ≠ ages.gcBlock → ages.Clear block

/-- What happens to the blocks between two choices. -/
inductive Shift : BlockAges → BlockAges → Prop
  /-- A block without pages is erased, taken for the checkpoint or given up. -/
  | idle (ages : BlockAges) (block : Nat) (age : BlockAge) (was : ¬(ages.age block).state.Busy)
      (is : ¬age.state.Busy) : Shift ages (ages.put block age)
  /-- An erased block is taken to allocate from. -/
  | take (ages : BlockAges) (block : Nat) (age : BlockAge) (mem : block ∈ ages.blocks)
      (was : ¬(ages.age block).state.Busy) (none : ages.allocBlock = none)
      (state : age.state = .allocating) (seq : age.seqNumber = ages.seqNumber + 1) :
      Shift ages { ages.put block age with
        seqNumber := ages.seqNumber + 1, allocBlock := some block, allocPage := 0 }
  /-- Another page of the allocation block is next. -/
  | page (ages : BlockAges) (allocPage : Nat)
      (fits : ∀ block, ages.allocBlock = some block → allocPage < ages.chunksPerBlock) :
      Shift ages { ages with allocPage }
  /-- The allocation block is full or left alone. -/
  | fill (ages : BlockAges) (block : Nat) (alloc : ages.allocBlock = some block) :
      Shift ages { ages.put block { ages.age block with state := .full } with allocBlock := none }
  /-- The pages in use of a block are counted anew. -/
  | count (ages : BlockAges) (block : Nat) (discarded : Bool)
      (low : Sheet.Held (ages.age block).state → ages.Low block)
      (clear : (ages.age block).state = .full → block ≠ ages.gcBlock → ages.Clear block) :
      Shift ages (ages.put block { ages.age block with discarded })
  /-- A block is older than the oldest dirty block that was known. -/
  | note (ages : BlockAges) (block : Nat) (mem : block ∈ ages.blocks)
      (held : Sheet.Held (ages.age block).state)
      (older : (ages.age block).seqNumber < ages.oldestDirtySeq) :
      Shift ages { ages with
        oldestDirtySeq := (ages.age block).seqNumber, oldestDirtyBlock := block }
  /-- The oldest dirty block is no longer known. -/
  | forget (ages : BlockAges) : Shift ages { ages with oldestDirtySeq := 0, oldestDirtyBlock := 0 }
  /-- A block that has lost its last page is to be erased. -/
  | soil (ages : BlockAges) (block : Nat) (age : BlockAge) (mem : block ∈ ages.blocks)
      (held : Sheet.Held (ages.age block).state) (is : ¬age.state.Busy)
      (known : ages.oldestDirtyBlock ≠ block) :
      Shift ages { ages.put block age with
        gcBlock := drop block ages.gcBlock, gcDirtiest := drop block ages.gcDirtiest }
  /-- A block is collected, so that its shrink header does not count any more. -/
  | unmark (ages : BlockAges) (block : Nat) :
      Shift ages (ages.put block { ages.age block with hasShrinkHdr := false })
  /-- A shrink header has been written to a block that is not remembered. -/
  | mark (ages : BlockAges) (block : Nat) (apart : ages.gcDirtiest ≠ block) :
      Shift ages (ages.put block { ages.age block with hasShrinkHdr := true })

/-- Any number of shifts. -/
abbrev Shifts : BlockAges → BlockAges → Prop := Relation.ReflTransGen Shift

variable {ages after : BlockAges} {block : Nat}

theorem Shift.blocks_eq (shift : Shift ages after) : after.blocks = ages.blocks := by
  cases shift <;> rfl

theorem Shift.chunksPerBlock_eq (shift : Shift ages after) :
    after.chunksPerBlock = ages.chunksPerBlock := by
  cases shift <;> rfl

namespace Ranked

theorem idle (ranked : ages.Ranked) {age : BlockAge} (was : ¬(ages.age block).state.Busy)
    (is : ¬age.state.Busy) : (ages.put block age).Ranked := by
  obtain ⟨isYaffs2, pages_pos, first_pos, first_le, page_lt, allocating, allocBlock,
    seq_le, gcBlock,
    gcDirtiest, oldest, oldest_seq, oldest_le, low, clear⟩ := ranked
  constructor <;> simp only [put_age, put_blocks, Target, Low, Clear] at * <;>
    grind [put, BlockState.Busy, Sheet.Held]

theorem take (ranked : ages.Ranked) {age : BlockAge} (mem : block ∈ ages.blocks)
    (was : ¬(ages.age block).state.Busy) (none : ages.allocBlock = none)
    (state : age.state = .allocating) (seq : age.seqNumber = ages.seqNumber + 1) :
    ({ ages.put block age with
      seqNumber := ages.seqNumber + 1, allocBlock := some block, allocPage := 0 } :
        BlockAges).Ranked := by
  obtain ⟨isYaffs2, pages_pos, first_pos, first_le, page_lt, allocating, allocBlock,
    seq_le, gcBlock,
    gcDirtiest, oldest, oldest_seq, oldest_le, low, clear⟩ := ranked
  constructor <;> simp only [put_age, Target, Low, Clear, blocks] at * <;>
    grind [put, BlockState.Busy, Sheet.Held]

theorem page (ranked : ages.Ranked) {allocPage : Nat}
    (fits : ∀ block, ages.allocBlock = some block → allocPage < ages.chunksPerBlock) :
    ({ ages with allocPage } : BlockAges).Ranked :=
  { ranked with page_lt := fits }

theorem fill (ranked : ages.Ranked) (alloc : ages.allocBlock = some block) :
    ({ ages.put block { ages.age block with state := .full } with allocBlock := none } :
      BlockAges).Ranked := by
  obtain ⟨isYaffs2, pages_pos, first_pos, first_le, page_lt, allocating, allocBlock,
    seq_le, gcBlock,
    gcDirtiest, oldest, oldest_seq, oldest_le, low, clear⟩ := ranked
  constructor <;> simp only [put_age, Target, Low, Clear, blocks] at * <;>
    grind [put, BlockState.Busy, Sheet.Held]

theorem count (ranked : ages.Ranked) {discarded : Bool}
    (low : Sheet.Held (ages.age block).state → ages.Low block)
    (clear : (ages.age block).state = .full → block ≠ ages.gcBlock → ages.Clear block) :
    (ages.put block { ages.age block with discarded }).Ranked := by
  obtain ⟨isYaffs2, pages_pos, first_pos, first_le, page_lt, allocating, allocBlock,
    seq_le, gcBlock,
    gcDirtiest, oldest, oldest_seq, oldest_le, low', clear'⟩ := ranked
  constructor <;> simp only [put_age, put_blocks, Target, Low, Clear] at * <;>
    grind [put, Sheet.Held]

theorem note (ranked : ages.Ranked) (mem : block ∈ ages.blocks)
    (held : Sheet.Held (ages.age block).state)
    (older : (ages.age block).seqNumber < ages.oldestDirtySeq) :
    ({ ages with oldestDirtySeq := (ages.age block).seqNumber, oldestDirtyBlock := block } :
      BlockAges).Ranked :=
  { ranked with
    oldest := fun _ => ⟨mem, held⟩
    oldest_seq := fun _ => rfl
    oldest_le := older.le.trans ranked.oldest_le
    low := fun other other_mem full discarded _ =>
      older.le.trans (ranked.low other other_mem full discarded (by omega)) }

theorem forget (ranked : ages.Ranked) :
    ({ ages with oldestDirtySeq := 0, oldestDirtyBlock := 0 } : BlockAges).Ranked :=
  { ranked with
    oldest := nofun
    oldest_seq := fun known => absurd rfl known
    oldest_le := Nat.zero_le _
    low := fun _ _ _ _ known => absurd rfl known }

theorem soil (ranked : ages.Ranked) {age : BlockAge} (mem : block ∈ ages.blocks)
    (held : Sheet.Held (ages.age block).state) (is : ¬age.state.Busy)
    (known : ages.oldestDirtyBlock ≠ block) :
    ({ ages.put block age with
      gcBlock := drop block ages.gcBlock, gcDirtiest := drop block ages.gcDirtiest } :
        BlockAges).Ranked := by
  obtain ⟨isYaffs2, pages_pos, first_pos, first_le, page_lt, allocating, allocBlock,
    seq_le, gcBlock,
    gcDirtiest, oldest, oldest_seq, oldest_le, low, clear⟩ := ranked
  constructor <;> simp only [put_age, Target, Low, Clear, blocks] at * <;>
    grind [put, drop, BlockState.Busy, Sheet.Held]

theorem unmark (ranked : ages.Ranked) :
    (ages.put block { ages.age block with hasShrinkHdr := false }).Ranked := by
  obtain ⟨isYaffs2, pages_pos, first_pos, first_le, page_lt, allocating, allocBlock,
    seq_le, gcBlock,
    gcDirtiest, oldest, oldest_seq, oldest_le, low, clear⟩ := ranked
  constructor <;> simp only [put_age, put_blocks, Target, Low, Clear] at * <;>
    grind [put, Sheet.Held]

theorem mark (ranked : ages.Ranked) (apart : ages.gcDirtiest ≠ block) :
    (ages.put block { ages.age block with hasShrinkHdr := true }).Ranked := by
  obtain ⟨isYaffs2, pages_pos, first_pos, first_le, page_lt, allocating, allocBlock,
    seq_le, gcBlock,
    gcDirtiest, oldest, oldest_seq, oldest_le, low, clear⟩ := ranked
  constructor <;> simp only [put_age, put_blocks, Target, Low, Clear] at * <;>
    grind [put, Sheet.Held]

/-- Every shift keeps the blocks ranked. -/
theorem shift (ranked : ages.Ranked) (shift : Shift ages after) : after.Ranked := by
  cases shift with
  | idle _ _ was is => exact ranked.idle was is
  | take _ _ mem was none state seq => exact ranked.take mem was none state seq
  | page _ fits => exact ranked.page fits
  | fill _ alloc => exact ranked.fill alloc
  | count _ _ low clear => exact ranked.count low clear
  | note _ mem held older => exact ranked.note mem held older
  | forget => exact ranked.forget
  | soil _ _ mem held is known => exact ranked.soil mem held is known
  | unmark => exact ranked.unmark
  | mark _ apart => exact ranked.mark apart

end Ranked

/-- A block that is being collected has been so before, and what was known of it still is. -/
theorem Ranked.collecting (ranked : ages.Ranked) (shift : Shift ages after)
    (state : (after.age block).state = .collecting) :
    (ages.age block).state = .collecting ∧
      (after.age block).seqNumber = (ages.age block).seqNumber ∧
      (ages.Low block → after.Low block) ∧ (ages.gcBlock = block → after.gcBlock = block) ∧
      (after.Low block ∨ (after.age block).discarded = (ages.age block).discarded) := by
  have gcDirtiest := ranked.gcDirtiest
  cases shift <;> simp only [put_age, Target, Low, Clear] at * <;>
    grind [put, drop, BlockState.Busy, Sheet.Held]

/-- A block that is being collected goes on being collected, or is no longer pointed at. -/
theorem Ranked.pointed (ranked : ages.Ranked) (shift : Shift ages after)
    (state : (ages.age block).state = .collecting) (pointed : ages.gcBlock = block) :
    (after.age block).state = .collecting ∧ after.gcBlock = block ∨ after.gcBlock = 0 := by
  have allocBlock := ranked.allocBlock
  cases shift <;> simp only [put_age] <;> grind [put, drop, BlockState.Busy, Sheet.Held]

/-- The dirtiest block is only forgotten. -/
theorem Shift.gcDirtiest (shift : Shift ages after) :
    after.gcDirtiest = ages.gcDirtiest ∨ after.gcDirtiest = 0 := by
  cases shift with
  | soil =>
    simp only [drop]
    split
    · exact .inr rfl
    · exact .inl rfl
  | _ => exact .inl rfl

namespace Shifts

theorem blocks_eq (shifts : Shifts ages after) : after.blocks = ages.blocks := by
  induction shifts with
  | refl => rfl
  | tail _ shift ih => exact shift.blocks_eq.trans ih

theorem chunksPerBlock_eq (shifts : Shifts ages after) : after.chunksPerBlock =
    ages.chunksPerBlock := by
  induction shifts with
  | refl => rfl
  | tail _ shift ih => exact shift.chunksPerBlock_eq.trans ih

theorem ranked (shifts : Shifts ages after) (ranked : ages.Ranked) : after.Ranked := by
  induction shifts with
  | refl => exact ranked
  | tail _ shift ih => exact ih.shift shift

theorem gcDirtiest (shifts : Shifts ages after) :
    after.gcDirtiest = ages.gcDirtiest ∨ after.gcDirtiest = 0 := by
  induction shifts with
  | refl => exact .inl rfl
  | tail _ shift ih =>
    rcases shift.gcDirtiest with same | none
    · rwa [same]
    · exact .inr none

theorem collecting (shifts : Shifts ages after) (ranked : ages.Ranked)
    (state : (after.age block).state = .collecting) :
    (ages.age block).state = .collecting ∧
      (after.age block).seqNumber = (ages.age block).seqNumber ∧
      (ages.Low block → after.Low block) ∧ (ages.gcBlock = block → after.gcBlock = block) ∧
      (after.Low block ∨ (after.age block).discarded = (ages.age block).discarded) := by
  induction shifts with
  | refl => exact ⟨state, rfl, id, id, .inr rfl⟩
  | tail shifts shift ih =>
    obtain ⟨state', seq, low, pointed, same⟩ := (Shifts.ranked shifts ranked).collecting shift state
    obtain ⟨state'', seq', low', pointed', same'⟩ := ih state'
    refine ⟨state'', seq.trans seq', low ∘ low', pointed ∘ pointed', ?_⟩
    rcases same with now | same
    · exact .inl now
    · exact same'.imp low same.trans

theorem gcBlock_zero (shifts : Shifts ages after) (idle : ages.gcBlock = 0) :
    after.gcBlock = 0 := by
  induction shifts with
  | refl => exact idle
  | tail _ shift ih =>
    cases shift with
    | soil => simp [drop, ih]
    | _ => exact ih

theorem pointed (shifts : Shifts ages after) (ranked : ages.Ranked)
    (state : (ages.age block).state = .collecting) (pointed : ages.gcBlock = block) :
    (after.age block).state = .collecting ∧ after.gcBlock = block ∨ after.gcBlock = 0 := by
  induction shifts with
  | refl => exact .inl ⟨state, pointed⟩
  | tail shifts shift ih =>
    rcases ih with ⟨state, pointed⟩ | idle
    · exact (Shifts.ranked shifts ranked).pointed shift state pointed
    · exact .inr (Shifts.gcBlock_zero (.single shift) idle)

end Shifts

/-! ## A block that pages are written to -/

/-- The block has the newest sequence number. -/
structure Fresh (ages : BlockAges) (block : Nat) : Prop where
  mem : block ∈ ages.blocks
  busy : (ages.age block).state.Busy
  seq : (ages.age block).seqNumber = ages.seqNumber

theorem Fresh.low (fresh : ages.Fresh block) (ranked : ages.Ranked) : ages.Low block :=
  fun _ => fresh.seq ▸ ranked.oldest_le

theorem Fresh.clear (fresh : ages.Fresh block) (ranked : ages.Ranked) : ages.Clear block := by
  intro remembered _
  obtain ⟨mem, held⟩ := ranked.gcDirtiest remembered
  rw [fresh.seq]
  exact ranked.seq_le _ mem held

/-- The allocation block is not remembered. -/
theorem Ranked.apart (ranked : ages.Ranked) (alloc : ages.allocBlock = some block) :
    ages.gcDirtiest ≠ block := by
  obtain ⟨mem, state, -⟩ := ranked.allocBlock block alloc
  have positive := ranked.first_pos.trans_le (Finset.mem_Icc.mp mem).1
  rintro rfl
  exact not_held_of_allocating state (ranked.gcDirtiest positive.ne').2

theorem Ranked.fresh (ranked : ages.Ranked) (alloc : ages.allocBlock = some block) :
    ages.Fresh block := by
  obtain ⟨mem, state, seq⟩ := ranked.allocBlock block alloc
  exact ⟨mem, .inl state, seq⟩

end BlockAges

end Yaffs
