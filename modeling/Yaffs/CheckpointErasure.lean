import Yaffs.Checkpoint
import Yaffs.Library.Growth

/-!
# Erasing a checkpoint

What the erasure of the checkpoint blocks does to the device: no block of the device is left in the
checkpoint state, no other block is touched, and every block that leaves the state has been erased
or marked bad.
-/

namespace Yaffs

/-- How the erasure may change the state of a block. -/
def BlockState.Released (before after : BlockState) : Prop :=
  after = before ∨ before = .checkpoint ∧ (after = .empty ∨ after = .dead)

theorem BlockState.Released.refl (state : BlockState) : state.Released state := .inl rfl

theorem BlockState.Released.trans {first second third : BlockState}
    (left : first.Released second) (right : second.Released third) : first.Released third := by
  rcases left with rfl | ⟨rfl, rfl | rfl⟩
  · exact right
  · rcases right with rfl | ⟨absurd_state, _⟩
    · exact .inr ⟨rfl, .inl rfl⟩
    · cases absurd_state
  · rcases right with rfl | ⟨absurd_state, _⟩
    · exact .inr ⟨rfl, .inr rfl⟩
    · cases absurd_state

/-- An entry made by the checkpoint layer that erases a block or marks it bad. -/
def Event.IsCheckptErasure (event : Event) : Prop :=
  event.layer = .checkpt ∧ ∃ block, event.op = .erase block ∨ event.op = .markBad block

/-- An entry that erases this block or marks it bad. -/
def Event.Frees (block : Nat) (event : Event) : Prop :=
  event.op = .erase block ∨ event.op = .markBad block

namespace Dev

open Growth

variable {Flash : Type} (T : Tagger Flash) (dev : Dev Flash)

/-! ## One block -/

/-- The three outcomes of erasing one block: it is no checkpoint block, it has been erased, or it
has failed to erase and has been marked bad. -/
theorem checkptEraseBlock_cases (block : Nat) :
    dev.blockState block ≠ .checkpoint ∧ dev.checkptEraseBlock T block = dev ∨
    dev.blockState block = .checkpoint ∧
      ((∃ flash, dev.checkptEraseBlock T block =
        { dev.setBlockState block .empty with
          flash
          log := dev.entry .checkpt (.erase block) :: dev.log
          nErasedBlocks := dev.nErasedBlocks + 1
          nFreeChunks := dev.nFreeChunks + dev.param.chunksPerBlock }) ∨
      ∃ flash, dev.checkptEraseBlock T block =
        { dev.setBlockState block .dead with
          flash
          log := dev.entry .checkpt (.markBad block) ::
            dev.entry .checkpt (.erase block) :: dev.log }) := by
  by_cases is_checkpoint : dev.blockState block = .checkpoint
  · refine .inr ⟨is_checkpoint, ?_⟩
    simp only [checkptEraseBlock, if_pos is_checkpoint]
    split
    · exact .inl ⟨_, rfl⟩
    · exact .inr ⟨_, rfl⟩
  · exact .inl ⟨is_checkpoint, by simp only [checkptEraseBlock, if_neg is_checkpoint]⟩

/-- Erasing one block changes the flash, the log, the block table and the counts of erased blocks
and free chunks, and nothing else. -/
theorem checkptEraseBlock_frame (block : Nat) :
    ∃ flash log blockInfo nErasedBlocks nFreeChunks,
      dev.checkptEraseBlock T block =
        { dev with flash, log, blockInfo, nErasedBlocks, nFreeChunks } := by
  rcases dev.checkptEraseBlock_cases T block with ⟨_, eq⟩ | ⟨_, ⟨_, eq⟩ | ⟨_, eq⟩⟩
  all_goals exact ⟨_, _, _, _, _, eq⟩

theorem checkptEraseBlock_blockState (block other : Nat) :
    (dev.blockState other).Released ((dev.checkptEraseBlock T block).blockState other) ∧
      (other = block → (dev.checkptEraseBlock T block).blockState other ≠ .checkpoint) := by
  rcases dev.checkptEraseBlock_cases T block with
    ⟨not_checkpoint, eq⟩ | ⟨is_checkpoint, ⟨_, eq⟩ | ⟨_, eq⟩⟩
  · rw [eq]
    exact ⟨.refl _, fun same => same ▸ not_checkpoint⟩
  · have state : (dev.checkptEraseBlock T block).blockState other =
        if other = block then .empty else dev.blockState other := by
      rw [eq]
      exact dev.blockState_setBlockState block other .empty
    rw [state]
    split
    case isTrue same => exact ⟨.inr ⟨same ▸ is_checkpoint, .inl rfl⟩, by simp⟩
    case isFalse differ => exact ⟨.refl _, fun same => absurd same differ⟩
  · have state : (dev.checkptEraseBlock T block).blockState other =
        if other = block then .dead else dev.blockState other := by
      rw [eq]
      exact dev.blockState_setBlockState block other .dead
    rw [state]
    split
    case isTrue same => exact ⟨.inr ⟨same ▸ is_checkpoint, .inr rfl⟩, by simp⟩
    case isFalse differ => exact ⟨.refl _, fun same => absurd same differ⟩

/-- The log grows by erasures, and a block that leaves the checkpoint state is among them. -/
theorem checkptEraseBlock_log (block : Nat) :
    ∃ added, (dev.checkptEraseBlock T block).log = added ++ dev.log ∧
      (∀ event ∈ added, event.IsCheckptErasure) ∧
      ∀ other, dev.blockState other = .checkpoint →
        (dev.checkptEraseBlock T block).blockState other = .checkpoint ∨
          ∃ event ∈ added, event.Frees other := by
  have kept : ∀ other, other ≠ block → dev.blockState other = .checkpoint →
      (dev.checkptEraseBlock T block).blockState other = .checkpoint := by
    intro other differ before
    rcases dev.checkptEraseBlock_cases T block with ⟨_, eq⟩ | ⟨_, ⟨_, eq⟩ | ⟨_, eq⟩⟩
    · rw [eq, before]
    · rw [eq]
      exact (dev.blockState_setBlockState block other .empty).trans (by rw [if_neg differ, before])
    · rw [eq]
      exact (dev.blockState_setBlockState block other .dead).trans (by rw [if_neg differ, before])
  rcases dev.checkptEraseBlock_cases T block with
    ⟨not_checkpoint, eq⟩ | ⟨_, ⟨_, eq⟩ | ⟨_, eq⟩⟩
  · refine ⟨[], by rw [eq]; rfl, by simp, fun other before => .inl ?_⟩
    rw [eq, before]
  · refine ⟨[dev.entry .checkpt (.erase block)], by rw [eq]; rfl, ?_, fun other before => ?_⟩
    · simp [Event.IsCheckptErasure, entry]
    · by_cases same : other = block
      · subst same
        exact .inr ⟨_, List.mem_singleton_self _, .inl rfl⟩
      · exact .inl (kept other same before)
  · refine ⟨[dev.entry .checkpt (.markBad block), dev.entry .checkpt (.erase block)],
      by rw [eq]; rfl, ?_, fun other before => ?_⟩
    · simp [Event.IsCheckptErasure, entry]
    · by_cases same : other = block
      · subst same
        exact .inr ⟨_, List.mem_cons_self, .inr rfl⟩
      · exact .inl (kept other same before)

/-! ## All blocks -/

/-- Erase the blocks of a list. -/
def checkptEraseBlocks (blocks : List Nat) : Dev Flash :=
  blocks.foldl (fun dev block => dev.checkptEraseBlock T block) dev

@[simp]
theorem checkptEraseBlocks_nil : dev.checkptEraseBlocks T [] = dev := rfl

@[simp]
theorem checkptEraseBlocks_cons (block : Nat) (blocks : List Nat) :
    dev.checkptEraseBlocks T (block :: blocks) =
      (dev.checkptEraseBlock T block).checkptEraseBlocks T blocks := rfl

theorem checkptErase_eq :
    dev.checkptErase T = { dev.checkptEraseBlocks T dev.blockList with blocksInCheckpt := 0 } := rfl

theorem checkptEraseBlocks_frame (blocks : List Nat) :
    ∃ flash log blockInfo nErasedBlocks nFreeChunks,
      dev.checkptEraseBlocks T blocks =
        { dev with flash, log, blockInfo, nErasedBlocks, nFreeChunks } := by
  induction blocks generalizing dev with
  | nil => exact ⟨_, _, _, _, _, rfl⟩
  | cons block blocks ih =>
    obtain ⟨flash, log, blockInfo, nErased, nFree, first⟩ := dev.checkptEraseBlock_frame T block
    obtain ⟨_, _, _, _, _, rest⟩ := ih (dev.checkptEraseBlock T block)
    rw [checkptEraseBlocks_cons, rest, first]
    exact ⟨_, _, _, _, _, rfl⟩

theorem checkptEraseBlocks_blockState (blocks : List Nat) (other : Nat) :
    (dev.blockState other).Released ((dev.checkptEraseBlocks T blocks).blockState other) ∧
      (other ∈ blocks → (dev.checkptEraseBlocks T blocks).blockState other ≠ .checkpoint) := by
  induction blocks generalizing dev with
  | nil => exact ⟨.refl _, by simp⟩
  | cons block blocks ih =>
    have first := dev.checkptEraseBlock_blockState T block other
    have rest := ih (dev.checkptEraseBlock T block)
    refine ⟨first.1.trans rest.1, fun other_mem => ?_⟩
    rcases List.mem_cons.mp other_mem with same | later
    · rcases rest.1 with eq | ⟨absurd_state, _⟩
      · rw [checkptEraseBlocks_cons, eq]
        exact first.2 same
      · exact absurd absurd_state (first.2 same)
    · exact rest.2 later

theorem checkptEraseBlocks_log (blocks : List Nat) :
    ∃ added, (dev.checkptEraseBlocks T blocks).log = added ++ dev.log ∧
      (∀ event ∈ added, event.IsCheckptErasure) ∧
      ∀ other, dev.blockState other = .checkpoint →
        (dev.checkptEraseBlocks T blocks).blockState other = .checkpoint ∨
          ∃ event ∈ added, event.Frees other := by
  induction blocks generalizing dev with
  | nil => exact ⟨[], rfl, by simp, fun _ before => .inl before⟩
  | cons block blocks ih =>
    obtain ⟨early, early_eq, early_all, early_frees⟩ := dev.checkptEraseBlock_log T block
    obtain ⟨late, late_eq, late_all, late_frees⟩ := ih (dev.checkptEraseBlock T block)
    refine ⟨late ++ early, ?_, ?_, fun other before => ?_⟩
    · rw [checkptEraseBlocks_cons, late_eq, early_eq, List.append_assoc]
    · intro event event_mem
      rcases List.mem_append.mp event_mem with in_late | in_early
      · exact late_all event in_late
      · exact early_all event in_early
    · rcases early_frees other before with still | ⟨event, event_mem, frees⟩
      · rcases late_frees other still with kept | ⟨event, event_mem, frees⟩
        · exact .inl kept
        · exact .inr ⟨event, List.mem_append_left _ event_mem, frees⟩
      · exact .inr ⟨event, List.mem_append_right _ event_mem, frees⟩

/-- Erasing the checkpoint leaves everything alone but the flash, the log, the block table and the
counts of blocks. -/
theorem checkptErase_frame :
    ∃ flash log blockInfo nErasedBlocks nFreeChunks,
      dev.checkptErase T =
        { dev with
          flash, log, blockInfo, nErasedBlocks, nFreeChunks
          blocksInCheckpt := 0 } := by
  obtain ⟨_, _, _, _, _, eq⟩ := dev.checkptEraseBlocks_frame T dev.blockList
  rw [checkptErase_eq, eq]
  exact ⟨_, _, _, _, _, rfl⟩

/-- After the erasure no block of the device is in the checkpoint state. -/
theorem checkptErase_blockState (other : Nat) :
    (dev.blockState other).Released ((dev.checkptErase T).blockState other) ∧
      (other ∈ dev.blocks → (dev.checkptErase T).blockState other ≠ .checkpoint) := by
  have spec := dev.checkptEraseBlocks_blockState T dev.blockList other
  exact ⟨spec.1, fun other_mem => spec.2 ((dev.mem_blockList other).mpr other_mem)⟩

theorem checkptErase_log :
    ∃ added, (dev.checkptErase T).log = added ++ dev.log ∧
      (∀ event ∈ added, event.IsCheckptErasure) ∧
      ∀ other, dev.blockState other = .checkpoint →
        (dev.checkptErase T).blockState other = .checkpoint ∨
          ∃ event ∈ added, event.Frees other :=
  dev.checkptEraseBlocks_log T dev.blockList

end Dev

end Yaffs
