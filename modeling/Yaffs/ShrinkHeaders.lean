import Yaffs.BlockShifts
import Yaffs.BalancedRuns

/-!
# Blocks with shrink headers

A block with a shrink header is to be collected only when no older full block has discarded pages. 
The choice checks this when it finds the block, but a block that is not collected at once is
remembered, and an older one may lose pages until it is chosen.
-/

namespace Yaffs

namespace BlockAges

variable {ages after : BlockAges} {block : Nat}

/-- If the block has a shrink header, no older full block has discarded pages. -/
def Safe (ages : BlockAges) (block : Nat) : Prop :=
  (ages.age block).hasShrinkHdr = true → ∀ older ∈ ages.blocks, (ages.age older).state = .full →
    (ages.age older).discarded = true → (ages.age block).seqNumber ≤ (ages.age older).seqNumber

/-- Only what is remembered for collection has changed. -/
structure Aims (ages after : BlockAges) : Prop where
  ranked : after.Ranked
  same : ∃ gcDirtiest oldestDirtySeq oldestDirtyBlock,
    after = { ages with gcDirtiest, oldestDirtySeq, oldestDirtyBlock }

namespace Aims

theorem refl (ranked : ages.Ranked) : Aims ages ages := ⟨ranked, _, _, _, rfl⟩

theorem trans {mid : BlockAges} (first : Aims ages mid) (second : Aims mid after) :
    Aims ages after := by
  obtain ⟨-, _, _, _, rfl⟩ := first
  obtain ⟨ranked, _, _, _, rfl⟩ := second
  exact ⟨ranked, _, _, _, rfl⟩

theorem safe (aims : Aims ages after) : after.Safe block ↔ ages.Safe block := by
  obtain ⟨-, _, _, _, rfl⟩ := aims
  rfl

theorem target (aims : Aims ages after) : after.Target block ↔ ages.Target block := by
  obtain ⟨-, _, _, _, rfl⟩ := aims
  rfl

theorem gcBlock (aims : Aims ages after) : after.gcBlock = ages.gcBlock := by
  obtain ⟨-, _, _, _, rfl⟩ := aims
  rfl

end Aims

theorem Ranked.nonzero (ranked : ages.Ranked) (mem : block ∈ ages.blocks) : block ≠ 0 :=
  (ranked.first_pos.trans_le (Finset.mem_Icc.mp mem).1).ne'

/-- The block that is remembered as the dirtiest can be chosen when none is being collected. -/
theorem Ranked.safe (ranked : ages.Ranked) (idle : ages.gcBlock = 0)
    (remembered : ages.gcDirtiest ≠ 0) : ages.Safe ages.gcDirtiest :=
  fun shrink older mem full discarded =>
    ranked.clear older mem full discarded (idle ▸ ranked.nonzero mem) remembered shrink

/-- The oldest dirty block can be chosen. -/
theorem Ranked.safe_oldest (ranked : ages.Ranked) (known : ages.oldestDirtyBlock ≠ 0) :
    ages.Safe ages.oldestDirtyBlock := by
  intro _ older mem full discarded
  rw [ranked.oldest_seq known]
  by_cases none : ages.oldestDirtySeq = 0
  · omega
  · exact ranked.low older mem full discarded none

/-- The dirtiest block so far is remembered. -/
theorem Ranked.remember (ranked : ages.Ranked) {gcDirtiest : Nat} (target : ages.Target gcDirtiest)
    (safe : gcDirtiest ≠ 0 → ages.Safe gcDirtiest) : Aims ages { ages with gcDirtiest } :=
  ⟨{ ranked with
    gcDirtiest := target
    clear := fun older mem full discarded _ remembered shrink =>
      safe remembered shrink older mem full discarded }, _, _, _, rfl⟩

/-- A block is going to be collected. -/
theorem Ranked.point (ranked : ages.Ranked) (idle : ages.gcBlock = 0) {gcBlock : Nat}
    (target : ages.Target gcBlock) : ({ ages with gcBlock } : BlockAges).Ranked :=
  { ranked with
    gcBlock := target
    clear := fun block mem full discarded _ =>
      ranked.clear block mem full discarded (idle ▸ ranked.nonzero mem) }

end BlockAges

namespace Dev

open BlockAges

variable {Flash : Type} {T : Tagger Flash} {dev : Dev Flash}

/-! ## The oldest dirty block -/

/-- No dirty block that has been looked at is older than the one found. -/
theorem olderDirty_min (blocks : List Nat) (oldest : Nat × Nat) {block : Nat} (mem : block ∈ blocks)
    (dirty : dev.isDirtyFull block = true) :
    (blocks.foldl dev.olderDirty oldest).1 ≤ (dev.blockInfo block).seqNumber := by
  induction blocks generalizing oldest with
  | nil => cases mem
  | cons other blocks ih =>
    rw [List.foldl_cons]
    rcases List.mem_cons.mp mem with rfl | mem
    · refine (dev.olderDirty_le blocks _).trans ?_
      simp only [olderDirty, dirty, true_and]
      split
      case isTrue => exact le_rfl
      case isFalse young => exact Nat.le_of_not_lt young
    · exact ih _ mem

theorem isDirtyFull_iff {block : Nat} : dev.isDirtyFull block = true ↔
    (dev.ages.age block).state = .full ∧ (dev.ages.age block).discarded = true := by
  simp [isDirtyFull, ages, BlockInfo.age]

theorem aims_findOldestDirtySeq (ranked : dev.ages.Ranked) :
    Aims dev.ages dev.findOldestDirtySeq.ages := by
  simp only [findOldestDirtySeq]
  split
  case isFalse => exact .refl ranked
  case isTrue =>
    simp only [calcOldestDirtySeq]
    split
    case isTrue => exact .refl ranked
    case isFalse =>
      have candidate : dev.Candidate (dev.blockList.foldl dev.olderDirty
        (dev.seqNumber + 1, 0)) := by
        refine candidate_foldl (fun oldest block _ => ?_) _
          (fun block => (dev.mem_blockList block).mp)
          _ fun nonzero => absurd rfl nonzero
        simp only [olderDirty]
        split
        case isTrue older => exact .inr ⟨rfl, (isDirtyFull_iff.mp older.1).1⟩
        case isFalse => exact .inl rfl
      have bounded := dev.olderDirty_lt dev.blockList (dev.seqNumber + 1, 0)
      have lowest (block : Nat) (mem : block ∈ dev.blocks) (dirty : dev.isDirtyFull block = true) :=
        olderDirty_min dev.blockList (dev.seqNumber + 1, 0)
          ((dev.mem_blockList block).mpr mem) dirty
      generalize dev.blockList.foldl dev.olderDirty (dev.seqNumber + 1, 0) = oldest at *
      split
      case isFalse => exact .refl ranked
      case isTrue nonzero =>
        have seq_le : oldest.1 ≤ dev.seqNumber := by
          rcases bounded with start | lower
          · rw [start] at nonzero
            exact absurd rfl nonzero
          · exact Nat.lt_succ_iff.mp lower
        exact ⟨{ ranked with
          oldest := fun nonzero => ⟨(candidate nonzero).1, .inl (candidate nonzero).2.1⟩
          oldest_seq := fun nonzero => (candidate nonzero).2.2
          oldest_le := seq_le
          low := fun block mem full discarded _ =>
            lowest block mem (isDirtyFull_iff.mpr ⟨full, discarded⟩) }, _, _, _, rfl⟩

/-- A block that may be collected is safe. -/
theorem aims_blockOkForGc (ranked : dev.ages.Ranked) (block : Nat) :
    Aims dev.ages (dev.blockOkForGc block).2.ages ∧
      ((dev.blockOkForGc block).1 = true → dev.ages.Safe block) := by
  have isYaffs2 : dev.param.isYaffs2 = true := ranked.isYaffs2
  simp only [blockOkForGc, isYaffs2, not_true, false_or]
  split
  case isTrue no_shrink => exact ⟨.refl ranked, fun _ shrink => absurd shrink no_shrink⟩
  case isFalse =>
    have found := aims_findOldestDirtySeq ranked
    refine ⟨found, fun old => ?_⟩
    have old : (dev.blockInfo block).seqNumber ≤ dev.findOldestDirtySeq.oldestDirtySeq :=
      of_decide_eq_true old
    rw [← found.safe]
    intro _ older mem full discarded
    have seq : (dev.findOldestDirtySeq.ages.age block).seqNumber =
      (dev.blockInfo block).seqNumber := by
      obtain ⟨-, _, _, _, eq⟩ := found
      rw [eq]
      rfl
    rw [seq]
    by_cases none : dev.findOldestDirtySeq.oldestDirtySeq = 0
    · omega
    · exact old.trans (found.ranked.low older mem full discarded none)

/-! ## Choosing a block -/

/-- A choice of a block to collect: the block may be collected, and nothing but what is remembered
has changed. -/
structure SafeChoice (dev : Dev Flash) (chosen : Nat × Dev Flash) : Prop extends
    Aims dev.ages chosen.2.ages where
  target : dev.ages.Target chosen.1
  safe : chosen.1 ≠ 0 → dev.ages.Safe chosen.1

theorem SafeChoice.none {after : Dev Flash} (aims : Aims dev.ages after.ages) :
    dev.SafeChoice (0, after) :=
  { aims with target := nofun, safe := nofun }

theorem SafeChoice.of_aims {mid : Dev Flash} {chosen : Nat × Dev Flash}
    (aims : Aims dev.ages mid.ages) (choice : mid.SafeChoice chosen) : dev.SafeChoice chosen :=
  { aims.trans choice.toAims with
    target := aims.target.mp choice.target
    safe := fun nonzero => aims.safe.mp (choice.safe nonzero) }

theorem SafeChoice.ite {condition : Prop} [Decidable condition] {yes no : Nat × Dev Flash}
    (left : condition → dev.SafeChoice yes) (right : dev.SafeChoice no) :
    dev.SafeChoice (if condition then yes else no) := by
  split
  case isTrue holds => exact left holds
  case isFalse => exact right

/-- Making a second choice when the first one is no block. -/
theorem SafeChoice.orElse {first : Nat × Dev Flash} {next : Dev Flash → Nat × Dev Flash}
    (idle : dev.gcBlock = 0) (choice : dev.SafeChoice first)
    (second : ∀ dev : Dev Flash, dev.ages.Ranked → dev.gcBlock = 0 → dev.SafeChoice (next dev)) :
    dev.SafeChoice (if first.1 = 0 then next first.2 else first) := by
  split
  case isTrue =>
    exact .of_aims choice.toAims (second first.2 choice.ranked (choice.toAims.gcBlock.trans idle))
  case isFalse => exact choice

/-- No full block that has been looked at is older than the one found. -/
theorem olderFull_min (dev : Dev Flash) (blocks : List Nat) (nonzero : ∀ block ∈ blocks, block ≠ 0)
    (oldest : Nat × Nat) :
    let found := blocks.foldl dev.olderFull oldest
    (oldest.2 ≠ 0 → found.1 ≤ oldest.1) ∧ ∀ block ∈ blocks, dev.blockState block = .full →
      found.1 ≤ (dev.blockInfo block).seqNumber := by
  induction blocks generalizing oldest with
  | nil => exact ⟨fun _ => le_rfl, nofun⟩
  | cons other blocks ih =>
    obtain ⟨kept, lowest⟩ := ih (fun block mem => nonzero block (List.mem_cons_of_mem _ mem))
      (dev.olderFull oldest other)
    have other_nonzero := nonzero other List.mem_cons_self
    rw [List.foldl_cons]
    generalize found : blocks.foldl dev.olderFull (dev.olderFull oldest other) = last at *
    simp only [olderFull] at kept
    constructor
    · intro known
      split at kept
      case isTrue older =>
        have lower : (dev.blockInfo other).seqNumber < oldest.1 := older.2.resolve_left (by omega)
        exact (kept other_nonzero).trans lower.le
      case isFalse => exact kept known
    · intro block mem full
      rcases List.mem_cons.mp mem with rfl | mem
      · split at kept
        case isTrue => exact kept other_nonzero
        case isFalse young =>
          rw [not_and_or, not_or] at young
          obtain ⟨known, not_lower⟩ := young.resolve_left (not_not.mpr full)
          exact (kept (by omega)).trans (Nat.le_of_not_lt not_lower)
      · exact lowest block mem full

/-- The block that is refreshed is the oldest one. -/
theorem safe_findRefreshBlock (ranked : dev.ages.Ranked) : dev.SafeChoice dev.findRefreshBlock := by
  have candidate : dev.Candidate (dev.blockList.foldl dev.olderFull (0, 0)) := by
    refine candidate_foldl (fun oldest block _ => ?_) _ (fun block => (dev.mem_blockList block).mp)
      _ fun nonzero => absurd rfl nonzero
    simp only [olderFull]
    split
    case isTrue older => exact .inr ⟨rfl, older.1⟩
    case isFalse => exact .inl rfl
  have lowest := (olderFull_min dev dev.blockList
    (fun block mem => nonzero_of_ranked ranked ((dev.mem_blockList block).mp mem)) (0, 0)).2
  simp only [findRefreshBlock]
  generalize dev.blockList.foldl dev.olderFull (0, 0) = oldest at *
  refine .ite (fun _ => .none (.refl ranked)) (.ite (fun _ => .none (.refl ranked)) ?_)
  refine { Aims.refl ranked with
    target := fun nonzero => ⟨(candidate nonzero).1, .inl (candidate nonzero).2.1⟩
    safe := fun nonzero _ older mem full _ => ?_ }
  obtain ⟨-, -, seq⟩ := candidate nonzero
  exact seq.trans_le (lowest older ((dev.mem_blockList older).mpr mem) full)

theorem safe_findPrioritised (blocks : List Nat) (found : Bool) (dev : Dev Flash)
    (inside : ∀ block ∈ blocks, block ∈ dev.blocks) (ranked : dev.ages.Ranked) :
    dev.SafeChoice ((findPrioritised blocks found dev).1.2,
      (findPrioritised blocks found dev).2) := by
  induction blocks generalizing found dev with
  | nil => exact .none (.refl ranked)
  | cons block rest ih =>
    have inside_rest : ∀ other ∈ rest, other ∈ dev.blocks := fun other other_mem =>
      inside other (List.mem_cons_of_mem _ other_mem)
    simp only [findPrioritised]
    split
    · split
      case isTrue full =>
        obtain ⟨allowed, safe⟩ := aims_blockOkForGc ranked block
        have target : dev.ages.Target block := fun _ => ⟨inside block List.mem_cons_self, .inl full⟩
        split
        case isTrue ok => exact { allowed with target, safe := fun _ => safe ok }
        case isFalse =>
          have blocks_eq : (dev.blockOkForGc block).2.blocks = dev.blocks := by
            obtain ⟨-, _, _, _, eq⟩ := allowed
            exact congrArg BlockAges.blocks eq
          exact .of_aims allowed (ih true _ (by rwa [blocks_eq]) allowed.ranked)
      case isFalse => exact ih true dev inside_rest ranked
    · exact ih found dev inside_rest ranked

theorem safe_selectPrioritised (ranked : dev.ages.Ranked) :
    dev.SafeChoice dev.selectPrioritised := by
  have cleared : Aims dev.ages ({ dev with gcDirtiest := 0 } : Dev Flash).ages :=
    ranked.remember nofun nofun
  have found := safe_findPrioritised dev.blockList false { dev with gcDirtiest := 0 }
    (fun block => (dev.mem_blockList block).mp) cleared.ranked
  have choice := SafeChoice.of_aims cleared found
  simp only [selectPrioritised]
  generalize findPrioritised dev.blockList false { dev with gcDirtiest := 0 } = selected at *
  have after : Aims dev.ages (if selected.1.1 = true then selected.2
      else { selected.2 with hasPendingPrioritisedGc := false }).ages := by
    split
    · exact choice.toAims
    · exact choice.toAims
  split
  case isTrue gumming =>
    have known : selected.2.oldestDirtyBlock ≠ 0 := gumming.2.2.ne'
    exact { after with
      target := choice.toAims.target.mp choice.ranked.oldest
      safe := fun _ => choice.toAims.safe.mp (choice.ranked.safe_oldest known) }
  case isFalse => exact { after with target := choice.target, safe := choice.safe }

theorem aims_considerDirty (ranked : dev.ages.Ranked) : Aims dev.ages dev.considerDirty.ages := by
  have stepped : Aims dev.ages dev.stepGcFinder.ages := .refl ranked
  have inside : dev.stepGcFinder.gcBlockFinder ∈ dev.stepGcFinder.blocks := by
    have first_le : dev.internalStartBlock ≤ dev.internalEndBlock := ranked.first_le
    simp only [stepGcFinder, mem_blocks]
    split <;> omega
  simp only [considerDirty]
  split
  case isTrue dirty =>
    obtain ⟨allowed, safe⟩ := aims_blockOkForGc stepped.ranked dev.stepGcFinder.gcBlockFinder
    have target : dev.stepGcFinder.ages.Target dev.stepGcFinder.gcBlockFinder :=
      fun _ => ⟨inside, .inl dirty.1⟩
    split
    case isTrue ok =>
      exact stepped.trans (allowed.trans (allowed.ranked.remember (allowed.target.mpr target)
        fun _ => allowed.safe.mpr (safe ok)))
    case isFalse => exact stepped.trans allowed
  case isFalse => exact stepped

theorem aims_searchDirty (left : Nat) (dev : Dev Flash) (ranked : dev.ages.Ranked) :
    Aims dev.ages (searchDirty left dev).ages := by
  induction left generalizing dev with
  | zero => exact .refl ranked
  | succ left ih =>
    rw [searchDirty]
    split
    · have considered := aims_considerDirty ranked
      exact considered.trans (ih _ considered.ranked)
    · exact .refl ranked

theorem safe_selectDirtiest (ranked : dev.ages.Ranked) (idle : dev.gcBlock = 0)
    (aggressive background : Bool) :
    dev.SafeChoice (dev.selectDirtiest aggressive background) := by
  have searched := aims_searchDirty (dev.gcIterations aggressive) dev ranked
  simp only [selectDirtiest]
  split
  case isTrue dirtiest =>
    exact { searched with
      target := searched.target.mp searched.ranked.gcDirtiest
      safe := fun nonzero =>
        searched.safe.mp (searched.ranked.safe (searched.gcBlock.trans idle) nonzero) }
  case isFalse => exact .none searched

theorem safe_selectOldest (ranked : dev.ages.Ranked) (background : Bool) :
    dev.SafeChoice (dev.selectOldest background) := by
  have found := aims_findOldestDirtySeq ranked
  have oldest (known : 0 < dev.findOldestDirtySeq.oldestDirtyBlock) :
      dev.SafeChoice (dev.findOldestDirtySeq.oldestDirtyBlock, dev.findOldestDirtySeq) :=
    { found with
      target := found.target.mp found.ranked.oldest
      safe := fun _ => found.safe.mp (found.ranked.safe_oldest known.ne') }
  exact .ite (fun _ => .ite oldest (.none found)) (.none (.refl ranked))

theorem aims_noteSelection (ranked : dev.ages.Ranked) (selected : Nat) :
    Aims dev.ages (dev.noteSelection selected).ages := by
  simp only [noteSelection]
  split
  · exact ranked.remember (fun nonzero => absurd rfl nonzero) (by simp)
  · exact .refl ranked

/-- Whatever block is found may be collected, and is safe. -/
theorem safe_findGcBlock (ranked : dev.ages.Ranked) (idle : dev.gcBlock = 0)
    (aggressive background : Bool) :
    dev.SafeChoice (dev.findGcBlock aggressive background) := by
  have prioritised : dev.SafeChoice
      (if dev.hasPendingPrioritisedGc = true ∧ ¬aggressive = true then dev.selectPrioritised
        else (0, dev)) := by
    split
    · exact safe_selectPrioritised ranked
    · exact .none (.refl ranked)
  have oldest := (prioritised.orElse idle fun _ ranked idle =>
      safe_selectDirtiest ranked idle aggressive background).orElse idle
    fun _ ranked _ => safe_selectOldest ranked background
  have noted := aims_noteSelection oldest.ranked
  exact { oldest.toAims.trans (noted _) with target := oldest.target, safe := oldest.safe }

end Dev

end Yaffs
