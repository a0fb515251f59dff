import Yaffs.Tnodes
import Yaffs.Library.WordBits

/-!
# Tnode trees as maps

A level 0 tnode packs its entries without gaps into words.  Storing an entry changes the bits of this
entry and no others.  Making a tree taller and adding the tnodes that are missing change no entry at all,
even if there is no memory for one of them.
-/

namespace Yaffs

open WordBits

/-! ## Entries of a level 0 tnode -/

/-- The words of a level 0 tnode have room for sixteen entries. -/
structure WordsFit (width : Nat) (words : List Nat) : Prop where
  room : 16 * width ≤ 32 * words.length
  small : ∀ i, words.getD i 0 < 2 ^ 32

/-- The bits of an entry are those at its position in the words. -/
theorem testBit_getGroupBase {width grpBits : Nat} (narrow : width ≤ 32) {words : List Nat}
    (packed : WordsFit width words) (pos j : Nat) :
    (getGroupBase width grpBits words pos).testBit j =
      (decide (j < 32) && decide (grpBits ≤ j) && decide (j - grpBits < width) &&
        bit words (pos % 16 * width + (j - grpBits))) := by
  simp only [getGroupBase]
  generalize pos % 16 * width = start
  have low_high := packed.small (start / 32)
  have field (i : Nat) (inside : i < width) :
      (if 32 - start % 32 < width then
        words.getD (start / 32) 0 >>> (start % 32) |||
          (words.getD (start / 32 + 1) 0 <<< (32 - start % 32) % 2 ^ 32)
      else words.getD (start / 32) 0 >>> (start % 32)).testBit i = bit words (start + i) := by
    rw [bit]
    by_cases across : start % 32 + i < 32
    · have word : (start + i) / 32 = start / 32 := by omega
      have place : (start + i) % 32 = start % 32 + i := by omega
      have before : ¬32 - start % 32 ≤ i := by omega
      rw [word, place]
      split
      · rw [Nat.testBit_or, Nat.testBit_shiftRight, Nat.testBit_mod_two_pow, Nat.testBit_shiftLeft]
        simp [before]
      · rw [Nat.testBit_shiftRight]
    · have word : (start + i) / 32 = start / 32 + 1 := by omega
      have place : (start + i) % 32 = i - (32 - start % 32) := by omega
      have wide : 32 - start % 32 < width := by omega
      have after : 32 - start % 32 ≤ i := by omega
      have inside' : i < 32 := by omega
      have gone := testBit_low low_high (i := start % 32 + i) (by omega)
      rw [word, place, if_pos wide, Nat.testBit_or, Nat.testBit_shiftRight, gone,
        Nat.testBit_mod_two_pow, Nat.testBit_shiftLeft]
      simp [inside', after]
  rw [Nat.testBit_mod_two_pow, Nat.testBit_shiftLeft, Nat.testBit_and, Nat.testBit_two_pow_sub_one]
  by_cases inside : j - grpBits < width
  · rw [field _ inside]
    simp only [inside, decide_true, Bool.and_true, ge_iff_le]
    exact (Bool.and_assoc ..).symm
  · simp [inside]

/-- Storing an entry sets its bits and leaves all others as they are. -/
theorem bit_loadTnode0 {width grpBits : Nat} (some_bits : 0 < width) (narrow : width ≤ 32)
    {words : List Nat} (packed : WordsFit width words) (pos val n : Nat) :
    bit (loadTnode0 width grpBits words pos val) n =
      if pos % 16 * width ≤ n ∧ n < pos % 16 * width + width then
        (val >>> grpBits).testBit (n - pos % 16 * width)
      else bit words n := by
  have last : pos % 16 * width ≤ 15 * width := Nat.mul_le_mul_right _ (by omega)
  have room := packed.room
  simp only [loadTnode0]
  generalize pos % 16 * width = start at last ⊢
  generalize val >>> grpBits = value
  have place : n % 32 < 32 := Nat.mod_lt _ (by decide)
  generalize eq : words.set (start / 32)
    (wordWithout (words.getD (start / 32) 0) ((2 ^ width - 1) <<< (start % 32) % 2 ^ 32) |||
      ((2 ^ width - 1) <<< (start % 32) % 2 ^ 32 &&& (value <<< (start % 32) % 2 ^ 32))) = first
  have in_first : bit first n = if n / 32 = start / 32 ∧ start ≤ n ∧ n < start + width then
      value.testBit (n - start) else bit words n := by
    rw [← eq, bit_set (by omega)]
    split
    case isTrue word =>
      have offset : n % 32 - start % 32 = n - start := by omega
      have field : start % 32 ≤ n % 32 ∧ n % 32 - start % 32 < width ↔
          n / 32 = start / 32 ∧ start ≤ n ∧ n < start + width := by omega
      rw [wordWithout, testBit_storeLow _ _ _ _ place]
      exact if_congr field (congrArg value.testBit offset) (by rw [bit, word])
    case isFalse other => simp [other]
  split
  case isTrue wide =>
    have length : first.length = words.length := by rw [← eq, List.length_set]
    have next : first.getD (start / 32 + 1) 0 = words.getD (start / 32 + 1) 0 := by
      simp [← eq, List.getD_eq_getElem?_getD]
    rw [bit_set (by omega)]
    split
    case isTrue word =>
      have offset : 32 - start % 32 + n % 32 = n - start := by omega
      have field : 32 - start % 32 + n % 32 < width ↔ start ≤ n ∧ n < start + width := by omega
      rw [wordWithout, testBit_storeHigh _ _ _ _ place]
      exact if_congr field (congrArg value.testBit offset) (by rw [bit, word, next])
    case isFalse other =>
      have field : n / 32 = start / 32 ∧ start ≤ n ∧ n < start + width ↔
          start ≤ n ∧ n < start + width := by omega
      simp only [in_first, field]
  case isFalse =>
    have field : n / 32 = start / 32 ∧ start ≤ n ∧ n < start + width ↔
        start ≤ n ∧ n < start + width := by omega
    simp only [in_first, field]

theorem packed_loadTnode0 {width grpBits : Nat} (narrow : width ≤ 32) {words : List Nat}
    (packed : WordsFit width words) (pos val : Nat) :
    WordsFit width (loadTnode0 width grpBits words pos val) := by
  have set_small (words : List Nat) (small : ∀ i, words.getD i 0 < 2 ^ 32) (q word : Nat)
      (word_small : word < 2 ^ 32) (i : Nat) : (words.set q word).getD i 0 < 2 ^ 32 := by
    have before := small i
    simp only [List.getD_eq_getElem?_getD, List.getElem?_set] at before ⊢
    split
    · split
      · exact word_small
      · exact Nat.two_pow_pos 32
    · exact before
  have mask_small : 2 ^ width - 1 < 2 ^ 32 := by
    have power : 2 ^ width ≤ 2 ^ 32 := Nat.pow_le_pow_right (by omega) narrow
    omega
  have first_small := set_small words packed.small (pos % 16 * width / 32)
    (wordWithout (words.getD (pos % 16 * width / 32) 0)
      ((2 ^ width - 1) <<< (pos % 16 * width % 32) % 2 ^ 32) |||
        ((2 ^ width - 1) <<< (pos % 16 * width % 32) % 2 ^ 32 &&&
          ((val >>> grpBits) <<< (pos % 16 * width % 32) % 2 ^ 32)))
    (merge_lt (Nat.mod_lt _ (Nat.two_pow_pos 32)))
  simp only [loadTnode0]
  split
  · refine ⟨by simpa using packed.room, set_small _ first_small _ _ (merge_lt ?_)⟩
    exact (Nat.shiftRight_le ..).trans_lt mask_small
  · exact ⟨by simpa using packed.room, first_small⟩

/-- First page of the group of a page. -/
def groupBase (grpBits chunk : Nat) : Nat := chunk >>> grpBits <<< grpBits

/-- The entry that was stored is read back. -/
theorem getGroupBase_loadTnode0_self {width grpBits : Nat} (some_bits : 0 < width)
    (narrow : width ≤ 32) {words : List Nat} (packed : WordsFit width words) (pos : Nat) {chunk : Nat}
    (fits : chunk < 2 ^ (width + grpBits)) (small : chunk < 2 ^ 32) :
    getGroupBase width grpBits (loadTnode0 width grpBits words pos chunk) pos =
      groupBase grpBits chunk := by
  apply Nat.eq_of_testBit_eq
  intro j
  rw [testBit_getGroupBase narrow (packed_loadTnode0 narrow packed pos chunk),
    bit_loadTnode0 some_bits narrow packed, groupBase, Nat.testBit_shiftLeft]
  by_cases above : grpBits ≤ j
  · have place : grpBits + (j - grpBits) = j := by omega
    by_cases inside : j - grpBits < width
    · have field : pos % 16 * width ≤ pos % 16 * width + (j - grpBits) ∧
          pos % 16 * width + (j - grpBits) < pos % 16 * width + width := by omega
      rw [if_pos field, Nat.add_sub_cancel_left, Nat.testBit_shiftRight, place]
      by_cases low : j < 32
      · simp [low, above, inside]
      · have gone := testBit_low small (not_lt.mp low)
        simp [gone]
    · have gone : chunk.testBit j = false :=
        Nat.testBit_lt_two_pow (fits.trans_le (Nat.pow_le_pow_right (by omega) (by omega)))
      simp [inside, place, gone, Nat.testBit_shiftRight]
  · simp [above]

/-- The other entries of the tnode are unchanged. -/
theorem getGroupBase_loadTnode0_other {width grpBits : Nat} (some_bits : 0 < width)
    (narrow : width ≤ 32) {words : List Nat} (packed : WordsFit width words) {pos other : Nat}
    (apart : other % 16 ≠ pos % 16) (chunk : Nat) :
    getGroupBase width grpBits (loadTnode0 width grpBits words pos chunk) other =
      getGroupBase width grpBits words other := by
  apply Nat.eq_of_testBit_eq
  intro j
  rw [testBit_getGroupBase narrow (packed_loadTnode0 narrow packed pos chunk),
    testBit_getGroupBase narrow packed, bit_loadTnode0 some_bits narrow packed]
  by_cases inside : j - grpBits < width
  · have outside : ¬(pos % 16 * width ≤ other % 16 * width + (j - grpBits) ∧
        other % 16 * width + (j - grpBits) < pos % 16 * width + width) := by
      obtain before | after := Nat.lt_or_gt_of_ne apart
      · have gap : (other % 16 + 1) * width ≤ pos % 16 * width := Nat.mul_le_mul_right _ before
        rw [Nat.add_mul] at gap
        omega
      · have gap : (pos % 16 + 1) * width ≤ other % 16 * width := Nat.mul_le_mul_right _ after
        rw [Nat.add_mul] at gap
        omega
    rw [if_neg outside]
  · simp [inside]

/-- A zeroed entry reads as no page. -/
theorem getGroupBase_of_zeros {width grpBits : Nat} (narrow : width ≤ 32) {count : Nat}
    (packed : WordsFit width (List.replicate count 0)) (pos : Nat) :
    getGroupBase width grpBits (List.replicate count 0) pos = 0 := by
  apply Nat.eq_of_testBit_eq
  intro j
  rw [testBit_getGroupBase narrow packed, bit_replicate, Nat.zero_testBit, Bool.and_false]

/-! ## Trees -/

namespace Tnode

/-- The kinds of the tnodes are those of their levels, and level 0 tnodes have room for their entries. -/
def Shaped (width : Nat) : Nat → Tnode → Prop
  | _, null => True
  | 0, leaf words => WordsFit width words
  | level + 1, node children => ∀ i, Shaped width level (children i)
  | _, _ => False

/-- The first children lead down to a level 0 tnode. -/
def Spined : Nat → Tnode → Prop
  | 0, leaf _ => True
  | level + 1, node children => Spined level (children 0)
  | _, _ => False

/-- The entry of a chunk below a tnode, zero if there is none. -/
def entry (width grpBits level : Nat) (tnode : Tnode) (chunkId : Nat) : Nat :=
  match find level tnode chunkId with
  | none => 0
  | some words => getGroupBase width grpBits words chunkId

variable {width grpBits : Nat}

theorem find_null (level chunkId : Nat) : find level null chunkId = none := by
  cases level <;> rfl

theorem shaped_null (level : Nat) : Shaped width level null := by
  cases level <;> trivial

theorem entry_null (level chunkId : Nat) : entry width grpBits level null chunkId = 0 := by
  rw [entry, find_null]

theorem eq_null_of_isNull {tnode : Tnode} (is_null : tnode.isNull) : tnode = null := by
  cases tnode with
  | null => rfl
  | leaf => cases is_null
  | node => cases is_null

theorem Spined.not_null {level : Nat} {tnode : Tnode} (spined : Spined level tnode) :
    ¬tnode.isNull := by
  cases tnode with
  | null => cases level <;> exact spined.elim
  | leaf => exact Bool.false_ne_true
  | node => exact Bool.false_ne_true

theorem Shaped.packed {level : Nat} {tnode : Tnode} (shaped : Shaped width level tnode)
    {chunkId : Nat} {words : List Nat} (found : find level tnode chunkId = some words) :
    WordsFit width words := by
  induction level generalizing tnode with
  | zero =>
    cases tnode with
    | null => cases found
    | node => cases found
    | leaf => exact Option.some.inj found ▸ shaped
  | succ level ih =>
    cases tnode with
    | null => cases found
    | leaf => cases found
    | node children => exact ih (shaped _) found

theorem shaped_update {level : Nat} {children : Fin 8 → Tnode}
    (shaped : ∀ i, Shaped width level (children i)) (index : Fin 8) {child : Tnode}
    (child_shaped : Shaped width level child) (i : Fin 8) :
    Shaped width level (Function.update children index child i) := by
  rw [Function.update_apply]
  split
  · exact child_shaped
  · exact shaped i

/-- A child with the same entries as the one before it changes no entry of its parent. -/
theorem entry_update {level : Nat} {children : Fin 8 → Tnode} {index : Fin 8} {child : Tnode}
    (same : ∀ chunkId, entry width grpBits level child chunkId =
      entry width grpBits level (children index) chunkId) (chunkId : Nat) :
    entry width grpBits (level + 1) (node (Function.update children index child)) chunkId =
      entry width grpBits (level + 1) (node children) chunkId := by
  have below := same chunkId
  by_cases here : childIndex level chunkId = index
  · subst here
    simpa only [entry, find, Function.update_self] using below
  · simp only [entry, find, Function.update_of_ne here]

/-- Only the first child of a spined tnode must not go. -/
theorem spined_update {level : Nat} {children : Fin 8 → Tnode} (spined : Spined level (children 0))
    {index : Fin 8} {child : Tnode} (first : index = 0 → Spined level child) :
    Spined (level + 1) (node (Function.update children index child)) := by
  rw [Spined, Function.update_apply]
  split
  case isTrue here => exact first here.symm
  case isFalse => exact spined

end Tnode

namespace Dev

variable {Flash : Type} {width grpBits : Nat}

/-- The tnodes of a device are as wide as given, and their memory has room for sixteen entries. -/
structure TnodesFit (dev : Dev Flash) (width : Nat) : Prop where
  some_bits : 0 < width
  narrow : width ≤ 32
  room : 16 * width ≤ 32 * (dev.tnodeSize / 4)

/-- No allocation of a tnode has failed in between. -/
def AllAllocated (dev after : Dev Flash) : Prop :=
  ∃ answers, dev.allocations = answers ++ after.allocations ∧ ∀ answer ∈ answers, answer = true

theorem AllAllocated.refl (dev : Dev Flash) : AllAllocated dev dev := ⟨[], rfl, nofun⟩

theorem AllAllocated.trans {dev after last : Dev Flash} (first : AllAllocated dev after)
    (second : AllAllocated after last) : AllAllocated dev last := by
  obtain ⟨early, early_eq, early_true⟩ := first
  obtain ⟨late, late_eq, late_true⟩ := second
  refine ⟨early ++ late, by rw [early_eq, late_eq, List.append_assoc], fun answer listed => ?_⟩
  exact (List.mem_append.mp listed).elim (early_true answer) (late_true answer)

theorem getTnode_allocated {dev : Dev Flash} (ok : dev.getTnode.1) :
    AllAllocated dev dev.getTnode.2 := by
  simp only [getTnode] at ok ⊢
  cases eq : dev.allocations with
  | nil => exact ⟨[], by simp [eq], nofun⟩
  | cons answer answers =>
    rw [eq] at ok
    exact ⟨[answer], by simp [eq], by simpa using ok⟩

theorem TnodesFit.packed {dev : Dev Flash} (fit : dev.TnodesFit width) :
    WordsFit width (List.replicate (dev.tnodeSize / 4) 0) := by
  refine ⟨by simpa using fit.room, fun i => ?_⟩
  simp only [List.getD_eq_getElem?_getD, List.getElem?_replicate]
  split <;> exact Nat.two_pow_pos 32

theorem TnodesFit.of_only {dev after : Dev Flash} (fit : dev.TnodesFit width)
    (only : TnodesOnly dev after) : after.TnodesFit width := by
  obtain ⟨_, _, _, rfl⟩ := only
  exact ⟨fit.some_bits, fit.narrow, fit.room⟩

/-- A fresh level 0 tnode has no entries. -/
theorem TnodesFit.entry_blank {dev : Dev Flash} (fit : dev.TnodesFit width) (chunkId : Nat) :
    Tnode.entry width grpBits 0 (.blank dev.tnodeSize) chunkId = 0 :=
  getGroupBase_of_zeros fit.narrow fit.packed chunkId

/-- What walking down to the level 0 tnode of a chunk leaves of a tree. -/
structure WalkedDown (width grpBits chunkId level : Nat) (tnode : Tnode) (dev : Dev Flash)
    (walked : Bool × Tnode × Dev Flash) : Prop where
  same : ∀ other, Tnode.entry width grpBits level walked.2.1 other =
    Tnode.entry width grpBits level tnode other
  shaped : Tnode.Shaped width level walked.2.1
  spined : Tnode.Spined level tnode → Tnode.Spined level walked.2.1
  found : walked.1 → ∃ words, Tnode.find level walked.2.1 chunkId = some words
  allocated : walked.1 → AllAllocated dev walked.2.2

/-- Nothing has been added. -/
theorem WalkedDown.stay {chunkId level : Nat} {tnode : Tnode} {dev after : Dev Flash}
    (shaped : Tnode.Shaped width level tnode) :
    WalkedDown width grpBits chunkId level tnode dev (false, tnode, after) :=
  ⟨fun _ => rfl, shaped, id, nofun, nofun⟩

/-- The walk goes on below a child. -/
theorem WalkedDown.child {chunkId level : Nat} {children : Fin 8 → Tnode} {child : Tnode}
    {dev after : Dev Flash} {below : Bool × Tnode × Dev Flash}
    (shaped : ∀ i, Tnode.Shaped width level (children i))
    (walked : WalkedDown width grpBits chunkId level child after below)
    (same : ∀ other, Tnode.entry width grpBits level child other =
      Tnode.entry width grpBits level (children (Tnode.childIndex level chunkId)) other)
    (kept : ¬(children (Tnode.childIndex level chunkId)).isNull →
      child = children (Tnode.childIndex level chunkId))
    (allocated : AllAllocated dev after) :
    WalkedDown width grpBits chunkId (level + 1) (.node children) dev
      (below.1, .node (Function.update children (Tnode.childIndex level chunkId) below.2.1),
        below.2.2) := by
  refine ⟨fun other => ?_, ?_, fun spined => ?_, fun ok => ?_, fun ok => ?_⟩
  · exact Tnode.entry_update (fun other => (walked.same other).trans (same other)) other
  · exact Tnode.shaped_update shaped _ walked.shaped
  · refine Tnode.spined_update spined fun first => walked.spined ?_
    rw [kept (first ▸ Tnode.Spined.not_null spined), first]
    exact spined
  · obtain ⟨words, found⟩ := walked.found ok
    exact ⟨words, by rw [Tnode.find, Function.update_self, found]⟩
  · exact allocated.trans (walked.allocated ok)

/-- A level 0 tnode that is there is found. -/
theorem WalkedDown.leaf (grpBits chunkId : Nat) {words : List Nat} (packed : WordsFit width words)
    (dev : Dev Flash) :
    WalkedDown width grpBits chunkId 0 (.leaf words) dev (true, .leaf words, dev) :=
  ⟨fun _ => rfl, packed, id, fun _ => ⟨words, rfl⟩, fun _ => AllAllocated.refl dev⟩

theorem addFindFrom_walked (grpBits chunkId : Nat) {level : Nat} {tnode : Tnode} {dev : Dev Flash}
    (fit : dev.TnodesFit width) (shaped : Tnode.Shaped width level tnode) :
    WalkedDown width grpBits chunkId level tnode dev (addFindFrom none chunkId level tnode dev) := by
  induction level generalizing tnode dev with
  | zero =>
    cases tnode with
    | null => exact .stay shaped
    | node => exact shaped.elim
    | leaf words => exact .leaf grpBits chunkId shaped dev
  | succ level ih =>
    cases tnode with
    | null => cases level <;> exact .stay shaped
    | leaf => exact shaped.elim
    | node children =>
      cases level with
      | zero =>
        simp only [addFindFrom]
        by_cases missing : (children (Tnode.childIndex 0 chunkId)).isNull
        · rw [if_pos missing]
          split
          case isFalse => exact .stay shaped
          case isTrue made =>
            have fresh := WalkedDown.leaf grpBits chunkId fit.packed dev.getTnode.2
            refine fresh.child shaped (fun other => ?_) (fun there => absurd missing there)
              (getTnode_allocated made)
            rw [Tnode.eq_null_of_isNull missing, Tnode.entry_null]
            exact fit.entry_blank other
        · rw [if_neg missing]
          have below := shaped (Tnode.childIndex 0 chunkId)
          cases eq : children (Tnode.childIndex 0 chunkId) with
          | null => exact absurd (by rw [eq]; rfl) missing
          | node => exact (eq ▸ below : Tnode.Shaped width 0 (.node _)).elim
          | leaf words =>
            rw [eq] at below
            have there := (WalkedDown.leaf grpBits chunkId below dev).child shaped
              (fun other => by rw [eq]) (fun _ => eq.symm) (AllAllocated.refl dev)
            rwa [← eq, Function.update_eq_self] at there
      | succ level =>
        simp only [addFindFrom]
        by_cases missing : (children (Tnode.childIndex (level + 1) chunkId)).isNull
        · simp only [missing, if_true]
          split
          case isFalse => exact .stay shaped
          case isTrue made =>
            have empty : Tnode.Shaped width (level + 1) (.node fun _ => .null) :=
              fun _ => Tnode.shaped_null level
            refine (ih (fit.of_only dev.getTnode_only) empty).child shaped (fun other => ?_)
              (fun there => absurd missing there) (getTnode_allocated made)
            rw [Tnode.eq_null_of_isNull missing, Tnode.entry_null, Tnode.entry, Tnode.find,
              Tnode.find_null]
        · simp only [missing]
          exact (ih fit (shaped _)).child shaped (fun _ => rfl) (fun _ => rfl)
            (AllAllocated.refl dev)

end Dev

namespace FileVar

variable {width grpBits : Nat} {file : FileVar}

/-- First page of the group stored for a chunk of a file, zero if there is none. -/
def entry (width grpBits : Nat) (file : FileVar) (chunkId : Nat) : Nat :=
  match file.findTnode0 chunkId with
  | none => 0
  | some words => getGroupBase width grpBits words chunkId

/-- The tree of a file is well formed. -/
structure Sane (width : Nat) (file : FileVar) : Prop where
  low : file.topLevel ≤ tnodesMaxLevel
  shaped : Tnode.Shaped width file.topLevel file.top
  spined : Tnode.Spined file.topLevel file.top

theorem entry_eq (low : file.topLevel ≤ tnodesMaxLevel) (chunkId : Nat) :
    file.entry width grpBits chunkId =
      if chunkId ≤ maxChunkId ∧ requiredDepth chunkId ≤ file.topLevel then
        Tnode.entry width grpBits file.topLevel file.top chunkId
      else 0 := by
  by_cases inside : chunkId ≤ maxChunkId ∧ requiredDepth chunkId ≤ file.topLevel
  · have reached : ¬(tnodesMaxLevel < file.topLevel ∨ maxChunkId < chunkId ∨
        file.topLevel < requiredDepth chunkId) := by omega
    simp only [entry, findTnode0, Tnode.entry, if_neg reached, if_pos inside]
  · have missed : tnodesMaxLevel < file.topLevel ∨ maxChunkId < chunkId ∨
        file.topLevel < requiredDepth chunkId := by omega
    simp only [entry, findTnode0, if_pos missed, if_neg inside]

/-- The same entries below the top are the same entries of the file. -/
theorem entry_congr {top : Tnode} (low : file.topLevel ≤ tnodesMaxLevel)
    (same : ∀ chunkId, Tnode.entry width grpBits file.topLevel top chunkId =
      Tnode.entry width grpBits file.topLevel file.top chunkId) (chunkId : Nat) :
    entry width grpBits { file with top } chunkId = file.entry width grpBits chunkId := by
  have low' : ({ file with top } : FileVar).topLevel ≤ tnodesMaxLevel := low
  rw [entry_eq low', entry_eq low, same]

/-- A tree that is taller by one level has the same entries. -/
theorem entry_taller (width grpBits : Nat) (low : file.topLevel + 1 ≤ tnodesMaxLevel)
    (chunkId : Nat) :
    entry width grpBits
        { file with
          topLevel := file.topLevel + 1
          top := .node (Function.update (fun _ => .null) 0 file.top) } chunkId =
      file.entry width grpBits chunkId := by
  rw [entry_eq (by exact low), entry_eq (by omega)]
  by_cases sane : chunkId ≤ maxChunkId
  · simp only [sane, true_and]
    by_cases shallow : requiredDepth chunkId ≤ file.topLevel
    · have index := childIndex_eq_zero ((requiredDepth_le_iff sane _).mp shallow)
      rw [if_pos (by omega), if_pos shallow, Tnode.entry, Tnode.find, index, Function.update_self]
      rfl
    · rw [if_neg shallow]
      split
      case isFalse => rfl
      case isTrue reached =>
        have within := (requiredDepth_le_iff sane _).mp reached
        have later := childIndex_ne_zero (mt (requiredDepth_le_iff sane _).mpr shallow) within
        rw [Tnode.entry, Tnode.find, Function.update_of_ne later, Tnode.find_null]
  · simp [sane]

theorem Sane.taller (sane : file.Sane width) (low : file.topLevel + 1 ≤ tnodesMaxLevel) :
    Sane width
      { file with
        topLevel := file.topLevel + 1
        top := .node (Function.update (fun _ => .null) 0 file.top) } := by
  refine ⟨low, Tnode.shaped_update (fun _ => Tnode.shaped_null _) 0 sane.shaped, ?_⟩
  rw [Tnode.Spined, Function.update_self]
  exact sane.spined

end FileVar

namespace Dev

variable {Flash : Type} {width grpBits : Nat} {file : FileVar} {dev : Dev Flash}

/-- What making room for a chunk leaves of the tree of a file. -/
structure RoomMade (width grpBits level : Nat) (file : FileVar) (dev : Dev Flash)
    (made : Bool × FileVar × Dev Flash) : Prop where
  same : ∀ chunkId, made.2.1.entry width grpBits chunkId = file.entry width grpBits chunkId
  sane : made.2.1.Sane width
  tall : made.1 → level ≤ made.2.1.topLevel
  allocated : made.1 → AllAllocated dev made.2.2

/-- A tree that is made taller has the same entries, no matter how far that gets. -/
theorem growTree_made (grpBits more : Nat) (file : FileVar) (dev : Dev Flash) (sane : file.Sane width)
    (low : file.topLevel + more ≤ tnodesMaxLevel) :
    RoomMade width grpBits (file.topLevel + more) file dev (growTree more file dev) := by
  induction more generalizing file dev with
  | zero => exact ⟨fun _ => rfl, sane, fun _ => le_rfl, fun _ => AllAllocated.refl dev⟩
  | succ more ih =>
    simp only [growTree]
    split
    case isFalse => exact ⟨fun _ => rfl, sane, by simp, by simp⟩
    case isTrue made =>
      have low' : file.topLevel + 1 ≤ tnodesMaxLevel := by omega
      have grown := ih _ dev.getTnode.2 (sane.taller low') (by dsimp only; omega)
      refine ⟨fun chunkId => ?_, grown.sane, fun ok => ?_, fun ok => ?_⟩
      · exact (grown.same chunkId).trans (FileVar.entry_taller width grpBits low' chunkId)
      · have tall := grown.tall ok
        dsimp only at tall
        omega
      · exact (getTnode_allocated made).trans (grown.allocated ok)

/-- Having the level 0 tnode of a chunk changes no entry, whether or not there is memory for all the
tnodes that are missing. -/
theorem addFindTnode0_made (grpBits : Nat) (fit : dev.TnodesFit width) (sane : file.Sane width)
    (chunkId : Nat) :
    RoomMade width grpBits (requiredDepth chunkId) file dev (dev.addFindTnode0 file chunkId none) ∧
      ((dev.addFindTnode0 file chunkId none).1 → ∃ words,
        (dev.addFindTnode0 file chunkId none).2.1.findTnode0 chunkId = some words) := by
  by_cases large : maxChunkId < chunkId
  · simp only [addFindTnode0, large, or_true, if_true]
    exact ⟨⟨fun _ => rfl, sane, by simp, by simp⟩, by simp⟩
  have small : chunkId ≤ maxChunkId := not_lt.mp large
  have depth : requiredDepth chunkId ≤ tnodesMaxLevel :=
    (requiredDepth_le_iff small _).mpr (Nat.lt_succ_of_le small)
  have low := sane.low
  have grown := growTree_made grpBits (requiredDepth chunkId - file.topLevel) file dev sane
    (by omega)
  have grown_only := growTree_only (requiredDepth chunkId - file.topLevel) file dev
  have sane_request : ¬(tnodesMaxLevel < file.topLevel ∨ maxChunkId < chunkId) := by omega
  simp only [addFindTnode0, if_neg sane_request]
  generalize growTree (requiredDepth chunkId - file.topLevel) file dev = made at grown grown_only ⊢
  obtain ⟨ok, taller, after⟩ := made
  split
  case isTrue failed =>
    exact ⟨⟨grown.same, grown.sane, fun ok => absurd ok failed, grown.allocated⟩,
      fun ok => absurd ok failed⟩
  case isFalse succeeded =>
    have is_ok : ok = true := not_not.mp succeeded
    have tall := grown.tall is_ok
    dsimp only at tall
    have reached : ¬(tnodesMaxLevel < taller.topLevel ∨ maxChunkId < chunkId ∨
        taller.topLevel < requiredDepth chunkId) := by
      have low' := grown.sane.low
      dsimp only at low'
      omega
    split
    case isTrue flat =>
      have spined := grown.sane.spined
      dsimp only at flat spined
      rw [flat] at spined
      cases top_eq : taller.top with
      | null => exact (top_eq ▸ spined : Tnode.Spined 0 .null).elim
      | node => exact (top_eq ▸ spined : Tnode.Spined 0 (.node _)).elim
      | leaf words =>
        have same : ({ taller with top := .leaf words } : FileVar) = taller := by rw [← top_eq]
        dsimp only
        rw [same]
        refine ⟨⟨grown.same, grown.sane, fun _ => by omega, fun _ => grown.allocated is_ok⟩,
          fun _ => ⟨words, ?_⟩⟩
        rw [FileVar.findTnode0, if_neg reached, flat, top_eq, Tnode.find]
    case isFalse high =>
      have walked := addFindFrom_walked grpBits chunkId (fit.of_only grown_only)
        grown.sane.shaped
      dsimp only at walked ⊢
      generalize addFindFrom none chunkId taller.topLevel taller.top after = found at walked ⊢
      refine ⟨⟨fun other => ?_, ?_, fun _ => by dsimp only; omega, fun found_ok => ?_⟩,
        fun found_ok => ?_⟩
      · exact (FileVar.entry_congr grown.sane.low walked.same other).trans (grown.same other)
      · exact ⟨grown.sane.low, walked.shaped, walked.spined grown.sane.spined⟩
      · exact (grown.allocated is_ok).trans (walked.allocated found_ok)
      · obtain ⟨words, there⟩ := walked.found found_ok
        refine ⟨words, ?_⟩
        rw [FileVar.findTnode0, if_neg reached]
        exact there

end Dev

/-! ## Storing an entry -/

namespace Tnode

theorem childIndex_digit (level chunkId : Nat) :
    (childIndex level chunkId).val = chunkId / 16 / 8 ^ level % 8 := by
  rw [childIndex_val, chunksOfLevel, Nat.div_div_eq_div_mul]

/-- The chunks of one level 0 tnode take the same way down. -/
theorem find_congr {chunkId other : Nat} (same : other / 16 = chunkId / 16) (level : Nat)
    (tnode : Tnode) : find level tnode other = find level tnode chunkId := by
  induction level generalizing tnode with
  | zero => cases tnode <;> rfl
  | succ level ih =>
    cases tnode with
    | null => rfl
    | leaf => rfl
    | node children =>
      have index : childIndex level other = childIndex level chunkId := by
        apply Fin.ext
        rw [childIndex_digit, childIndex_digit, same]
      rw [find, find, index]
      exact ih _

/-- A change of the level 0 tnode is found. -/
theorem find_modify_self {change : List Nat → List Nat} (chunkId level : Nat) (tnode : Tnode) :
    find level (modify change level tnode chunkId) chunkId =
      (find level tnode chunkId).map change := by
  induction level generalizing tnode with
  | zero => cases tnode <;> rfl
  | succ level ih =>
    cases tnode with
    | null => rfl
    | leaf => rfl
    | node children =>
      simp only [modify, find, Function.update_self]
      exact ih _

/-- Chunks of other level 0 tnodes leave the way at some level. -/
theorem find_modify_other {change : List Nat → List Nat} {chunkId other level : Nat}
    (apart : other / 16 % 8 ^ level ≠ chunkId / 16 % 8 ^ level) (tnode : Tnode) :
    find level (modify change level tnode chunkId) other = find level tnode other := by
  induction level generalizing tnode with
  | zero => exact absurd (by rw [pow_zero, Nat.mod_one, Nat.mod_one]) apart
  | succ level ih =>
    cases tnode with
    | null => rfl
    | leaf => rfl
    | node children =>
      simp only [modify, find]
      by_cases index : childIndex level other = childIndex level chunkId
      · have digit := congrArg Fin.val index
        rw [childIndex_digit, childIndex_digit] at digit
        have below : other / 16 % 8 ^ level ≠ chunkId / 16 % 8 ^ level := by
          intro same
          apply apart
          rw [pow_succ, Nat.mod_mul, Nat.mod_mul, same, digit]
        rw [index, Function.update_self]
        exact ih below _
      · rw [Function.update_of_ne index]

theorem modify_shaped {width : Nat} {change : List Nat → List Nat}
    (packed : ∀ words, WordsFit width words → WordsFit width (change words)) {level chunkId : Nat}
    {tnode : Tnode} (shaped : Shaped width level tnode) :
    Shaped width level (modify change level tnode chunkId) := by
  induction level generalizing tnode with
  | zero =>
    cases tnode with
    | null => trivial
    | node => exact shaped
    | leaf words => exact packed words shaped
  | succ level ih =>
    cases tnode with
    | null => trivial
    | leaf => exact shaped
    | node children => exact shaped_update shaped _ (ih (shaped _))

theorem modify_spined {change : List Nat → List Nat} {level chunkId : Nat} {tnode : Tnode}
    (spined : Spined level tnode) : Spined level (modify change level tnode chunkId) := by
  induction level generalizing tnode with
  | zero =>
    cases tnode with
    | null => exact spined
    | node => exact spined
    | leaf => trivial
  | succ level ih =>
    cases tnode with
    | null => exact spined
    | leaf => exact spined
    | node children =>
      exact spined_update spined fun first => ih (first ▸ spined)

end Tnode

namespace FileVar

variable {width grpBits : Nat} {file : FileVar}

/-- Store a page for a chunk whose level 0 tnode is there. -/
def store (width grpBits : Nat) (file : FileVar) (chunkId chunk : Nat) : FileVar :=
  { file with
    top := file.top.modify (fun words => loadTnode0 width grpBits words chunkId chunk)
      file.topLevel chunkId }

theorem Sane.store (sane : file.Sane width) (narrow : width ≤ 32) (chunkId chunk : Nat) :
    (file.store width grpBits chunkId chunk).Sane width :=
  ⟨sane.low, Tnode.modify_shaped (fun _ packed => packed_loadTnode0 narrow packed _ _) sane.shaped,
    Tnode.modify_spined sane.spined⟩

/-- The entry of the chunk is the group of the page, and all other entries are what they were. -/
theorem entry_store (sane : file.Sane width) (some_bits : 0 < width) (narrow : width ≤ 32)
    {chunkId chunk : Nat} {words : List Nat} (found : file.findTnode0 chunkId = some words)
    (fits : chunk < 2 ^ (width + grpBits)) (small : chunk < 2 ^ 32) (other : Nat) :
    (file.store width grpBits chunkId chunk).entry width grpBits other =
      if other = chunkId then groupBase grpBits chunk else file.entry width grpBits other := by
  rw [findTnode0] at found
  split at found
  case isTrue => cases found
  case isFalse reached =>
    have low := sane.low
    have low' : (file.store width grpBits chunkId chunk).topLevel ≤ tnodesMaxLevel := low
    have packed := sane.shaped.packed found
    rw [entry_eq low', entry_eq low]
    by_cases same_leaf : other / 16 = chunkId / 16
    · have depth : requiredDepth other = requiredDepth chunkId := by
        rw [requiredDepth, requiredDepth, Nat.shiftRight_eq_div_pow, Nat.shiftRight_eq_div_pow]
        exact congrArg (shiftsToZero 11) same_leaf
      have inside : other ≤ maxChunkId ∧ requiredDepth other ≤ file.topLevel := by
        rw [depth]
        simp only [maxChunkId] at reached ⊢
        omega
      have inside' : other ≤ maxChunkId ∧
          requiredDepth other ≤ (file.store width grpBits chunkId chunk).topLevel := inside
      rw [if_pos inside', if_pos inside, Tnode.entry, Tnode.entry, Tnode.find_congr same_leaf,
        Tnode.find_congr same_leaf, store, Tnode.find_modify_self, found, Option.map_some]
      by_cases eq : other = chunkId
      · rw [if_pos eq, eq]
        exact getGroupBase_loadTnode0_self some_bits narrow packed chunkId fits small
      · have apart : other % 16 ≠ chunkId % 16 := by omega
        rw [if_neg eq]
        exact getGroupBase_loadTnode0_other some_bits narrow packed apart chunk
    · have ne : other ≠ chunkId := fun eq => same_leaf (by rw [eq])
      rw [if_neg ne]
      split
      case isFalse missed => exact (if_neg missed).symm
      case isTrue inside =>
        have bound : other < chunksOfLevel file.topLevel :=
          (requiredDepth_le_iff inside.1 _).mp inside.2
        have bound' := (requiredDepth_le_iff (by omega : chunkId ≤ maxChunkId) _).mp
          (by omega : requiredDepth chunkId ≤ file.topLevel)
        have apart : other / 16 % 8 ^ file.topLevel ≠ chunkId / 16 % 8 ^ file.topLevel := by
          rw [Nat.mod_eq_of_lt (Nat.div_lt_of_lt_mul bound),
            Nat.mod_eq_of_lt (Nat.div_lt_of_lt_mul bound')]
          exact same_leaf
        refine Eq.trans ?_ (if_pos inside).symm
        rw [Tnode.entry, Tnode.entry, store, Tnode.find_modify_other apart]

end FileVar

/-! ## Pruning -/

namespace Dev

variable {Flash : Type}

/-- Prune the part of a tree below a tnode.  The tnode itself may be freed only if `del0` is set,
which is passed on to the first child alone. -/
def pruneWorker : Nat → Tnode → Bool → Dev Flash → Tnode × Dev Flash
  | 0, .leaf words, del0, dev =>
    if (∀ word ∈ words, word = 0) ∧ del0 then (.null, dev.freeTnode) else (.leaf words, dev)
  | level + 1, .node children, del0, dev =>
    let pruned := (List.finRange 8).foldl
      (fun (state : (Fin 8 → Tnode) × Dev Flash) i =>
        let k := if i.val = 0 then del0 else false
        let child := pruneWorker level (state.1 i) k state.2
        (Function.update state.1 i child.1, child.2))
      (children, dev)
    if (∀ i, (pruned.1 i).isNull) ∧ del0 then (.null, pruned.2.freeTnode)
    else (.node pruned.1, pruned.2)
  | _, tnode, _, dev => (tnode, dev)

/-- Take off the top as long as it has no child but the first. -/
def shorten : Nat → Tnode → Dev Flash → (Nat × Tnode) × Dev Flash
  | level + 1, .node children, dev =>
    if ∀ i, i ≠ 0 → (children i).isNull then shorten level (children 0) dev.freeTnode
    else ((level + 1, .node children), dev)
  | level, top, dev => ((level, top), dev)

/-- Free what is beyond the end of a file that has been cut off. -/
def pruneTree (file : FileVar) (dev : Dev Flash) : FileVar × Dev Flash :=
  if file.topLevel < 1 then (file, dev)
  else
    let pruned := pruneWorker file.topLevel file.top false dev
    let low := shorten file.topLevel pruned.1 pruned.2
    ({ file with topLevel := low.1.1, top := low.1.2 }, low.2)

/-- Without leave to free the tnode itself nothing is pruned below it. -/
theorem pruneWorker_false (level : Nat) (tnode : Tnode) (dev : Dev Flash) :
    pruneWorker level tnode false dev = (tnode, dev) := by
  induction level generalizing tnode dev with
  | zero => cases tnode <;> simp [pruneWorker]
  | succ level ih =>
    cases tnode with
    | null => rfl
    | leaf => rfl
    | node children =>
      have kept : ∀ indices : List (Fin 8), indices.foldl
          (fun (state : (Fin 8 → Tnode) × Dev Flash) i =>
            let k := if i.val = 0 then false else false
            let child := pruneWorker level (state.1 i) k state.2
            (Function.update state.1 i child.1, child.2))
          (children, dev) = (children, dev) := by
        intro indices
        induction indices with
        | nil => rfl
        | cons i indices rest =>
          simp only [List.foldl_cons, ite_self, ih, Function.update_eq_self]
          simpa only [ite_self, ih, Function.update_eq_self] using rest
      simp only [pruneWorker, kept, and_false, Bool.false_eq_true, if_false]

/-- A lower tree keeps the entries and stays well formed. -/
theorem shorten_sane {width : Nat} (grpBits : Nat) {file : FileVar} (sane : file.Sane width)
    (dev : Dev Flash) :
    let low : FileVar :=
      { file with
        topLevel := (shorten file.topLevel file.top dev).1.1
        top := (shorten file.topLevel file.top dev).1.2 }
    low.Sane width ∧ TnodesOnly dev (shorten file.topLevel file.top dev).2 ∧
      ∀ chunkId, low.entry width grpBits chunkId = file.entry width grpBits chunkId := by
  obtain ⟨fileSize, storedSize, shrinkSize, level, top⟩ := file
  induction level generalizing top dev with
  | zero => exact ⟨sane, .refl dev, fun _ => rfl⟩
  | succ level ih =>
    cases top with
    | null => exact sane.spined.elim
    | leaf => exact sane.spined.elim
    | node children =>
      simp only [shorten]
      split
      case isFalse => exact ⟨sane, .refl dev, fun _ => rfl⟩
      case isTrue only_first =>
        let lower : FileVar :=
          { fileSize, storedSize, shrinkSize, topLevel := level, top := children 0 }
        have lower_sane : lower.Sane width := by
          refine ⟨?_, sane.shaped 0, sane.spined⟩
          have low := sane.low
          dsimp only [lower] at low ⊢
          omega
        have first : children = Function.update (fun _ => .null) 0 (children 0) := by
          funext i
          by_cases zero : i = 0
          · rw [zero, Function.update_self]
          · rw [Function.update_of_ne zero]
            exact Tnode.eq_null_of_isNull (only_first i zero)
        obtain ⟨sane', only, same⟩ := ih dev.freeTnode (children 0) lower_sane
        refine ⟨sane', dev.freeTnode_only.trans only, fun chunkId => (same chunkId).trans ?_⟩
        have low : lower.topLevel + 1 ≤ tnodesMaxLevel := sane.low
        have taller := FileVar.entry_taller width grpBits low chunkId
        dsimp only [lower] at taller
        rw [← first] at taller
        exact taller.symm

theorem pruneTree_sane {width : Nat} (grpBits : Nat) {file : FileVar} (sane : file.Sane width)
    (dev : Dev Flash) :
    (pruneTree file dev).1.Sane width ∧ TnodesOnly dev (pruneTree file dev).2 ∧
      ∀ chunkId, (pruneTree file dev).1.entry width grpBits chunkId =
        file.entry width grpBits chunkId := by
  simp only [pruneTree, pruneWorker_false]
  split
  · exact ⟨sane, .refl dev, fun _ => rfl⟩
  · exact shorten_sane grpBits sane dev

end Dev

end Yaffs
