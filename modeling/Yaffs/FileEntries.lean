import Yaffs.Pruning
import Mathlib.Data.Set.Card

/-!
# Entries of a file tree

A file tree stores a number for each chunk.  Room that is made for a chunk changes no number,
storing one changes that of its chunk only, and pruning changes none, however much of it the memory
for tnodes allows.
-/

namespace Yaffs

namespace FileTnode

/-- The number stored for a chunk below a tnode, zero if there is none. -/
def entry (level : Nat) (tnode : FileTnode) (chunkId : Nat) : Nat :=
  match find level tnode chunkId with
  | none => 0
  | some groups => groups (Fin.ofNat 16 chunkId)

theorem entry_null (level chunkId : Nat) : entry level null chunkId = 0 := by
  rw [entry, find_null]

theorem entry_blank (level chunkId : Nat) (tnode : Option Nat) :
    entry level (blank level tnode) chunkId = 0 := by
  cases tnode with
  | none => exact entry_null level chunkId
  | some tnode =>
    cases level with
    | zero => rfl
    | succ level =>
      have nothing : find (level + 1) (node tnode fun _ => null) chunkId = none :=
        find_null level chunkId
      simp only [blank, Nat.add_one_ne_zero, if_false, entry, nothing]

/-- A child with the same numbers as the one before it changes no number of its parent. -/
theorem entry_update {level tnode : Nat} {children : Fin 8 → FileTnode} {index : Fin 8}
    {child : FileTnode}
    (same : ∀ chunkId, entry level child chunkId = entry level (children index) chunkId)
    (chunkId : Nat) :
    entry (level + 1) (node tnode (Function.update children index child)) chunkId =
      entry (level + 1) (node tnode children) chunkId := by
  have below := same chunkId
  by_cases here : Tnode.childIndex level chunkId = index
  · subst here
    simpa only [entry, find, Function.update_self] using below
  · simp only [entry, find, Function.update_of_ne here]

/-! ## Room for a chunk -/

/-- Adding what is missing on the way down changes no number, and a walk that succeeds ends at a
level 0 tnode. -/
theorem addFindFrom_entries (chunkId : Nat) {level : Nat} {tnode : FileTnode} (mem : TnodeMemory)
    (shaped : Shaped level tnode) :
    (∀ other, entry level (addFindFrom chunkId level tnode mem).2.1 other =
        entry level tnode other) ∧
      ((addFindFrom chunkId level tnode mem).1 = true →
        (find level (addFindFrom chunkId level tnode mem).2.1 chunkId).isSome) := by
  induction level generalizing tnode mem with
  | zero =>
    cases tnode with
    | null => exact ⟨fun _ => rfl, by simp [addFindFrom]⟩
    | leaf => exact ⟨fun _ => rfl, fun _ => rfl⟩
    | node => exact shaped.elim
  | succ level ih =>
    cases tnode with
    | null => exact ⟨fun _ => rfl, by simp [addFindFrom]⟩
    | leaf => exact shaped.elim
    | node tnode children =>
      simp only [addFindFrom]
      generalize index_eq : Tnode.childIndex level chunkId = index
      have made : Shaped level
            (if (children index).isNull then (blank level mem.getTnode.1, mem.getTnode.2)
              else (children index, mem) : FileTnode × TnodeMemory).1 ∧
          ∀ other, entry level
            (if (children index).isNull then (blank level mem.getTnode.1, mem.getTnode.2)
              else (children index, mem) : FileTnode × TnodeMemory).1 other =
            entry level (children index) other := by
        split
        case isTrue missing =>
          refine ⟨shaped_blank level _, fun other => ?_⟩
          rw [entry_blank, eq_null_of_isNull missing, entry_null]
        case isFalse => exact ⟨shaped index, fun _ => rfl⟩
      generalize (if (children index).isNull then (blank level mem.getTnode.1, mem.getTnode.2)
        else (children index, mem) : FileTnode × TnodeMemory) = child at made ⊢
      split
      case isTrue => exact ⟨fun _ => rfl, by simp⟩
      case isFalse =>
        obtain ⟨same, reached⟩ := ih child.2 made.1
        refine ⟨fun other => entry_update (fun low => (same low).trans (made.2 low)) other,
          fun ok => ?_⟩
        simp only [find, index_eq, Function.update_self]
        exact reached ok

/-! ## Storing a number -/

theorem childIndex_digit (level chunkId : Nat) :
    (Tnode.childIndex level chunkId).val = chunkId / 16 / 8 ^ level % 8 := by
  rw [childIndex_val, chunksOfLevel, Nat.div_div_eq_div_mul]

/-- The chunks of one level 0 tnode take the same way down. -/
theorem find_congr {chunkId other : Nat} (same : other / 16 = chunkId / 16) (level : Nat)
    (tnode : FileTnode) : find level tnode other = find level tnode chunkId := by
  induction level generalizing tnode with
  | zero => cases tnode <;> rfl
  | succ level ih =>
    cases tnode with
    | null => rfl
    | leaf => rfl
    | node tnode children =>
      have index : Tnode.childIndex level other = Tnode.childIndex level chunkId := by
        apply Fin.ext
        rw [childIndex_digit, childIndex_digit, same]
      rw [find, find, index]
      exact ih _

/-- The number that has been stored is found. -/
theorem find_loadTnode0_self (group chunkId level : Nat) (tnode : FileTnode) :
    find level (loadTnode0 group level tnode chunkId) chunkId =
      (find level tnode chunkId).map fun groups =>
        Function.update groups (Fin.ofNat 16 chunkId) group := by
  induction level generalizing tnode with
  | zero => cases tnode <;> rfl
  | succ level ih =>
    cases tnode with
    | null => rfl
    | leaf => rfl
    | node tnode children =>
      simp only [loadTnode0, find, Function.update_self]
      exact ih _

/-- Chunks of other level 0 tnodes leave the way at some level. -/
theorem find_loadTnode0_other (group : Nat) {chunkId other level : Nat}
    (apart : other / 16 % 8 ^ level ≠ chunkId / 16 % 8 ^ level) (tnode : FileTnode) :
    find level (loadTnode0 group level tnode chunkId) other = find level tnode other := by
  induction level generalizing tnode with
  | zero => exact absurd (by rw [pow_zero, Nat.mod_one, Nat.mod_one]) apart
  | succ level ih =>
    cases tnode with
    | null => rfl
    | leaf => rfl
    | node tnode children =>
      simp only [loadTnode0, find]
      by_cases index : Tnode.childIndex level other = Tnode.childIndex level chunkId
      · have digit := congrArg Fin.val index
        rw [childIndex_digit, childIndex_digit] at digit
        have below : other / 16 % 8 ^ level ≠ chunkId / 16 % 8 ^ level := by
          intro same
          apply apart
          rw [pow_succ, Nat.mod_mul, Nat.mod_mul, same, digit]
        rw [index, Function.update_self]
        exact ih below _
      · rw [Function.update_of_ne index]

end FileTnode

namespace FileTree

open FileTnode

variable {tree : FileTree}

/-- A tree that has its level 0 tnode and is not too tall. -/
structure Sane (tree : FileTree) : Prop where
  low : tree.topLevel ≤ tnodesMaxLevel
  rooted : tree.Rooted

theorem entry_eq (low : tree.topLevel ≤ tnodesMaxLevel) (chunkId : Nat) :
    tree.entry chunkId =
      if chunkId ≤ maxChunkId ∧ requiredDepth chunkId ≤ tree.topLevel then
        FileTnode.entry tree.topLevel tree.top chunkId
      else 0 := by
  by_cases inside : chunkId ≤ maxChunkId ∧ requiredDepth chunkId ≤ tree.topLevel
  · have reached : ¬(tnodesMaxLevel < tree.topLevel ∨ maxChunkId < chunkId ∨
        tree.topLevel < requiredDepth chunkId) := by omega
    rw [if_pos inside]
    cases found : find tree.topLevel tree.top chunkId with
    | none => simp only [entry, findTnode0, FileTnode.entry, if_neg reached, found]
    | some groups => simp only [entry, findTnode0, FileTnode.entry, if_neg reached, found]
  · have missed : tnodesMaxLevel < tree.topLevel ∨ maxChunkId < chunkId ∨
        tree.topLevel < requiredDepth chunkId := by omega
    simp only [entry, findTnode0, if_pos missed, if_neg inside]

/-! ## Making a tree taller -/

/-- The tree with one more level on top. -/
def taller (tree : FileTree) (tnode : Nat) : FileTree where
  topLevel := tree.topLevel + 1
  top := .node tnode (Function.update (fun _ => .null) 0 tree.top)

theorem entry_taller (low : tree.topLevel + 1 ≤ tnodesMaxLevel) (tnode chunkId : Nat) :
    (tree.taller tnode).entry chunkId = tree.entry chunkId := by
  refine (entry_of_first low (fun i later => ?_) chunkId).trans ?_
  · rw [Function.update_of_ne later]
    rfl
  · rw [Function.update_self]

theorem Sane.taller (sane : tree.Sane) (low : tree.topLevel + 1 ≤ tnodesMaxLevel) (tnode : Nat) :
    (tree.taller tnode).Sane := by
  refine ⟨low, ?_, shaped_update (fun _ => shaped_null _) 0 (Spined.shaped sane.rooted)⟩
  rw [Function.update_self]
  exact sane.rooted

/-- What growing leaves of a tree. -/
theorem grow_entries (more : Nat) (mem : TnodeMemory) (sane : tree.Sane)
    (low : tree.topLevel + more ≤ tnodesMaxLevel) :
    (∀ chunkId, (grow more tree mem).2.1.entry chunkId = tree.entry chunkId) ∧
      (grow more tree mem).2.1.Sane ∧
      ((grow more tree mem).1 = true →
        (grow more tree mem).2.1.topLevel = tree.topLevel + more) := by
  induction more generalizing tree mem with
  | zero => exact ⟨fun _ => rfl, sane, fun _ => rfl⟩
  | succ more ih =>
    simp only [grow]
    split
    case h_1 => exact ⟨fun _ => rfl, sane, by simp⟩
    case h_2 tnode taken =>
      have low' : tree.topLevel + 1 ≤ tnodesMaxLevel := by omega
      have level : (tree.taller tnode).topLevel = tree.topLevel + 1 := rfl
      obtain ⟨same, sane', tall⟩ := ih mem.getTnode.2 (sane.taller low' tnode) (by omega)
      refine ⟨fun chunkId => (same chunkId).trans (entry_taller low' tnode chunkId), sane',
        fun ok => (tall ok).trans (by omega)⟩

/-- Having the level 0 tnode of a chunk changes no number, whether or not there is memory for all
the tnodes that are missing. -/
theorem addFindTnode0_entries (chunkId : Nat) (mem : TnodeMemory) (sane : tree.Sane) :
    (∀ other, (tree.addFindTnode0 chunkId mem).2.1.entry other = tree.entry other) ∧
      (tree.addFindTnode0 chunkId mem).2.1.Sane ∧
      ((tree.addFindTnode0 chunkId mem).1 = true →
        ((tree.addFindTnode0 chunkId mem).2.1.findTnode0 chunkId).isSome) := by
  have not_tall := sane.low
  simp only [addFindTnode0]
  split
  case isTrue => exact ⟨fun _ => rfl, sane, by simp⟩
  case isFalse sane_request =>
    have small : chunkId ≤ maxChunkId := by omega
    have depth : requiredDepth chunkId ≤ tnodesMaxLevel :=
      (requiredDepth_le_iff small _).mpr (Nat.lt_succ_of_le small)
    obtain ⟨same, sane', tall⟩ := grow_entries (requiredDepth chunkId - tree.topLevel) mem sane
      (by omega)
    generalize grow (requiredDepth chunkId - tree.topLevel) tree mem = grown at same sane' tall ⊢
    split
    case isFalse failed => exact ⟨same, sane', fun ok => absurd ok failed⟩
    case isTrue ok =>
      obtain ⟨same_below, reached⟩ := addFindFrom_entries chunkId grown.2.2
        (Spined.shaped sane'.rooted)
      have low' := sane'.low
      have level := tall ok
      refine ⟨fun other => Eq.trans ?_ (same other),
        ⟨low', addFindFrom_spined chunkId _ sane'.rooted⟩, fun found_ok => ?_⟩
      · rw [entry_eq (by exact low'), entry_eq low', same_below]
      · have inside : ¬(tnodesMaxLevel < grown.2.1.topLevel ∨ maxChunkId < chunkId ∨
            grown.2.1.topLevel < requiredDepth chunkId) := by omega
        rw [findTnode0, if_neg inside]
        exact reached found_ok

/-! ## Storing a number -/

/-- Store a number for a chunk whose level 0 tnode is there. -/
def store (tree : FileTree) (chunkId group : Nat) : FileTree :=
  { tree with top := tree.top.loadTnode0 group tree.topLevel chunkId }

theorem Sane.store (sane : tree.Sane) (chunkId group : Nat) : (tree.store chunkId group).Sane :=
  ⟨sane.low, loadTnode0_spined group chunkId sane.rooted⟩

/-- The number of the chunk is the one stored, and all other numbers are what they were. -/
theorem entry_store (sane : tree.Sane) {chunkId : Nat}
    (found : (tree.findTnode0 chunkId).isSome) (group other : Nat) :
    (tree.store chunkId group).entry other = if other = chunkId then group else
    tree.entry other := by
  obtain ⟨groups, found⟩ := Option.isSome_iff_exists.mp found
  rw [findTnode0] at found
  split at found
  case isTrue => cases found
  case isFalse reached =>
    have low := sane.low
    have low' : (tree.store chunkId group).topLevel ≤ tnodesMaxLevel := low
    have level : (tree.store chunkId group).topLevel = tree.topLevel := rfl
    rw [entry_eq low', entry_eq low, level]
    by_cases same_leaf : other / 16 = chunkId / 16
    · have depth : requiredDepth other = requiredDepth chunkId := by
        rw [requiredDepth, requiredDepth, Nat.shiftRight_eq_div_pow, Nat.shiftRight_eq_div_pow]
        exact congrArg (shiftsToZero 11) same_leaf
      have inside : other ≤ maxChunkId ∧ requiredDepth other ≤ tree.topLevel := by
        rw [depth]
        simp only [maxChunkId] at reached ⊢
        omega
      rw [if_pos inside, if_pos inside, FileTnode.entry, FileTnode.entry, find_congr same_leaf,
        find_congr same_leaf, store, find_loadTnode0_self, found, Option.map_some]
      by_cases eq : other = chunkId
      · rw [if_pos eq, eq]
        exact Function.update_self ..
      · have apart : Fin.ofNat 16 other ≠ Fin.ofNat 16 chunkId := by
          intro same
          have digit := congrArg Fin.val same
          rw [Fin.val_ofNat, Fin.val_ofNat] at digit
          omega
        rw [if_neg eq]
        exact Function.update_of_ne apart ..
    · have ne : other ≠ chunkId := fun eq => same_leaf (by rw [eq])
      rw [if_neg ne]
      split
      case isFalse => rfl
      case isTrue inside =>
        have bound : other < chunksOfLevel tree.topLevel :=
          (requiredDepth_le_iff inside.1 _).mp inside.2
        have bound' := (requiredDepth_le_iff (by omega : chunkId ≤ maxChunkId) _).mp
          (by omega : requiredDepth chunkId ≤ tree.topLevel)
        have apart : other / 16 % 8 ^ tree.topLevel ≠ chunkId / 16 % 8 ^ tree.topLevel := by
          rw [Nat.mod_eq_of_lt (Nat.div_lt_of_lt_mul bound),
            Nat.mod_eq_of_lt (Nat.div_lt_of_lt_mul bound')]
          exact same_leaf
        rw [FileTnode.entry, FileTnode.entry, store, find_loadTnode0_other group apart]

/-! ## Counting chunks -/

/-- The chunks that a number is stored for. -/
def chunks (tree : FileTree) : Set Nat := {chunkId | tree.entry chunkId ≠ 0}

theorem Sane.chunks_finite (sane : tree.Sane) : tree.chunks.Finite := by
  refine (Set.finite_Iic maxChunkId).subset fun chunkId stored => ?_
  by_contra large
  rw [Set.mem_Iic] at large
  exact stored (by rw [entry_eq sane.low, if_neg fun inside => large inside.1])

theorem chunks_congr {tree' : FileTree} (same : ∀ chunkId, tree'.entry chunkId = tree.entry chunkId) :
    tree'.chunks = tree.chunks := by
  simp only [chunks, same]

/-- A number that is stored makes one more chunk, unless there has been a number for the chunk. -/
theorem Sane.ncard_store (sane : tree.Sane) {chunkId group : Nat}
    (found : (tree.findTnode0 chunkId).isSome) (positive : group ≠ 0) :
    (tree.store chunkId group).chunks.ncard =
      if tree.entry chunkId = 0 then tree.chunks.ncard + 1 else tree.chunks.ncard := by
  have inserted : (tree.store chunkId group).chunks = insert chunkId tree.chunks := by
    ext other
    rw [Set.mem_insert_iff, chunks, Set.mem_ofPred_eq, entry_store sane found]
    split
    case isTrue same => exact iff_of_true positive (Or.inl same)
    case isFalse ne => rw [or_iff_right ne, chunks, Set.mem_ofPred_eq]
  rw [inserted]
  split
  case isTrue zero =>
    have fresh : chunkId ∉ tree.chunks := fun stored => stored zero
    exact Set.ncard_insert_of_notMem fresh sane.chunks_finite
  case isFalse stored => rw [Set.insert_eq_of_mem (show chunkId ∈ tree.chunks from stored)]

/-- Taking a number away makes one chunk less. -/
theorem Sane.ncard_store_zero (sane : tree.Sane) {chunkId : Nat}
    (found : (tree.findTnode0 chunkId).isSome) (stored : tree.entry chunkId ≠ 0) :
    (tree.store chunkId 0).chunks.ncard + 1 = tree.chunks.ncard := by
  have removed : (tree.store chunkId 0).chunks = tree.chunks \ {chunkId} := by
    ext other
    rw [Set.mem_sdiff, Set.mem_singleton_iff, chunks, Set.mem_ofPred_eq, entry_store sane found]
    split
    case isTrue same => exact iff_of_false (fun zero => zero rfl) fun both => both.2 same
    case isFalse ne => rw [and_iff_left ne, chunks, Set.mem_ofPred_eq]
  rw [removed]
  exact Set.ncard_sdiff_singleton_add_one stored sane.chunks_finite

/-! ## Pruning -/

theorem shorten_low (level : Nat) (top : FileTnode) (mem : TnodeMemory) :
    (shorten level top mem).1.topLevel ≤ level := by
  induction level generalizing top mem with
  | zero => exact le_rfl
  | succ level ih =>
    cases top with
    | null => exact le_rfl
    | leaf => exact le_rfl
    | node tnode children =>
      simp only [shorten]
      split
      · exact (ih _ _).trans (Nat.le_succ level)
      · exact le_rfl

theorem pruneTree_entries (mem : TnodeMemory) (sane : tree.Sane) :
    (∀ chunkId, (tree.pruneTree mem).1.entry chunkId = tree.entry chunkId) ∧
      (tree.pruneTree mem).1.Sane := by
  have rooted := (pruneTree_spec mem sane.rooted).2.1
  rw [pruneTree_eq] at rooted ⊢
  split at rooted
  case isTrue flat =>
    rw [if_pos flat]
    exact ⟨fun _ => rfl, sane⟩
  case isFalse tall =>
    rw [if_neg tall]
    exact ⟨fun chunkId => entry_shorten sane.low tree.top mem chunkId,
      (shorten_low tree.topLevel tree.top mem).trans sane.low, rooted⟩

end FileTree

/-! ## Enough memory -/

/-- No coming request for memory is refused. -/
def TnodeMemory.Plenty (mem : TnodeMemory) : Prop := ∀ answer ∈ mem.kmallocs, answer = true

namespace TnodeMemory

variable {mem : TnodeMemory}

theorem Plenty.getTnode (plenty : mem.Plenty) :
    mem.getTnode.1.isSome ∧ mem.getTnode.2.Plenty := by
  have yes : mem.kmallocs.headD true = true := by
    cases kmallocs : mem.kmallocs with
    | nil => rfl
    | cons answer rest => exact plenty answer (by rw [kmallocs]; exact List.mem_cons_self)
  simp only [TnodeMemory.getTnode, allocRawTnode]
  split
  case isTrue none_free =>
    rw [createTnodes, if_pos yes]
    simp only [allocationNTnodes, List.range'_succ, List.cons_append]
    exact ⟨rfl, fun answer inside => plenty answer (List.mem_of_mem_drop inside)⟩
  case isFalse some_free =>
    cases free : mem.freeTnodes with
    | nil => exact absurd (by rw [free]; rfl) some_free
    | cons tnode rest => exact ⟨rfl, plenty⟩

theorem Plenty.freeTnode (plenty : mem.Plenty) (tnode : Option Nat) :
    (mem.freeTnode tnode).Plenty := plenty

end TnodeMemory

namespace FileTnode

/-- With enough memory the way down is completed. -/
theorem addFindFrom_plenty (chunkId : Nat) {level : Nat} {tnode : FileTnode} {mem : TnodeMemory}
    (plenty : mem.Plenty) (shaped : Shaped level tnode) (not_null : ¬tnode.isNull) :
    (addFindFrom chunkId level tnode mem).1 = true ∧
      (addFindFrom chunkId level tnode mem).2.2.Plenty := by
  induction level generalizing tnode mem with
  | zero =>
    cases tnode with
    | null => exact absurd rfl not_null
    | leaf => exact ⟨rfl, plenty⟩
    | node => exact shaped.elim
  | succ level ih =>
    cases tnode with
    | null => exact absurd rfl not_null
    | leaf => exact shaped.elim
    | node tnode children =>
      simp only [addFindFrom]
      generalize Tnode.childIndex level chunkId = index
      have made : let child : FileTnode × TnodeMemory :=
            if (children index).isNull then (blank level mem.getTnode.1, mem.getTnode.2)
            else (children index, mem)
          Shaped level child.1 ∧ ¬child.1.isNull ∧ child.2.Plenty := by
        dsimp only
        split
        case isTrue =>
          obtain ⟨there, plenty'⟩ := plenty.getTnode
          obtain ⟨tnode', tnode_eq⟩ := Option.isSome_iff_exists.mp there
          refine ⟨shaped_blank level _, ?_, plenty'⟩
          rw [tnode_eq]
          cases level <;> exact Bool.false_ne_true
        case isFalse there => exact ⟨shaped index, there, plenty⟩
      dsimp only at made
      generalize (if (children index).isNull then (blank level mem.getTnode.1, mem.getTnode.2)
        else (children index, mem) : FileTnode × TnodeMemory) = child at made ⊢
      obtain ⟨shaped', there, plenty'⟩ := made
      rw [if_neg there]
      exact ih plenty' shaped' there

theorem shorten_plenty (level : Nat) (top : FileTnode) {mem : TnodeMemory} (plenty : mem.Plenty) :
    (shorten level top mem).2.Plenty := by
  induction level generalizing top mem with
  | zero => exact plenty
  | succ level ih =>
    cases top with
    | null => exact plenty
    | leaf => exact plenty
    | node tnode children =>
      simp only [shorten]
      split
      · exact ih _ (plenty.freeTnode _)
      · exact plenty

end FileTnode

namespace FileTree

open FileTnode

variable {tree : FileTree} {mem : TnodeMemory}

theorem grow_plenty (more : Nat) (tree : FileTree) (plenty : mem.Plenty) :
    (grow more tree mem).1 = true ∧ (grow more tree mem).2.2.Plenty := by
  induction more generalizing tree mem with
  | zero => exact ⟨rfl, plenty⟩
  | succ more ih =>
    obtain ⟨there, plenty'⟩ := plenty.getTnode
    obtain ⟨tnode, tnode_eq⟩ := Option.isSome_iff_exists.mp there
    simp only [grow, tnode_eq]
    exact ih _ plenty'

/-- With enough memory there is room for every chunk that a file may have. -/
theorem addFindTnode0_plenty {chunkId : Nat} (small : chunkId ≤ maxChunkId) (sane : tree.Sane)
    (plenty : mem.Plenty) :
    (tree.addFindTnode0 chunkId mem).1 = true ∧ (tree.addFindTnode0 chunkId mem).2.2.Plenty := by
  have not_tall := sane.low
  have depth : requiredDepth chunkId ≤ tnodesMaxLevel :=
    (requiredDepth_le_iff small _).mpr (Nat.lt_succ_of_le small)
  have request : ¬(tnodesMaxLevel < tree.topLevel ∨ maxChunkId < chunkId) := by omega
  obtain ⟨ok, plenty'⟩ := grow_plenty (requiredDepth chunkId - tree.topLevel) tree plenty
  have grown := (grow_entries (requiredDepth chunkId - tree.topLevel) mem sane (by omega)).2.1
  simp only [addFindTnode0, if_neg request]
  rw [if_pos ok]
  exact addFindFrom_plenty chunkId plenty' (Spined.shaped grown.rooted)
    (Rooted.not_null grown.rooted)

theorem addFindTnode0_keeps_plenty (chunkId : Nat) (sane : tree.Sane) (plenty : mem.Plenty) :
    (tree.addFindTnode0 chunkId mem).2.2.Plenty := by
  by_cases small : chunkId ≤ maxChunkId
  · exact (addFindTnode0_plenty small sane plenty).2
  · simp only [addFindTnode0, not_le.mp small, or_true, if_true]
    exact plenty

theorem pruneTree_plenty (tree : FileTree) (plenty : mem.Plenty) :
    (tree.pruneTree mem).2.Plenty := by
  rw [pruneTree_eq]
  split
  · exact plenty
  · exact shorten_plenty _ _ plenty

end FileTree

end Yaffs
