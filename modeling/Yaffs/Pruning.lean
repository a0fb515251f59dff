import Yaffs.FileTreeBooks

/-!
# What pruning leaves in a tree

Pruning should free every part of a tree without a stored chunk, but for the first tnodes of each level,
and make the tree as low as its chunks allow.  The recursion never frees a tnode, because the leave to do
so is only passed on to the first children.  So what is left is as tight as the tree was before.
-/

namespace Yaffs

namespace FileTnode

/-- Is a number other than zero stored below a tnode? -/
def holdsData : Nat → FileTnode → Bool
  | 0, leaf _ groups => decide (∃ i, groups i ≠ 0)
  | level + 1, node _ children => decide (∃ i, holdsData level (children i))
  | _, _ => false

/-- Does every tnode from this one on downwards hold data? -/
def isFull : Nat → FileTnode → Bool
  | _, null => true
  | 0, leaf tnode groups => holdsData 0 (leaf tnode groups)
  | level + 1, node tnode children =>
    holdsData (level + 1) (node tnode children) && decide (∀ i, isFull level (children i))
  | _, _ => false

/-- Does every tnode hold data that is not the first one of its level? -/
def isTight : Nat → FileTnode → Bool
  | level + 1, node _ children =>
    isTight level (children 0) && decide (∀ i, i ≠ 0 → isFull level (children i))
  | _, _ => true

/-- No null pointer is followed while the top is taken off. -/
def shortenSafe : Nat → FileTnode → Prop
  | 0, _ => True
  | level + 1, node _ children =>
    (∀ i, i ≠ 0 → (children i).isNull) → shortenSafe level (children 0)
  | _, _ => False

theorem find_null (level chunkId : Nat) : find level null chunkId = none := by
  cases level <;> rfl

/-- Only the digits of a chunk number up to the level matter. -/
theorem find_add (level more chunkId : Nat) (tnode : FileTnode) :
    find level tnode (more * chunksOfLevel level + chunkId) = find level tnode chunkId := by
  induction level generalizing tnode more with
  | zero => cases tnode <;> rfl
  | succ level ih =>
    cases tnode with
    | null => rfl
    | leaf => rfl
    | node tnode children =>
      have taller : more * chunksOfLevel (level + 1) = more * 8 * chunksOfLevel level := by
        rw [chunksOfLevel_succ, mul_assoc]
      have same : Tnode.childIndex level (more * chunksOfLevel (level + 1) + chunkId) =
          Tnode.childIndex level chunkId := by
        apply Fin.ext
        rw [childIndex_val, childIndex_val, taller, add_comm,
          Nat.add_mul_div_right _ _ (chunksOfLevel_pos level)]
        omega
      rw [find, find, same, taller]
      exact ih (more * 8) _

/-- The chunks of a child follow those of the children before it. -/
theorem find_child {level chunkId : Nat} (bound : chunkId < chunksOfLevel level) (tnode : Nat)
    (children : Fin 8 → FileTnode) (i : Fin 8) :
    find (level + 1) (node tnode children) (i * chunksOfLevel level + chunkId) =
      find level (children i) chunkId := by
  have index : Tnode.childIndex level (i * chunksOfLevel level + chunkId) = i := by
    apply Fin.ext
    rw [childIndex_val, add_comm, Nat.add_mul_div_right _ _ (chunksOfLevel_pos level),
      Nat.div_eq_of_lt bound]
    omega
  rw [find, index, find_add]

theorem child_lt {level chunkId : Nat} (bound : chunkId < chunksOfLevel level) (i : Fin 8) :
    i * chunksOfLevel level + chunkId < chunksOfLevel (level + 1) := by
  have last : i * chunksOfLevel level ≤ 7 * chunksOfLevel level :=
    Nat.mul_le_mul_right _ (by omega)
  rw [chunksOfLevel_succ]
  omega

/-- The position in the level 0 tnode is the lowest digit. -/
theorem ofNat_add (level more chunkId : Nat) :
    Fin.ofNat 16 (more * chunksOfLevel level + chunkId) = Fin.ofNat 16 chunkId := by
  have whole : more * chunksOfLevel level = 16 * (more * 8 ^ level) := by
    rw [chunksOfLevel]
    ring
  apply Fin.ext
  rw [Fin.val_ofNat, Fin.val_ofNat, whole, Nat.mul_add_mod]

/-- Data below a tnode belongs to a chunk. -/
theorem exists_of_holdsData {level : Nat} {tnode : FileTnode} (holds : holdsData level tnode) :
    ∃ chunkId, chunkId < chunksOfLevel level ∧
      ∃ groups, find level tnode chunkId = some groups ∧ groups (Fin.ofNat 16 chunkId) ≠ 0 := by
  induction level generalizing tnode with
  | zero =>
    cases tnode with
    | null => cases holds
    | node => cases holds
    | leaf tnode groups =>
      obtain ⟨i, stored⟩ := of_decide_eq_true holds
      exact ⟨i, i.isLt, groups, rfl, by simpa using stored⟩
  | succ level ih =>
    cases tnode with
    | null => cases holds
    | leaf => cases holds
    | node tnode children =>
      obtain ⟨i, below⟩ := of_decide_eq_true holds
      obtain ⟨chunkId, bound, groups, found, stored⟩ := ih below
      refine ⟨i * chunksOfLevel level + chunkId, child_lt bound i, groups, ?_, ?_⟩
      · rw [find_child bound, found]
      · rwa [ofNat_add]

theorem isFull_holds {level : Nat} {tnode : FileTnode} (full : isFull level tnode)
    (not_null : ¬tnode.isNull) : holdsData level tnode := by
  cases level with
  | zero =>
    cases tnode with
    | null => exact absurd rfl not_null
    | node => cases full
    | leaf => exact full
  | succ level =>
    cases tnode with
    | null => exact absurd rfl not_null
    | leaf => cases full
    | node tnode children =>
      rw [isFull, Bool.and_eq_true] at full
      exact full.1

theorem isFull_null (level : Nat) : isFull level null := by
  cases level <;> rfl

/-- A tnode without children but the first is as tight as that child. -/
theorem isTight_of_first {level tnode : Nat} {children : Fin 8 → FileTnode}
    (only_first : ∀ i, i ≠ 0 → (children i).isNull) :
    isTight (level + 1) (node tnode children) = isTight level (children 0) := by
  have others : ∀ i, i ≠ 0 → isFull level (children i) := by
    intro i later
    rw [eq_null_of_isNull (only_first i later)]
    exact isFull_null level
  rw [isTight, decide_eq_true others, Bool.and_true]

theorem shortenSafe_of_spined {level : Nat} {top : FileTnode} (spined : Spined level top) :
    shortenSafe level top := by
  induction level generalizing top with
  | zero => trivial
  | succ level ih =>
    cases top with
    | null => exact spined.elim
    | leaf => exact spined.elim
    | node tnode children => exact fun _ => ih spined.1

/-- Taking off the top takes tnodes away and leaves the tree as tight as it was. -/
theorem shorten_tight (level : Nat) (top : FileTnode) (mem : TnodeMemory) :
    (shorten level top mem).1.top.tnodes ≤ top.tnodes ∧
      isTight (shorten level top mem).1.topLevel (shorten level top mem).1.top =
        isTight level top := by
  induction level generalizing top mem with
  | zero => exact ⟨le_rfl, rfl⟩
  | succ level ih =>
    cases top with
    | null => exact ⟨le_rfl, rfl⟩
    | leaf => exact ⟨le_rfl, rfl⟩
    | node tnode children =>
      simp only [shorten]
      split
      case isFalse => exact ⟨le_rfl, rfl⟩
      case isTrue only_first =>
        obtain ⟨fewer, tight⟩ := ih (children 0) (mem.freeTnode (some tnode))
        refine ⟨fewer.trans ?_, tight.trans (isTight_of_first only_first).symm⟩
        have part : (children 0).tnodes ≤ ∑ i, (children i).tnodes :=
          Finset.single_le_sum (fun _ _ => Multiset.zero_le _) (Finset.mem_univ 0)
        exact part.trans (Multiset.le_cons_self _ _)

end FileTnode

namespace FileTree

open FileTnode

/-- The number stored for a chunk, zero if there is none. -/
def entry (tree : FileTree) (chunkId : Nat) : Nat :=
  match tree.findTnode0 chunkId with
  | none => 0
  | some groups => groups (Fin.ofNat 16 chunkId)

/-- A tree without chunks beyond its first child is the tree of this child. -/
theorem entry_of_first {level tnode : Nat} {children : Fin 8 → FileTnode}
    (low : level + 1 ≤ tnodesMaxLevel) (only_first : ∀ i, i ≠ 0 → (children i).isNull)
    (chunkId : Nat) :
    entry { topLevel := level + 1, top := node tnode children } chunkId =
      entry { topLevel := level, top := children 0 } chunkId := by
  have low' : ¬tnodesMaxLevel < level + 1 := not_lt.mpr low
  have low'' : ¬tnodesMaxLevel < level := by omega
  by_cases sane : chunkId ≤ maxChunkId
  · have sane' : ¬maxChunkId < chunkId := not_lt.mpr sane
    simp only [entry, findTnode0, low', low'', sane', false_or]
    by_cases deep : requiredDepth chunkId ≤ level
    · have bound := (requiredDepth_le_iff sane level).mp deep
      have index := childIndex_eq_zero bound
      have deep' : ¬level + 1 < requiredDepth chunkId := by omega
      rw [if_neg deep', if_neg (not_lt.mpr deep), find, index]
    · rw [if_pos (not_le.mp deep)]
      split
      case h_1 => rfl
      case h_2 groups found =>
        split at found
        case isTrue => cases found
        case isFalse shallow =>
          -- The digit of the chunk at this level is not zero, and the children there are null.
          have beyond := mt (requiredDepth_le_iff sane level).mpr deep
          have within := (requiredDepth_le_iff sane (level + 1)).mp (not_lt.mp shallow)
          have later := childIndex_ne_zero beyond within
          rw [find, eq_null_of_isNull (only_first _ later), find_null] at found
          cases found
  · have sane' : maxChunkId < chunkId := not_le.mp sane
    simp [entry, findTnode0, sane']

theorem entry_shorten {level : Nat} (low : level ≤ tnodesMaxLevel) (top : FileTnode)
    (mem : TnodeMemory) (chunkId : Nat) :
    (shorten level top mem).1.entry chunkId = entry { topLevel := level, top } chunkId := by
  induction level generalizing top mem with
  | zero => rfl
  | succ level ih =>
    cases top with
    | null => rfl
    | leaf => rfl
    | node tnode children =>
      simp only [shorten]
      split
      case isTrue only_first =>
        exact (ih (by omega) _ _).trans (entry_of_first low only_first chunkId).symm
      case isFalse => rfl

theorem requiredDepth_of_entry {tree : FileTree} {chunkId : Nat}
    (stored : tree.entry chunkId ≠ 0) : requiredDepth chunkId ≤ tree.topLevel := by
  rw [entry, findTnode0] at stored
  split at stored
  case h_1 => exact absurd rfl stored
  case h_2 groups found =>
    split at found
    case isTrue => cases found
    case isFalse shallow => omega

/-- A child of a tight tree that is not the first stores a chunk that needs the height. -/
theorem exists_deep_entry {level tnode : Nat} {children : Fin 8 → FileTnode}
    (low : level + 1 ≤ tnodesMaxLevel) {i : Fin 8} (later : i ≠ 0)
    (holds : holdsData level (children i)) :
    ∃ chunkId, entry { topLevel := level + 1, top := node tnode children } chunkId ≠ 0 ∧
      level < requiredDepth chunkId := by
  obtain ⟨chunkId, bound, groups, found, stored⟩ := exists_of_holdsData holds
  have within := child_lt bound i
  have sane := sane_of_lt low within
  have shallow := (requiredDepth_le_iff sane (level + 1)).mpr within
  refine ⟨i * chunksOfLevel level + chunkId, ?_, ?_⟩
  · have inside : ¬(tnodesMaxLevel < level + 1 ∨ maxChunkId < i * chunksOfLevel level + chunkId ∨
        level + 1 < requiredDepth (i * chunksOfLevel level + chunkId)) := by omega
    simp only [entry, findTnode0, if_neg inside, find_child bound, found]
    rwa [ofNat_add]
  · rw [← not_le, requiredDepth_le_iff sane]
    have first : 1 * chunksOfLevel level ≤ i * chunksOfLevel level := by
      refine Nat.mul_le_mul_right _ (Nat.one_le_iff_ne_zero.mpr fun zero => later ?_)
      exact Fin.ext zero
    omega

/-- Taking off the top of a tight tree stops at the height that a stored chunk needs. -/
theorem shorten_least {level : Nat} {top : FileTnode} (low : level ≤ tnodesMaxLevel)
    (spined : Spined level top) (tight : isTight level top) (mem : TnodeMemory) :
    (shorten level top mem).1.topLevel = 0 ∨
      ∃ chunkId, (shorten level top mem).1.entry chunkId ≠ 0 ∧
        (shorten level top mem).1.topLevel ≤ requiredDepth chunkId := by
  induction level generalizing top mem with
  | zero => exact .inl rfl
  | succ level ih =>
    cases top with
    | null => exact spined.elim
    | leaf => exact spined.elim
    | node tnode children =>
      have tight' := tight
      rw [isTight, Bool.and_eq_true] at tight'
      simp only [shorten]
      split
      case isTrue only_first => exact ih (by omega) spined.1 tight'.1 _
      case isFalse others =>
        push Not at others
        obtain ⟨i, later, not_null⟩ := others
        have holds := isFull_holds (of_decide_eq_true tight'.2 i later) not_null
        obtain ⟨chunkId, stored, deep⟩ := exists_deep_entry low later holds
        exact .inr ⟨chunkId, stored, deep⟩

/-- What pruning a tree should do. -/
structure IsPruned (tree : FileTree) (mem : TnodeMemory) : Prop where
  same : ∀ chunkId, (tree.pruneTree mem).1.entry chunkId = tree.entry chunkId
  tight : isTight (tree.pruneTree mem).1.topLevel (tree.pruneTree mem).1.top
  /-- The height is the least one with which every stored chunk is found. -/
  least : IsLeast {level | ∀ chunkId, tree.entry chunkId ≠ 0 → requiredDepth chunkId ≤ level}
    (tree.pruneTree mem).1.topLevel
  removed : (tree.pruneTree mem).1.top.tnodes ≤ tree.top.tnodes
  /-- The tnodes that have gone have been counted. -/
  counted : (tree.pruneTree mem).2.nTnodes =
    mem.nTnodes - (tree.top.tnodes - (tree.pruneTree mem).1.top.tnodes).card
  /-- The loop that takes off the top finds a tnode there each time. -/
  safe : 0 < tree.topLevel →
    shortenSafe tree.topLevel (tree.top.pruneWorker tree.topLevel false mem).1

/-- Pruning does what it should if and only if there is nothing to free but the top. -/
theorem isPruned_iff {tree : FileTree} (rooted : tree.Rooted)
    (low : tree.topLevel ≤ tnodesMaxLevel) (mem : TnodeMemory) :
    tree.IsPruned mem ↔ isTight tree.topLevel tree.top := by
  have pruned : tree.pruneTree mem = tree.top.shorten tree.topLevel mem := by
    rw [pruneTree_eq]
    split
    case isTrue flat =>
      have zero : tree.topLevel = 0 := by omega
      cases tree
      cases zero
      rfl
    case isFalse => rfl
  obtain ⟨fewer, tight⟩ := shorten_tight tree.topLevel tree.top mem
  obtain ⟨moves, -, -⟩ := shorten_spec mem rooted
  constructor
  · rintro ⟨-, still_tight, -, -, -, -⟩
    rwa [pruned, tight] at still_tight
  · intro is_tight
    have same (chunkId : Nat) := entry_shorten low tree.top mem chunkId
    constructor
    case same =>
      rw [pruned]
      exact same
    case tight => rwa [pruned, tight]
    case least =>
      rw [pruned]
      constructor
      · intro chunkId stored
        rw [← same chunkId] at stored
        exact requiredDepth_of_entry stored
      · intro level enough
        obtain flat | ⟨chunkId, stored, deep⟩ := shorten_least low rooted is_tight mem
        · omega
        · exact deep.trans (enough chunkId ((same chunkId).symm ▸ stored))
    case removed => rwa [pruned]
    case counted =>
      have count := moves.count
      rw [pruned, Multiset.card_sub fewer, Nat.cast_sub (Multiset.card_le_card fewer)]
      omega
    case safe =>
      intro _
      rw [pruneWorker_false]
      exact shortenSafe_of_spined rooted

/-- A tree of two levels, of which the first level 0 tnode stores a chunk.  Its second child is given. -/
def twoLevels (second : FileTnode) : FileTree where
  topLevel := 1
  top := .node 0 fun i =>
    if i = 0 then .leaf 1 fun j => if j = 0 then 5 else 0 else if i = 1 then second else .null

theorem rooted_twoLevels (tnode : Nat) (groups : Fin 16 → Nat) :
    (twoLevels (.leaf tnode groups)).Rooted := by
  refine ⟨trivial, fun i => ?_⟩
  dsimp only
  split
  · trivial
  · split
    · trivial
    · exact shaped_null 0

theorem isPruned_iff_twoLevels :
    (twoLevels (.leaf 2 fun _ => 7)).IsPruned {} ↔
      isTight 1 (twoLevels (.leaf 2 fun _ => 7)).top :=
  isPruned_iff (rooted_twoLevels 2 fun _ => 7) (by decide) {}

/-- A level 0 tnode whose numbers have all been zeroed stays in the tree. -/
theorem not_isPruned_of_zeroed :
    ¬∀ tree : FileTree, tree.Rooted → tree.topLevel ≤ tnodesMaxLevel → ∀ mem, tree.IsPruned mem := by
  intro always
  have pruned := always _ (rooted_twoLevels 2 fun _ => 0) (by decide) {}
  exact absurd pruned.tight (by decide +kernel)

end FileTree

end Yaffs
