import Yaffs.FileTrees
import Mathlib.Tactic.Abel

/-!
# Books of the tnodes

A tnode that was ever made is free or in use.  Every operation on a tree moves tnodes between the
free ones and the tree, and counts them.
-/

namespace Yaffs

/-- Tnodes have moved between the free ones and a place that has held `before` and holds `after`. -/
structure TnodeMoves (before after : Multiset Nat) (mem mem' : TnodeMemory) : Prop where
  created : mem.nTnodesCreated ≤ mem'.nTnodesCreated
  balance : (mem'.freeTnodes : Multiset Nat) + after + Multiset.range mem.nTnodesCreated =
    mem.freeTnodes + before + Multiset.range mem'.nTnodesCreated
  count : mem'.nTnodes - after.card = mem.nTnodes - before.card

namespace TnodeMoves

variable {before after later extra : Multiset Nat} {mem mem' mem'' : TnodeMemory}

theorem refl (held : Multiset Nat) (mem : TnodeMemory) : TnodeMoves held held mem mem :=
  ⟨le_refl _, rfl, rfl⟩

theorem trans (first : TnodeMoves before after mem mem')
    (second : TnodeMoves after later mem' mem'') : TnodeMoves before later mem mem'' where
  created := first.created.trans second.created
  balance := by
    refine add_right_cancel
      (b := (mem'.freeTnodes : Multiset Nat) + after + Multiset.range mem'.nTnodesCreated) ?_
    have balance₁ := first.balance
    have balance₂ := second.balance
    calc
      (mem''.freeTnodes : Multiset Nat) + later + Multiset.range mem.nTnodesCreated +
            ((mem'.freeTnodes : Multiset Nat) + after + Multiset.range mem'.nTnodesCreated) =
          ((mem'.freeTnodes : Multiset Nat) + after + Multiset.range mem.nTnodesCreated) +
            ((mem''.freeTnodes : Multiset Nat) + later +
              Multiset.range mem'.nTnodesCreated) := by abel
      _ = _ := by
        rw [balance₁, balance₂]
        abel
  count := second.count.trans first.count

theorem of_eq (moves : TnodeMoves before after mem mem') {after' : Multiset Nat}
    (same : after' = after) : TnodeMoves before after' mem mem' := same ▸ moves

/-- What is held elsewhere stays there. -/
theorem frame (moves : TnodeMoves before after mem mem') (extra : Multiset Nat) :
    TnodeMoves (before + extra) (after + extra) mem mem' where
  created := moves.created
  balance := by
    rw [← add_assoc, add_right_comm _ extra, moves.balance]
    abel
  count := by
    have := moves.count
    rw [Multiset.card_add, Multiset.card_add]
    push_cast
    omega

end TnodeMoves

namespace TnodeMemory

variable (mem : TnodeMemory)

theorem createTnodes_moves (count : Nat) : TnodeMoves 0 0 mem (mem.createTnodes count) := by
  simp only [createTnodes]
  split
  case isTrue =>
    refine ⟨Nat.le_add_right .., ?_, rfl⟩
    dsimp only
    have range_eq : Multiset.range (mem.nTnodesCreated + count) =
        Multiset.range mem.nTnodesCreated + (List.range' mem.nTnodesCreated count : List Nat) := by
      rw [Multiset.range, Multiset.range, Multiset.coe_add, List.range_add,
        List.range'_eq_map_range]
    rw [range_eq, ← Multiset.coe_add]
    abel
  case isFalse => exact ⟨le_refl _, rfl, rfl⟩

/-- The free tnodes are filled up if there are none, and then one of them is taken. -/
theorem allocRawTnode_cases : ∃ full, TnodeMoves 0 0 mem full ∧
    ((full.freeTnodes = [] ∧ mem.allocRawTnode = (none, full)) ∨
      ∃ tnode rest, full.freeTnodes = tnode :: rest ∧
        mem.allocRawTnode = (some tnode, { full with freeTnodes := rest })) := by
  refine ⟨if mem.freeTnodes.isEmpty then mem.createTnodes allocationNTnodes else mem, ?_, ?_⟩
  · split
    · exact createTnodes_moves mem allocationNTnodes
    · exact TnodeMoves.refl 0 mem
  · simp only [allocRawTnode]
    cases free_eq : (if mem.freeTnodes.isEmpty then mem.createTnodes allocationNTnodes
        else mem).freeTnodes with
    | nil => exact Or.inl ⟨rfl, rfl⟩
    | cons tnode rest => exact Or.inr ⟨tnode, rest, rfl, rfl⟩

theorem getTnode_moves : TnodeMoves 0 (mem.getTnode.1.toList : Multiset Nat) mem mem.getTnode.2 := by
  obtain ⟨full, filled, ⟨free_eq, taken⟩ | ⟨tnode, rest, free_eq, taken⟩⟩ :=
    mem.allocRawTnode_cases
  · refine filled.trans ?_
    rw [getTnode, taken]
    exact ⟨le_refl _, by simp [free_eq], by simp⟩
  · refine filled.trans ?_
    rw [getTnode, taken]
    refine ⟨le_refl _, ?_, by simp⟩
    simp only [free_eq, Option.toList_some, Multiset.coe_singleton, add_zero]
    rw [← Multiset.cons_coe, ← Multiset.singleton_add]
    abel

theorem freeTnode_moves (tnode : Nat) : TnodeMoves {tnode} 0 mem (mem.freeTnode (some tnode)) := by
  refine ⟨le_refl _, ?_, ?_⟩
  · simp only [freeTnode, freeRawTnode, Option.toList_some, List.singleton_append, add_zero]
    rw [← Multiset.cons_coe, ← Multiset.singleton_add]
    abel
  · simp [freeTnode, freeRawTnode]

end TnodeMemory

namespace FileTnode

theorem tnodes_blank (level : Nat) (tnode : Option Nat) :
    (blank level tnode).tnodes = (tnode.toList : Multiset Nat) := by
  cases tnode with
  | none => rfl
  | some tnode =>
    simp only [blank]
    split
    · rfl
    · simp [tnodes]

theorem eq_null_of_isNull {tnode : FileTnode} (is_null : tnode.isNull) : tnode = null := by
  cases tnode with
  | null => rfl
  | leaf => cases is_null
  | node => cases is_null

/-- The tnodes below a tnode after one of its children has changed. -/
theorem sum_update (children : Fin 8 → FileTnode) (index : Fin 8) (child : FileTnode) :
    ∑ i, (Function.update children index child i).tnodes + (children index).tnodes =
      ∑ i, (children i).tnodes + child.tnodes := by
  rw [← Finset.add_sum_erase _ _ (Finset.mem_univ index),
    ← Finset.add_sum_erase Finset.univ (fun i => (children i).tnodes) (Finset.mem_univ index)]
  have others : ∑ i ∈ Finset.univ.erase index, (Function.update children index child i).tnodes =
      ∑ i ∈ Finset.univ.erase index, (children i).tnodes := by
    refine Finset.sum_congr rfl fun i i_mem => ?_
    rw [Function.update_of_ne (Finset.ne_of_mem_erase i_mem)]
  rw [others, Function.update_self]
  abel

/-- A child has changed, and nothing else of its parent. -/
theorem moves_child {tnode : Nat} {children : Fin 8 → FileTnode} {index : Fin 8}
    {child : FileTnode} {mem mem' : TnodeMemory}
    (moves : TnodeMoves (children index).tnodes child.tnodes mem mem') :
    TnodeMoves (node tnode children).tnodes
      (node tnode (Function.update children index child)).tnodes mem mem' := by
  let rest : Multiset Nat := tnode ::ₘ ∑ i ∈ Finset.univ.erase index, (children i).tnodes
  have before : (node tnode children).tnodes = (children index).tnodes + rest := by
    simp only [tnodes, rest, Multiset.add_cons]
    rw [Finset.add_sum_erase _ (fun i => (children i).tnodes) (Finset.mem_univ index)]
  have after : (node tnode (Function.update children index child)).tnodes =
      child.tnodes + rest := by
    simp only [tnodes, rest, Multiset.add_cons]
    rw [← Finset.add_sum_erase _ _ (Finset.mem_univ index), Function.update_self]
    congr 2
    refine Finset.sum_congr rfl fun i i_mem => ?_
    rw [Function.update_of_ne (Finset.ne_of_mem_erase i_mem)]
  rw [before, after]
  exact moves.frame rest

theorem tnodes_loadTnode0 (group level chunkId : Nat) (tnode : FileTnode) :
    (loadTnode0 group level tnode chunkId).tnodes = tnode.tnodes := by
  induction level generalizing tnode with
  | zero => cases tnode <;> rfl
  | succ level ih =>
    cases tnode with
    | null => rfl
    | leaf => rfl
    | node tnode children =>
      simp only [loadTnode0, tnodes]
      congr 1
      have changed := sum_update children (Tnode.childIndex level chunkId)
        (loadTnode0 group level (children (Tnode.childIndex level chunkId)) chunkId)
      rw [ih] at changed
      exact add_right_cancel changed

theorem addFindFrom_moves (chunkId level : Nat) (tnode : FileTnode) (mem : TnodeMemory) :
    TnodeMoves tnode.tnodes (addFindFrom chunkId level tnode mem).2.1.tnodes mem
      (addFindFrom chunkId level tnode mem).2.2 := by
  induction level generalizing tnode mem with
  | zero => cases tnode <;> exact TnodeMoves.refl _ _
  | succ level ih =>
    cases tnode with
    | null => exact TnodeMoves.refl _ _
    | leaf => exact TnodeMoves.refl _ _
    | node tnode children =>
      simp only [addFindFrom]
      generalize Tnode.childIndex level chunkId = index
      have made : TnodeMoves (children index).tnodes
          (if (children index).isNull then (blank level mem.getTnode.1, mem.getTnode.2)
            else (children index, mem) : FileTnode × TnodeMemory).1.tnodes mem
          (if (children index).isNull then (blank level mem.getTnode.1, mem.getTnode.2)
            else (children index, mem) : FileTnode × TnodeMemory).2 := by
        split
        case isTrue is_null =>
          rw [eq_null_of_isNull is_null, tnodes_blank]
          exact mem.getTnode_moves
        case isFalse => exact TnodeMoves.refl _ _
      have none_made :
          (if (children index).isNull then (blank level mem.getTnode.1, mem.getTnode.2)
            else (children index, mem) : FileTnode × TnodeMemory).1.isNull →
          (children index).isNull := by
        split
        case isTrue is_null => exact fun _ => is_null
        case isFalse => exact id
      generalize (if (children index).isNull then (blank level mem.getTnode.1, mem.getTnode.2)
        else (children index, mem) : FileTnode × TnodeMemory) = child at made none_made ⊢
      split
      case isTrue failed =>
        have same : child.1 = children index :=
          (eq_null_of_isNull failed).trans (eq_null_of_isNull (none_made failed)).symm
        have moved : TnodeMoves (node tnode children).tnodes
            (node tnode (Function.update children index child.1)).tnodes mem child.2 :=
          moves_child made
        rw [same, Function.update_eq_self] at moved
        exact moved
      case isFalse => exact moves_child (made.trans (ih child.1 child.2))

/-- Without leave to free the tnode itself nothing at all is pruned below it. -/
theorem pruneWorker_false (level : Nat) (tnode : FileTnode) (mem : TnodeMemory) :
    pruneWorker level tnode false mem = (tnode, mem) := by
  induction level generalizing tnode mem with
  | zero =>
    cases tnode with
    | null => rfl
    | leaf tnode groups => simp [pruneWorker]
    | node => rfl
  | succ level ih =>
    cases tnode with
    | null => rfl
    | leaf => rfl
    | node tnode children =>
      have kept : ∀ indices : List (Fin 8), indices.foldl
          (fun (state : (Fin 8 → FileTnode) × TnodeMemory) i =>
            let k := if i.val = 0 then false else false
            let child := pruneWorker level (state.1 i) k state.2
            (Function.update state.1 i child.1, child.2))
          (children, mem) = (children, mem) := by
        intro indices
        induction indices with
        | nil => rfl
        | cons i indices rest =>
          simp only [List.foldl_cons, ite_self, ih, Function.update_eq_self]
          simpa only [ite_self, ih, Function.update_eq_self] using rest
      simp only [pruneWorker, kept, and_false, Bool.false_eq_true, if_false]

/-! ## Shapes -/

/-- The kinds of the tnodes are those of their levels. -/
def Shaped : Nat → FileTnode → Prop
  | _, null => True
  | 0, leaf _ _ => True
  | level + 1, node _ children => ∀ i, Shaped level (children i)
  | _, _ => False

/-- Besides, the first children lead down to a level 0 tnode. -/
def Spined : Nat → FileTnode → Prop
  | 0, leaf _ _ => True
  | level + 1, node _ children => Spined level (children 0) ∧ ∀ i, Shaped level (children i)
  | _, _ => False

/-- There are no children but the first ones, which lead down to a level 0 tnode. -/
def Slim : Nat → FileTnode → Prop
  | 0, leaf _ _ => True
  | level + 1, node _ children => Slim level (children 0) ∧ ∀ i, i ≠ 0 → (children i).isNull
  | _, _ => False

/-- The tnode is all there is of the tree. -/
def Bare (tnode : FileTnode) : Prop := ∃ address, tnode.address = some address ∧
  tnode.tnodes = {address}

theorem shaped_null (level : Nat) : Shaped level null := by
  cases level <;> trivial

theorem Spined.shaped {level : Nat} {tnode : FileTnode} (spined : Spined level tnode) :
    Shaped level tnode := by
  cases level with
  | zero =>
    cases tnode with
    | null => trivial
    | leaf => trivial
    | node => exact spined
  | succ level =>
    cases tnode with
    | null => trivial
    | leaf => exact spined
    | node => exact spined.2

theorem Spined.not_null {level : Nat} {tnode : FileTnode} (spined : Spined level tnode) :
    ¬tnode.isNull := by
  cases tnode with
  | null => cases level <;> exact spined.elim
  | leaf => exact Bool.false_ne_true
  | node => exact Bool.false_ne_true

theorem Spined.bare {tnode : FileTnode} (spined : Spined 0 tnode) : Bare tnode := by
  cases tnode with
  | null => exact spined.elim
  | leaf tnode groups => exact ⟨tnode, rfl, rfl⟩
  | node => exact spined.elim

theorem Slim.of_spined {tnode : FileTnode} (spined : Spined 0 tnode) : Slim 0 tnode := by
  cases tnode with
  | null => exact spined.elim
  | leaf => trivial
  | node => exact spined.elim

theorem shaped_blank (level : Nat) (tnode : Option Nat) : Shaped level (blank level tnode) := by
  cases tnode with
  | none => exact shaped_null level
  | some tnode =>
    cases level with
    | zero => trivial
    | succ level => exact fun _ => shaped_null level

theorem shaped_update {level : Nat} {children : Fin 8 → FileTnode}
    (shaped : ∀ i, Shaped level (children i)) (index : Fin 8) {child : FileTnode}
    (child_shaped : Shaped level child) (i : Fin 8) :
    Shaped level (Function.update children index child i) := by
  rw [Function.update_apply]
  split
  · exact child_shaped
  · exact shaped i

theorem addFindFrom_shaped (chunkId : Nat) {level : Nat} {tnode : FileTnode} (mem : TnodeMemory)
    (shaped : Shaped level tnode) : Shaped level (addFindFrom chunkId level tnode mem).2.1 := by
  induction level generalizing tnode mem with
  | zero => cases tnode <;> exact shaped
  | succ level ih =>
    cases tnode with
    | null => exact shaped
    | leaf => exact shaped
    | node tnode children =>
      simp only [addFindFrom]
      generalize Tnode.childIndex level chunkId = index
      have made : Shaped level
          (if (children index).isNull then (blank level mem.getTnode.1, mem.getTnode.2)
            else (children index, mem) : FileTnode × TnodeMemory).1 := by
        split
        · exact shaped_blank level _
        · exact shaped index
      generalize (if (children index).isNull then (blank level mem.getTnode.1, mem.getTnode.2)
        else (children index, mem) : FileTnode × TnodeMemory) = child at made ⊢
      split
      · exact shaped
      · exact shaped_update shaped index (ih child.2 made)

theorem addFindFrom_spined (chunkId : Nat) {level : Nat} {tnode : FileTnode} (mem : TnodeMemory)
    (spined : Spined level tnode) : Spined level (addFindFrom chunkId level tnode mem).2.1 := by
  induction level generalizing tnode mem with
  | zero => cases tnode <;> exact spined
  | succ level ih =>
    cases tnode with
    | null => exact spined
    | leaf => exact spined
    | node tnode children =>
      have shaped := addFindFrom_shaped chunkId mem spined.shaped
      simp only [addFindFrom] at shaped ⊢
      generalize Tnode.childIndex level chunkId = index at shaped ⊢
      by_cases first : index = 0
      · subst first
        simp only [spined.1.not_null, Bool.false_eq_true, if_false] at shaped ⊢
        refine ⟨?_, shaped⟩
        rw [Function.update_self]
        exact ih mem spined.1
      · generalize (if (children index).isNull then (blank level mem.getTnode.1, mem.getTnode.2)
          else (children index, mem) : FileTnode × TnodeMemory) = child at shaped ⊢
        split at shaped
        case isTrue failed =>
          rw [if_pos failed]
          exact spined
        case isFalse made =>
          rw [if_neg made]
          refine ⟨?_, shaped⟩
          rw [Function.update_of_ne (Ne.symm first)]
          exact spined.1

theorem loadTnode0_shaped (group chunkId : Nat) {level : Nat} {tnode : FileTnode}
    (shaped : Shaped level tnode) : Shaped level (loadTnode0 group level tnode chunkId) := by
  induction level generalizing tnode with
  | zero => cases tnode <;> exact shaped
  | succ level ih =>
    cases tnode with
    | null => exact shaped
    | leaf => exact shaped
    | node tnode children => exact shaped_update shaped _ (ih (shaped _))

theorem loadTnode0_isNull (group level chunkId : Nat) (tnode : FileTnode) :
    (loadTnode0 group level tnode chunkId).isNull = tnode.isNull := by
  cases level <;> cases tnode <;> rfl

theorem loadTnode0_spined (group chunkId : Nat) {level : Nat} {tnode : FileTnode}
    (spined : Spined level tnode) : Spined level (loadTnode0 group level tnode chunkId) := by
  induction level generalizing tnode with
  | zero => cases tnode <;> exact spined
  | succ level ih =>
    cases tnode with
    | null => exact spined
    | leaf => exact spined
    | node tnode children =>
      refine ⟨?_, loadTnode0_shaped group chunkId spined.shaped⟩
      rw [Function.update_apply]
      split
      case isTrue first =>
        rw [← first]
        exact ih spined.1
      case isFalse => exact spined.1

theorem loadTnode0_slim (group chunkId : Nat) {level : Nat} {tnode : FileTnode}
    (slim : Slim level tnode) : Slim level (loadTnode0 group level tnode chunkId) := by
  induction level generalizing tnode with
  | zero => cases tnode <;> exact slim
  | succ level ih =>
    cases tnode with
    | null => exact slim
    | leaf => exact slim
    | node tnode children =>
      refine ⟨?_, fun i i_ne => ?_⟩
      · rw [Function.update_apply]
        split
        case isTrue first =>
          rw [← first]
          exact ih slim.1
        case isFalse => exact slim.1
      · rw [Function.update_apply]
        split
        case isTrue same =>
          rw [loadTnode0_isNull, ← same]
          exact slim.2 i i_ne
        case isFalse => exact slim.2 i i_ne

theorem Slim.not_null {level : Nat} {tnode : FileTnode} (slim : Slim level tnode) :
    ¬tnode.isNull := by
  cases tnode with
  | null => cases level <;> exact slim.elim
  | leaf => exact Bool.false_ne_true
  | node => exact Bool.false_ne_true

/-- In a slim tree the tnodes of the first chunks are all there. -/
theorem Slim.addFindFrom {chunkId : Nat} (first : chunkId < 16) {level : Nat} {tnode : FileTnode}
    (slim : Slim level tnode) (mem : TnodeMemory) :
    FileTnode.addFindFrom chunkId level tnode mem = (true, tnode, mem) := by
  induction level generalizing tnode with
  | zero =>
    cases tnode with
    | null => exact slim.elim
    | leaf => rfl
    | node => exact slim.elim
  | succ level ih =>
    cases tnode with
    | null => exact slim.elim
    | leaf => exact slim.elim
    | node tnode children =>
      have index_eq : Tnode.childIndex level chunkId = 0 := by
        have shifted : chunkId >>> (4 + 3 * level) = 0 := by
          rw [Nat.shiftRight_add, Nat.shiftRight_eq_div_pow chunkId 4,
            Nat.div_eq_of_lt (by omega), Nat.zero_shiftRight]
        rw [Tnode.childIndex, shifted]
        rfl
      simp only [FileTnode.addFindFrom, index_eq, slim.1.not_null, Bool.false_eq_true, if_false,
        ih slim.1, Function.update_eq_self]

/-- A level 0 tnode that is there is found, and nothing is added. -/
theorem addFindFrom_of_found {chunkId level : Nat} {tnode : FileTnode} {groups : Fin 16 → Nat}
    (found : find level tnode chunkId = some groups) (mem : TnodeMemory) :
    addFindFrom chunkId level tnode mem = (true, tnode, mem) := by
  induction level generalizing tnode with
  | zero =>
    cases tnode with
    | null => cases found
    | leaf => rfl
    | node => cases found
  | succ level ih =>
    cases tnode with
    | null => cases found
    | leaf => cases found
    | node tnode children =>
      simp only [find] at found
      have not_null : (children (Tnode.childIndex level chunkId)).isNull = false := by
        cases child_eq : children (Tnode.childIndex level chunkId) with
        | null =>
          rw [child_eq] at found
          cases level <;> cases found
        | leaf => rfl
        | node => rfl
      simp only [addFindFrom, not_null, Bool.false_eq_true, if_false, ih found,
        Function.update_eq_self]

/-- Taking off the top leaves the rest of the tree as it is. -/
theorem shorten_spec {level : Nat} {top : FileTnode} (mem : TnodeMemory)
    (spined : Spined level top) :
    TnodeMoves top.tnodes (shorten level top mem).1.top.tnodes mem (shorten level top mem).2 ∧
      Spined (shorten level top mem).1.topLevel (shorten level top mem).1.top ∧
      (Slim level top → (shorten level top mem).1.topLevel = 0) := by
  induction level generalizing top mem with
  | zero => exact ⟨TnodeMoves.refl _ _, spined, fun _ => rfl⟩
  | succ level ih =>
    cases top with
    | null => exact spined.elim
    | leaf => exact spined.elim
    | node tnode children =>
      simp only [shorten]
      split
      case isTrue only_first =>
        have below : ∑ i, (children i).tnodes = (children 0).tnodes := by
          refine Finset.sum_eq_single 0 (fun i _ i_ne => ?_) fun absurd_mem =>
            absurd (Finset.mem_univ 0) absurd_mem
          rw [eq_null_of_isNull (only_first i i_ne)]
          rfl
        have freed : TnodeMoves (node tnode children).tnodes (children 0).tnodes mem
            (mem.freeTnode (some tnode)) := by
          have moved := (mem.freeTnode_moves tnode).frame (children 0).tnodes
          rw [tnodes, below, ← Multiset.singleton_add]
          rw [zero_add] at moved
          exact moved
        obtain ⟨moves, spined', slim'⟩ := ih (mem.freeTnode (some tnode)) spined.1
        exact ⟨freed.trans moves, spined', fun slim => slim' slim.1⟩
      case isFalse others =>
        exact ⟨TnodeMoves.refl _ _, spined, fun slim => absurd slim.2 others⟩

/-- What soft deleting leaves of a tree. -/
theorem softDelWorker_spec {level : Nat} {tnode : FileTnode} (mem : TnodeMemory)
    (shaped : Shaped level tnode) :
    let done := softDelWorker level tnode mem
    done.1 = true ∧ TnodeMoves tnode.tnodes done.2.1.tnodes mem done.2.2 ∧
      Shaped level done.2.1 ∧ (¬tnode.isNull → Bare done.2.1) := by
  induction level generalizing tnode mem with
  | zero =>
    cases tnode with
    | null => exact ⟨rfl, TnodeMoves.refl _ _, trivial, fun not_null => absurd rfl not_null⟩
    | leaf tnode groups =>
      exact ⟨rfl, TnodeMoves.refl _ _, trivial, fun _ => ⟨tnode, rfl, rfl⟩⟩
    | node => exact shaped.elim
  | succ level ih =>
    cases tnode with
    | null => exact ⟨rfl, TnodeMoves.refl _ _, trivial, fun not_null => absurd rfl not_null⟩
    | leaf => exact shaped.elim
    | node tnode children =>
      -- The children are freed one after the other, from the last to the first.
      let step := fun (state : Bool × (Fin 8 → FileTnode) × TnodeMemory) (i : Fin 8) =>
        if state.1 ∧ ¬(state.2.1 i).isNull then
          let child := softDelWorker level (state.2.1 i) state.2.2
          if child.1 then
            (true, Function.update state.2.1 i null, child.2.2.freeTnode child.2.1.address)
          else (false, Function.update state.2.1 i child.2.1, child.2.2)
        else state
      have freed : ∀ (indices : List (Fin 8)) (ch : Fin 8 → FileTnode) (m : TnodeMemory),
          (∀ i, Shaped level (ch i)) →
          let done := indices.foldl step (true, ch, m)
          done.1 = true ∧
            TnodeMoves (node tnode ch).tnodes (node tnode done.2.1).tnodes m done.2.2 ∧
            (∀ i, (ch i).isNull ∨ i ∈ indices → (done.2.1 i).isNull) ∧
            ∀ i, Shaped level (done.2.1 i) := by
        intro indices
        induction indices with
        | nil =>
          intro ch m ch_shaped
          exact ⟨rfl, TnodeMoves.refl _ _, fun i gone => gone.resolve_right (by simp), ch_shaped⟩
        | cons i indices rest =>
          intro ch m ch_shaped
          by_cases is_null : (ch i).isNull
          · have same : step (true, ch, m) i = (true, ch, m) := by
              simp only [step, is_null, not_true_eq_false, and_false, if_false]
            obtain ⟨ok, moves, gone, shaped'⟩ := rest ch m ch_shaped
            simp only [List.foldl_cons, same]
            refine ⟨ok, moves, fun j j_gone => gone j ?_, shaped'⟩
            rcases j_gone with before | listed
            · exact Or.inl before
            · rcases List.mem_cons.mp listed with rfl | later
              · exact Or.inl is_null
              · exact Or.inr later
          · obtain ⟨child_ok, child_moves, -, child_bare⟩ := ih m (ch_shaped i)
            obtain ⟨address, address_eq, tnodes_eq⟩ := child_bare is_null
            have next : step (true, ch, m) i = (true, Function.update ch i null,
                (softDelWorker level (ch i) m).2.2.freeTnode (some address)) := by
              simp only [step, is_null, child_ok, address_eq, Bool.false_eq_true,
                not_false_eq_true, and_self, if_true]
            have moved : TnodeMoves (ch i).tnodes null.tnodes m
                ((softDelWorker level (ch i) m).2.2.freeTnode (some address)) := by
              refine child_moves.trans ?_
              rw [tnodes_eq]
              exact TnodeMemory.freeTnode_moves _ address
            obtain ⟨ok, moves, gone, shaped'⟩ := rest (Function.update ch i null)
              ((softDelWorker level (ch i) m).2.2.freeTnode (some address))
              (shaped_update ch_shaped i (shaped_null level))
            simp only [List.foldl_cons, next]
            refine ⟨ok, (moves_child moved).trans moves, fun j j_gone => gone j ?_, shaped'⟩
            by_cases same : j = i
            · subst same
              left
              rw [Function.update_self]
              rfl
            · rw [Function.update_of_ne same]
              exact j_gone.imp_right fun listed =>
                (List.mem_cons.mp listed).resolve_left same
      obtain ⟨ok, moves, gone, shaped'⟩ := freed (List.finRange 8).reverse children mem shaped
      refine ⟨ok, moves, shaped', fun _ => ⟨tnode, rfl, ?_⟩⟩
      change tnode ::ₘ ∑ i, (((List.finRange 8).reverse.foldl step (true, children, mem)).2.1
        i).tnodes = {tnode}
      rw [Finset.sum_eq_zero]
      · rfl
      · intro i _
        rw [eq_null_of_isNull (gone i (Or.inr (by simp)))]
        rfl

end FileTnode

namespace FileTree

open FileTnode

variable {tree : FileTree}

/-- The tree of a file: it has a level 0 tnode at least. -/
def Rooted (tree : FileTree) : Prop := Spined tree.topLevel tree.top

theorem Rooted.not_null (rooted : tree.Rooted) : ¬tree.top.isNull := Spined.not_null rooted

theorem grow_spec (more : Nat) (mem : TnodeMemory) (rooted : tree.Rooted) :
    TnodeMoves tree.top.tnodes (grow more tree mem).2.1.top.tnodes mem (grow more tree mem).2.2 ∧
      (grow more tree mem).2.1.Rooted := by
  induction more generalizing tree mem with
  | zero => exact ⟨TnodeMoves.refl _ _, rooted⟩
  | succ more ih =>
    have taken := mem.getTnode_moves
    simp only [grow]
    cases taken_eq : mem.getTnode.1 with
    | none =>
      rw [taken_eq] at taken
      exact ⟨by simpa using taken.frame tree.top.tnodes, rooted⟩
    | some tnode =>
      rw [taken_eq] at taken
      have below : ∑ i : Fin 8, (Function.update (fun _ => null) 0 tree.top i).tnodes =
          tree.top.tnodes := by
        have others : ∀ i : Fin 8, i ∈ Finset.univ → i ≠ 0 →
            (Function.update (fun _ => null) 0 tree.top i).tnodes = 0 := by
          intro i _ i_ne
          rw [Function.update_of_ne i_ne]
          rfl
        rw [Finset.sum_eq_single 0 others fun absurd_mem => absurd (Finset.mem_univ 0) absurd_mem,
          Function.update_self]
      have taller : TnodeMoves tree.top.tnodes
          (node tnode (Function.update (fun _ => null) 0 tree.top)).tnodes mem
          mem.getTnode.2 := by
        rw [tnodes, below, ← Multiset.singleton_add]
        simpa using taken.frame tree.top.tnodes
      have rooted' : Rooted
          { topLevel := tree.topLevel + 1
            top := node tnode (Function.update (fun _ => null) 0 tree.top) } := by
        refine ⟨?_, shaped_update (fun _ => shaped_null _) 0 (Spined.shaped rooted)⟩
        rw [Function.update_self]
        exact rooted
      obtain ⟨moves, rooted''⟩ := ih mem.getTnode.2 rooted'
      exact ⟨taller.trans moves, rooted''⟩

theorem addFindTnode0_spec (chunkId : Nat) (mem : TnodeMemory) (rooted : tree.Rooted) :
    TnodeMoves tree.top.tnodes (tree.addFindTnode0 chunkId mem).2.1.top.tnodes mem
        (tree.addFindTnode0 chunkId mem).2.2 ∧
      (tree.addFindTnode0 chunkId mem).2.1.Rooted := by
  simp only [addFindTnode0]
  split
  case isTrue => exact ⟨TnodeMoves.refl _ _, rooted⟩
  case isFalse =>
    have grown := grow_spec (requiredDepth chunkId - tree.topLevel) mem rooted
    split
    case isTrue =>
      exact ⟨grown.1.trans (addFindFrom_moves chunkId _ _ _),
        addFindFrom_spined chunkId _ grown.2⟩
    case isFalse => exact grown

/-- A slim tree does not change when one of the first chunks is looked for. -/
theorem addFindTnode0_of_first {chunkId : Nat} (first : chunkId < 16) (mem : TnodeMemory)
    (slim : Slim tree.topLevel tree.top) : (tree.addFindTnode0 chunkId mem).2 = (tree, mem) := by
  have depth : requiredDepth chunkId = 0 := by
    rw [requiredDepth, Nat.shiftRight_eq_div_pow, Nat.div_eq_of_lt (by omega)]
    rfl
  simp only [addFindTnode0]
  split
  case isTrue => rfl
  case isFalse => simp only [depth, Nat.zero_sub, grow, if_true, slim.addFindFrom first]

/-- A tree does not change when a chunk is looked for that it has. -/
theorem addFindTnode0_of_found {chunkId : Nat} {groups : Fin 16 → Nat}
    (found : tree.findTnode0 chunkId = some groups) (mem : TnodeMemory) :
    tree.addFindTnode0 chunkId mem = (true, tree, mem) := by
  simp only [findTnode0] at found
  split at found
  case isTrue => cases found
  case isFalse inside =>
    have tall : requiredDepth chunkId - tree.topLevel = 0 := by omega
    have sane : ¬(tnodesMaxLevel < tree.topLevel ∨ maxChunkId < chunkId) := by omega
    simp only [addFindTnode0, if_neg sane, tall, grow, if_true, addFindFrom_of_found found]

/-- Pruning only takes off the top. -/
theorem pruneTree_eq (tree : FileTree) (mem : TnodeMemory) :
    tree.pruneTree mem =
      if tree.topLevel < 1 then (tree, mem) else tree.top.shorten tree.topLevel mem := by
  rw [pruneTree, pruneWorker_false]

theorem pruneTree_spec (mem : TnodeMemory) (rooted : tree.Rooted) :
    TnodeMoves tree.top.tnodes (tree.pruneTree mem).1.top.tnodes mem (tree.pruneTree mem).2 ∧
      (tree.pruneTree mem).1.Rooted ∧
      (Slim tree.topLevel tree.top → (tree.pruneTree mem).1.topLevel = 0) := by
  rw [pruneTree_eq]
  split
  case isTrue flat => exact ⟨TnodeMoves.refl _ _, rooted, fun _ => Nat.lt_one_iff.mp flat⟩
  case isFalse => exact shorten_spec mem rooted

end FileTree

end Yaffs
