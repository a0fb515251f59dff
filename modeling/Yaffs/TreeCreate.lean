import Yaffs.TreeUnlink

/-!
# Creating objects keeps the tree

A new object comes into the root directory first, from there to the lost and found objects and at last
into its directory.  A hard link is entered with its object after that.  When the header cannot be
written, the new object is deleted again.
-/

namespace Yaffs

namespace Volume

variable {Store : Type} {P : Pages Store} {vol after : Volume Store} {loose : Option Nat}
  {number : Nat}

/-! ## Numbers -/

theorem hashFn_freeNumber (taken : List Nat) (left number : Nat) :
    hashFn (freeNumber taken left number) = hashFn number := by
  induction left generalizing number with
  | zero => rfl
  | succ left ih =>
    rw [freeNumber]
    split
    · rw [ih]
      simp [hashFn]
    · rfl

theorem le_freeNumber (taken : List Nat) (left number : Nat) :
    number ≤ freeNumber taken left number := by
  induction left generalizing number with
  | zero => exact le_rfl
  | succ left ih =>
    rw [freeNumber]
    split
    · exact (Nat.le_add_right _ _).trans (ih _)
    · exact le_rfl

/-- The search passes taken numbers only. -/
theorem taken_of_freeNumber {taken : List Nat} {left number : Nat}
    (mem : freeNumber taken left number ∈ taken) :
    ∀ step ≤ left, number + step * nObjectBuckets ∈ taken := by
  induction left generalizing number with
  | zero =>
    intro step bound
    obtain rfl : step = 0 := by omega
    simpa [freeNumber] using mem
  | succ left ih =>
    rw [freeNumber] at mem
    split at mem
    case isFalse free => exact absurd mem free
    case isTrue first =>
      intro step bound
      cases step with
      | zero => simpa using first
      | succ step =>
        have later := ih mem step (by omega)
        rwa [show number + (step + 1) * nObjectBuckets =
          number + nObjectBuckets + step * nObjectBuckets by ring]

theorem freeNumber_not_mem (taken : List Nat) (number : Nat) :
    freeNumber taken taken.length number ∉ taken := by
  intro mem
  let tried := (List.range (taken.length + 1)).map fun step => number + step * nObjectBuckets
  have nodup : tried.Nodup := by
    refine List.nodup_range.map fun left right same => ?_
    simpa [nObjectBuckets] using same
  have subset : tried ⊆ taken := by
    intro other other_mem
    obtain ⟨step, step_mem, rfl⟩ := List.mem_map.mp other_mem
    exact taken_of_freeNumber mem step (by simpa [Nat.lt_succ_iff] using step_mem)
  have bound := (List.subperm_of_subset nodup subset).length_le
  simp [tried] at bound

/-- Is there a bucket for a new object?  There is none if all of the ten next buckets hold a million
objects, about. -/
def HasBucket (vol : Volume Store) : Prop :=
  (vol.findNiceBucket 10 (999, 999999, vol.bucketFinder)).1 < nObjectBuckets

instance (vol : Volume Store) : Decidable vol.HasBucket := inferInstanceAs (Decidable (_ < _))

theorem findNiceBucket_congr (same : after.objBucket = vol.objBucket) (left : Nat)
    (best : Nat × Nat × Nat) : after.findNiceBucket left best = vol.findNiceBucket left best := by
  induction left generalizing best with
  | zero => rfl
  | succ left ih => rw [findNiceBucket, findNiceBucket, ih, tryBucket, tryBucket, same]

theorem HasBucket.store (room : vol.HasBucket) (store : Store) :
    HasBucket { vol with store } := by
  have same : ({ vol with store } : Volume Store).objBucket = vol.objBucket := rfl
  have eq := findNiceBucket_congr same 10 (999, 999999, vol.bucketFinder)
  unfold HasBucket at room ⊢
  rwa [eq]

/-- The number of a new object is free. -/
theorem newObjId_fresh (hashed : vol.Hashed) (room : vol.HasBucket) :
    vol.objs vol.newObjId.1 = none := by
  let bucket := (vol.findNiceBucket 10 (999, 999999, vol.bucketFinder)).1
  have free : vol.newObjId.1 ∉ vol.objBucket bucket := freeNumber_not_mem _ _
  have hash : hashFn vol.newObjId.1 = bucket := by
    refine (hashFn_freeNumber _ _ _).trans ?_
    rw [hashFn, Nat.add_mod_right]
    exact Nat.mod_eq_of_lt room
  have not_live := mt (hashed.bucket vol.newObjId.1).mp (hash ▸ free)
  simpa using not_live

/-! ## A new object -/

/-- The shape of an object without what is in it. -/
def bare (obj : Node) : Node := { obj.shape with children := [] }

/-- Other objects stay as they are, but for what is in them. -/
structure Beside (number : Nat) (before after : Volume Store) : Prop where
  view_eq : ∀ other ≠ number, (after.objs other).map bare = (before.objs other).map bare

theorem Beside.trans {middle : Volume Store} (first : Beside number vol middle)
    (second : Beside number middle after) : Beside number vol after :=
  ⟨fun other ne => (second.view_eq other ne).trans (first.view_eq other ne)⟩

theorem Beside.of_objs (same : after.objs = vol.objs) : Beside number vol after :=
  ⟨fun other _ => by rw [same]⟩

theorem Beside.modify (change : Node → Node) : Beside number vol (vol.modify number change) :=
  ⟨fun other ne => by rw [modify_objs]; simp [ne]⟩

theorem bare_eq_iff {obj other : Node} (same : bare obj = bare other) :
    obj.core = other.core ∧ obj.hardLinks = other.hardLinks := by
  simp only [bare, Node.shape, Node.mk.injEq] at same
  simp only [Node.core_eq_iff]
  tauto

theorem Beside.of_shape (same : SameShape vol after) : Beside number vol after := by
  refine ⟨fun other _ => ?_⟩
  have eq := congrArg (Option.map fun obj : Node => { obj with children := [] }) (same.view_eq other)
  rw [Option.map_map, Option.map_map] at eq
  exact eq

theorem Beside.find (beside : Beside number vol after) {other : Nat} (ne : other ≠ number)
    {obj : Node} (found : after.objs other = some obj) : ∃ old, vol.objs other = some old ∧
      obj.core = old.core ∧ obj.hardLinks = old.hardLinks := by
  have eq := beside.view_eq other ne
  rw [found] at eq
  cases found' : vol.objs other with
  | none => simp [found'] at eq
  | some old => exact ⟨old, rfl, bare_eq_iff (by simpa [found'] using eq)⟩

theorem Beside.symm (beside : Beside number vol after) : Beside number after vol :=
  ⟨fun other ne => (beside.view_eq other ne).symm⟩

theorem Beside.addObjToDir (tidy : vol.TidyBut loose) {directory : Nat} {obj : Node}
    (found : vol.objs number = some obj) :
    Beside number vol (vol.addObjToDir directory number) := by
  refine ⟨fun other ne => ?_⟩
  rw [addObjToDir_objs tidy found, Option.map_map]
  refine Option.map_congr fun otherObj _ => ?_
  simp [bare, Node.shape, moved, ne]

/-- What holds of an object still holds of it after a change of another one that is no link and has no
links. -/
theorem NodeTidy.of_beside (beside : Beside number vol after) {other : Nat} {obj old : Node}
    (node : vol.NodeTidy loose other old) (core : obj.core = old.core)
    (links : obj.hardLinks = old.hardLinks) (leaf : old.Hidden → obj.children = [])
    (free : ∀ single, vol.objs number = some single →
      single.variantType ≠ .hardlink ∧ single.hardLinks = []) : after.NodeTidy loose other obj := by
  obtain ⟨type, parent, equiv, soft, unlinked, rename, -, defered, inode⟩ := Node.core_eq_iff.mp core
  constructor
  all_goals
    simp only [links, type, equiv, soft, unlinked, defered, rename, inode, Node.hidden_congr parent]
  case ring =>
    intro link link_mem
    obtain ⟨linkObj, link_found, is_link, link_equiv, visible⟩ := node.ring link link_mem
    have ne : link ≠ number := by
      rintro rfl
      exact (free linkObj link_found).1 is_link
    obtain ⟨linkObj', link_found', core', -⟩ := beside.symm.find ne link_found
    obtain ⟨type', parent', equiv', -⟩ := Node.core_eq_iff.mp core'
    exact ⟨linkObj', link_found', type'.symm.trans is_link, equiv'.symm.trans link_equiv,
      fun hidden => visible ((Node.hidden_congr parent').mpr hidden)⟩
  case linked =>
    intro is_link visible not_loose owner eq_owner
    obtain ⟨ownerObj, owner_found, in_ring⟩ := node.linked is_link visible not_loose owner eq_owner
    have ne : owner ≠ number := by
      rintro rfl
      simp [(free ownerObj owner_found).2] at in_ring
    obtain ⟨ownerObj', owner_found', -, links'⟩ := beside.symm.find ne owner_found
    exact ⟨ownerObj', owner_found', links' ▸ in_ring⟩
  case hidden_leaf => exact leaf
  case ring_nodup => exact node.ring_nodup
  case hardlink => exact node.hardlink
  case trash_ring => exact node.trash_ring
  case hidden_iff => exact node.hidden_iff
  case hidden_rename => exact node.hidden_rename
  case softDel => exact node.softDel
  case deferedFree => exact node.deferedFree

/-- The objects with a new one in the root directory. -/
def born (vol : Volume Store) (number : Nat) : Volume Store :=
  ({ vol with
      nObj := vol.nObj + 1
      objs := Function.update vol.objs number (some { parent := some objectIdRoot }) } :
    Volume Store).modify objectIdRoot fun root => { root with children := number :: root.children }

theorem born_objs (not_root : number ≠ objectIdRoot) (other : Nat) : (vol.born number).objs other =
    if other = number then some { parent := some objectIdRoot }
    else (vol.objs other).map fun obj =>
      if other = objectIdRoot then { obj with children := number :: obj.children } else obj := by
  rw [born, modify_objs]
  by_cases same : other = number
  · subst same
    simp [not_root]
  · simp [same]

theorem beside_born (vol : Volume Store) : Beside number vol (vol.born number) := by
  refine ⟨fun other ne => ?_⟩
  rw [born, modify_objs]
  dsimp only
  rw [Function.update_of_ne ne, Option.map_map]
  refine Option.map_congr fun obj _ => ?_
  rw [Function.comp_apply]
  split <;> rfl

theorem forest_born (fresh : vol.objs number = none) (not_root : number ≠ objectIdRoot) {root : Node}
    (root_found : vol.objs objectIdRoot = some root) :
    (vol.born number).forest = vol.forest.insert number objectIdRoot := by
  have live (other : Nat) : (((vol.born number).objs other).isSome = true) =
      (other = number ∨ (vol.objs other).isSome = true) := by
    rw [born_objs not_root]
    by_cases same : other = number <;> simp [same]
  have parent (other : Nat) : (vol.born number).parentOf other =
      Function.update vol.parentOf number (some objectIdRoot) other := by
    rw [parentOf, born_objs not_root]
    by_cases same : other = number
    · subst same
      simp
    · by_cases here : other = objectIdRoot
      · subst here
        simp [same, parentOf, root_found]
      · simp [same, here, parentOf]
  have children (other : Nat) :
      (((vol.born number).objs other).map Node.children).getD [] =
        (vol.forest.insert number objectIdRoot).children other := by
    rw [born_objs not_root]
    by_cases same : other = number
    · subst same
      simp [Forest.insert, forest, not_root, fresh]
    · by_cases here : other = objectIdRoot
      · subst here
        simp [same, Forest.insert, forest, root_found]
      · simp [same, here, Forest.insert, forest]
  simp only [forest, Forest.insert, funext parent, live]
  exact congrArg _ (funext children)

/-- A number that is not taken is none of the fixed ones. -/
theorem TidyBut.movable_of_fresh (tidy : vol.TidyBut loose) (fresh : vol.objs number = none) :
    ¬isTop number ∧ number ≠ objectIdLostNFound := by
  have not_fixed : ¬(isTop number ∨ number = objectIdLostNFound) := by
    intro isFixed
    obtain ⟨obj, found, -⟩ := tidy.fixed number isFixed
    simp [fresh] at found
  exact ⟨fun isTop => not_fixed (.inl isTop), fun same => not_fixed (.inr same)⟩

theorem TidyBut.born (tidy : vol.TidyBut none) (fresh : vol.objs number = none) :
    (vol.born number).TidyBut none := by
  obtain ⟨not_top, not_lost⟩ := tidy.movable_of_fresh fresh
  have not_root : number ≠ objectIdRoot := fun same => not_top (.inl same)
  obtain ⟨root, root_found, root_dir, -⟩ := tidy.fixed objectIdRoot (.inl (.inl rfl))
  have at_number : (vol.born number).objs number = some { parent := some objectIdRoot } := by
    rw [born_objs not_root, if_pos rfl]
  have at_other (other : Nat) (obj : Node) (found : vol.objs other = some obj) :
      (vol.born number).objs other = some
        (if other = objectIdRoot then { obj with children := number :: obj.children } else obj) := by
    have ne : other ≠ number := by
      rintro rfl
      simp [fresh] at found
    rw [born_objs not_root, if_neg ne, found]
    rfl
  have at_parent (dir : Nat) (dirObj : Node) (found : vol.objs dir = some dirObj)
      (type : dirObj.variantType = .directory) :
      ∃ dirObj', (vol.born number).objs dir = some dirObj' ∧ dirObj'.variantType = .directory := by
    refine ⟨_, at_other dir dirObj found, ?_⟩
    split <;> exact type
  have find (other : Nat) (obj : Node) (found : (vol.born number).objs other = some obj)
      (ne : other ≠ number) : ∃ old, vol.objs other = some old ∧
        (if other = objectIdRoot then { old with children := number :: old.children } else old) =
          obj := by
    rw [born_objs not_root, if_neg ne] at found
    simpa using found
  constructor
  case sound =>
    rw [forest_born fresh not_root root_found]
    exact tidy.sound.insert (by simp [forest, fresh]) not_top (by simp [forest, root_found])
  case directory =>
    intro other obj dir found up
    by_cases same : other = number
    · subst same
      obtain rfl := Option.some.inj (at_number.symm.trans found)
      obtain rfl : objectIdRoot = dir := Option.some.inj up
      exact at_parent _ root root_found root_dir
    · obtain ⟨old, old_found, rfl⟩ := find other obj found same
      obtain ⟨dirObj, dir_found, is_dir⟩ := tidy.directory other old dir old_found (by
        split at up <;> exact up)
      exact at_parent dir dirObj dir_found is_dir
  case fixed =>
    intro other isFixed
    obtain ⟨obj, found, rest⟩ := tidy.fixed other isFixed
    refine ⟨_, at_other other obj found, ?_⟩
    split <;> exact rest
  case node =>
    intro other obj found
    by_cases same : other = number
    · subst same
      obtain rfl := Option.some.inj (at_number.symm.trans found)
      have visible : ¬({ parent := some objectIdRoot } : Node).Hidden := by
        rintro ⟨trash, isTrash, up⟩
        obtain rfl : objectIdRoot = trash := Option.some.inj up
        exact not_isTrash_root isTrash
      constructor <;> simp [visible]
    · obtain ⟨old, old_found, rfl⟩ := find other obj found same
      have node := tidy.node other old old_found
      have core : (if other = objectIdRoot then { old with children := number :: old.children }
          else old).core = old.core := by
        split <;> rfl
      have links : (if other = objectIdRoot then { old with children := number :: old.children }
          else old).hardLinks = old.hardLinks := by
        split <;> rfl
      refine node.of_beside (beside_born vol) core links ?_ (by simp [fresh])
      intro hidden
      have ne : other ≠ objectIdRoot := by
        rintro rfl
        exact tidy.not_hidden_of_top old_found (.inl rfl) hidden
      rw [if_neg ne]
      exact node.hidden_leaf hidden

/-- An object of no type yet. -/
structure Plain (obj : Node) : Prop where
  type : obj.variantType = .unknown
  leaf : obj.children = []
  no_links : obj.hardLinks = []
  unlinked : obj.unlinked = false
  softDel : obj.softDel = false
  deferedFree : obj.deferedFree = false
  equiv : obj.equivObj = none
  inode : obj.myInode = none

theorem forest_modify {change : Node → Node} (parent : ∀ obj, (change obj).parent = obj.parent)
    (children : ∀ obj, (change obj).children = obj.children) :
    (vol.modify number change).forest = vol.forest := by
  have objs (other : Nat) := @modify_objs Store vol number other change
  have live (other : Nat) : ((vol.modify number change).objs other).isSome =
      (vol.objs other).isSome := by
    rw [objs, Option.isSome_map]
  have parent_eq (other : Nat) : (vol.modify number change).parentOf other = vol.parentOf other := by
    rw [parentOf, parentOf, objs]
    cases vol.objs other with
    | none => rfl
    | some obj =>
      simp only [Option.map_some, Option.bind_some]
      split
      · exact parent obj
      · rfl
  have children_eq (other : Nat) : ((vol.modify number change).objs other).map Node.children =
      (vol.objs other).map Node.children := by
    rw [objs, Option.map_map]
    refine Option.map_congr fun obj _ => ?_
    rw [Function.comp_apply]
    split
    · exact children obj
    · rfl
  simp only [forest, live, funext parent_eq, children_eq]

/-- A new object with its type. -/
def typed (type : ObjType) (obj : Node) : Node :=
  { obj with fake := false, renameAllowed := true, unlinkAllowed := true, variantType := type }

/-- A new object is given its type. -/
theorem TidyBut.retype (tidy : vol.TidyBut none) {obj : Node} (found : vol.objs number = some obj)
    (plain : Plain obj) (type : ObjType) :
    (vol.modify number (typed type)).TidyBut (some number) := by
  have movable := tidy.movable found (.inl (by simp [plain.type]))
  have visible : ¬obj.Hidden := by
    rw [← (tidy.node number obj found).hidden_iff]
    simp [plain.unlinked]
  constructor
  case sound =>
    have same : (vol.modify number (typed type)).forest = vol.forest :=
      forest_modify (fun _ => rfl) fun _ => rfl
    rw [same]
    exact tidy.sound
  case directory =>
    intro other obj' dir found' up
    obtain ⟨old, old_found, rfl⟩ := modify_find found'
    obtain ⟨dirObj, dir_found, is_dir⟩ := tidy.directory other old dir old_found (by
      split at up <;> exact up)
    have ne : dir ≠ number := ne_of_type dir_found found (by simp [is_dir, plain.type])
    exact ⟨dirObj, by rw [modify_found _ dir_found, if_neg ne], is_dir⟩
  case fixed =>
    intro other isFixed
    obtain ⟨obj', found', rest⟩ := tidy.fixed other isFixed
    have ne : other ≠ number := by
      rintro rfl
      exact isFixed.elim movable.1 movable.2
    exact ⟨obj', by rw [modify_found _ found', if_neg ne], rest⟩
  case node =>
    intro other obj' found'
    obtain ⟨old, old_found, rfl⟩ := modify_find found'
    by_cases same : other = number
    · subst same
      obtain rfl := Option.some.inj (found.symm.trans old_found)
      rw [if_pos rfl]
      have visible' : ¬(typed type obj).Hidden := visible
      constructor
      case hidden_iff => exact iff_of_false (by simp [typed, plain.unlinked]) visible'
      case hidden_rename => exact fun hidden => absurd hidden visible'
      all_goals
        simp [typed, plain.leaf, plain.no_links, plain.unlinked, plain.softDel, plain.deferedFree,
          plain.inode]
    · have node := tidy.node other old old_found
      rw [if_neg same]
      have loose : vol.NodeTidy (some number) other old :=
        { node with linked := fun is_link not_hidden _ => node.linked is_link not_hidden (by simp) }
      refine loose.of_beside (.modify _) rfl rfl node.hidden_leaf fun single single_found => ?_
      obtain rfl := Option.some.inj (found.symm.trans single_found)
      exact ⟨by simp [plain.type], plain.no_links⟩

/-- A new object that is just being made. -/
structure Made (type : ObjType) (obj : Node) : Prop where
  type_eq : obj.variantType = type
  leaf : obj.children = []
  no_links : obj.hardLinks = []
  visible : ¬obj.Hidden
  softDel : obj.softDel = false
  equiv : obj.equivObj = none
  inode : obj.myInode = none
  allowed : obj.renameAllowed = true

/-- A new object has been made. -/
structure Makes (number : Nat) (type : ObjType) (before after : Volume Store) : Prop where
  fresh : before.objs number = none
  tidy : after.TidyBut (some number)
  hashed : after.Hashed
  found : ∃ obj, after.objs number = some obj ∧ Made type obj
  beside : Beside number before after

/-- The new object is put to the lost and found objects. -/
theorem lost_born (tidy : vol.TidyBut none) (fresh : vol.objs number = none) :
    ((vol.born number).addObjToDir objectIdLostNFound number).TidyBut none ∧
      ((vol.born number).addObjToDir objectIdLostNFound number).objs number =
        some { parent := some objectIdLostNFound } ∧
      Beside number vol ((vol.born number).addObjToDir objectIdLostNFound number) := by
  have movable := tidy.movable_of_fresh fresh
  have not_root : number ≠ objectIdRoot := fun same => movable.1 (.inl same)
  have tidy' := tidy.born fresh
  have found : (vol.born number).objs number = some { parent := some objectIdRoot } := by
    rw [born_objs not_root, if_pos rfl]
  obtain ⟨lost, lost_found, lost_dir, -, -, lost_used⟩ := tidy'.fixed objectIdLostNFound (.inr rfl)
  have lost_visible : ¬lost.Hidden := by
    rw [← (tidy'.node _ lost lost_found).hidden_iff]
    simp [lost_used]
  have visible : ¬({ parent := some objectIdRoot } : Node).Hidden := by
    rw [← (tidy'.node _ _ found).hidden_iff]
    simp
  have away := tidy'.not_above_of_leaf found rfl (Ne.symm movable.2)
  refine ⟨tidy'.addObjToDir found movable lost_found lost_dir away (fun _ => ⟨lost_visible, visible⟩)
    fun isTrash => absurd isTrash not_isTrash_lostNFound, ?_, (beside_born vol).trans
    (.addObjToDir tidy' found)⟩
  rw [addObjToDir_objs tidy' found, found]
  simp [moved, movable.2, not_isTrash_lostNFound]

theorem allocEmptyObj_spec (tidy : vol.TidyBut none) (fresh : vol.objs number = none) :
    ((vol.allocEmptyObj P number).1 = false ∧ SameShape vol (vol.allocEmptyObj P number).2) ∨
      ((vol.allocEmptyObj P number).1 = true ∧ (vol.allocEmptyObj P number).2 =
        (({ vol with store := (P.kmalloc vol.store).2 } : Volume Store).born number).addObjToDir
          objectIdLostNFound number) := by
  obtain ⟨not_top, not_lost⟩ := tidy.movable_of_fresh fresh
  have not_root : number ≠ objectIdRoot := fun same => not_top (.inl same)
  obtain ⟨root, root_found, -⟩ := tidy.fixed objectIdRoot (.inl (.inl rfl))
  obtain ⟨lost, lost_found, -⟩ := tidy.fixed objectIdLostNFound (.inr rfl)
  simp only [allocEmptyObj, root_found, Option.map_some, if_neg not_root]
  split
  case isTrue => exact .inl ⟨rfl, sameShape_store vol _⟩
  case isFalse =>
    right
    rw [if_pos]
    · exact ⟨rfl, rfl⟩
    · refine ⟨?_, not_lost⟩
      change ((({ vol with store := (P.kmalloc vol.store).2 } : Volume Store).born number).objs
        objectIdLostNFound).isSome = true
      rw [born_objs not_root, if_neg (Ne.symm not_lost)]
      simp [lost_found]

/-- The hash buckets do not matter for the directory structure. -/
theorem TidyBut.rehash (tidy : vol.TidyBut loose) (objBucket : Nat → List Nat) :
    ({ vol with objBucket } : Volume Store).TidyBut loose where
  sound := tidy.sound
  directory := tidy.directory
  fixed := tidy.fixed
  node other obj found :=
    have node := tidy.node other obj found
    ⟨node.ring, node.ring_nodup, node.linked, node.hardlink, node.trash_ring, node.hidden_leaf,
      node.hidden_iff, node.hidden_rename, node.softDel, node.deferedFree⟩

theorem Beside.isSome_iff (beside : Beside number vol after) {other : Nat} (ne : other ≠ number) :
    (after.objs other).isSome ↔ (vol.objs other).isSome := by
  have eq := congrArg Option.isSome (beside.view_eq other ne)
  rw [Option.isSome_map, Option.isSome_map] at eq
  rw [eq]

/-- A new object is entered in its hash bucket. -/
theorem Hashed.enter (hashed : vol.Hashed) (fresh : vol.objs number = none)
    (beside : Beside number vol after) (live : (after.objs number).isSome)
    (bucket : after.objBucket = Function.update vol.objBucket (hashFn number)
      (number :: vol.objBucket (hashFn number))) : after.Hashed where
  bucket other := by
    rw [bucket]
    by_cases same : other = number
    · subst same
      simp [live]
    · rw [beside.isSome_iff same, hashed.bucket other]
      by_cases together : hashFn other = hashFn number
      · rw [together, Function.update_self]
        simp [same]
      · rw [Function.update_of_ne together]
  nodup index := by
    rw [bucket]
    by_cases here : index = hashFn number
    · subst here
      have not_mem := mt (hashed.bucket number).mpr (by simp [fresh])
      rw [Function.update_self]
      exact List.nodup_cons.mpr ⟨not_mem, hashed.nodup _⟩
    · rw [Function.update_of_ne here]
      exact hashed.nodup index

/-- A new object is made, or nothing has changed. -/
theorem newObj_spec (tidy : vol.Tidy) (room : vol.HasBucket) (type : ObjType) :
    ((vol.newObj P none type).1 = none ∧ SameShape vol (vol.newObj P none type).2) ∨
      ∃ number, (vol.newObj P none type).1 = some number ∧
        Makes number type vol (vol.newObj P none type).2 := by
  have fresh := newObjId_fresh tidy.toHashed room
  simp only [newObj]
  generalize (if type = .file then P.getTnode vol.newObjId.2.store vol.newObjId.1
    else (true, vol.newObjId.2.store)) = tnode
  have same : SameShape vol { vol.newObjId.2 with store := tnode.2 } := ⟨fun _ => rfl, rfl⟩
  have tidy' := tidy.of_shape same
  generalize vol.newObjId.1 = number at *
  have fresh' : ({ vol.newObjId.2 with store := tnode.2 } : Volume Store).objs number = none := fresh
  have objs : ({ vol.newObjId.2 with store := tnode.2 } : Volume Store).objs = vol.objs := rfl
  have bucket : ({ vol.newObjId.2 with store := tnode.2 } : Volume Store).objBucket = vol.objBucket :=
    rfl
  generalize ({ vol.newObjId.2 with store := tnode.2 } : Volume Store) = named at *
  split
  case isTrue => exact .inl ⟨rfl, same⟩
  case isFalse =>
    rcases allocEmptyObj_spec (P := P) tidy'.toTidyBut fresh' with ⟨failed, same'⟩ | ⟨done, eq⟩
    · left
      rw [failed, if_pos (by simp)]
      refine ⟨rfl, same.trans (same'.trans ?_)⟩
      split
      · exact sameShape_store _ _
      · exact .refl
    · right
      rw [done, if_neg (by simp), eq]
      have stored := tidy'.toTidyBut.of_shape (sameShape_store named (P.kmalloc named.store).2)
      obtain ⟨lost_tidy, lost_found, beside⟩ := lost_born stored fresh'
      have typed_tidy := lost_tidy.retype lost_found ⟨rfl, rfl, rfl, rfl, rfl, rfl, rfl, rfl⟩ type
      have found := modify_self (typed type) lost_found
      have beside' := beside.trans (.modify (typed type))
      have beside_vol : Beside number vol _ :=
        ⟨fun other ne => (beside'.view_eq other ne).trans (by rw [← objs])⟩
      have visible : ¬(typed type { parent := some objectIdLostNFound }).Hidden := by
        rintro ⟨trash, isTrash, up⟩
        obtain rfl : objectIdLostNFound = trash := Option.some.inj up
        exact not_isTrash_lostNFound isTrash
      refine ⟨number, rfl, fresh, typed_tidy.rehash _, ?_,
        ⟨_, found, rfl, rfl, rfl, visible, rfl, rfl, rfl, rfl⟩, ⟨beside_vol.view_eq⟩⟩
      refine tidy.toHashed.enter fresh ⟨beside_vol.view_eq⟩ ?_ ?_
      · exact Option.isSome_iff_exists.mpr ⟨_, found⟩
      · simp [modify, born, bucket]

/-! ## A new link -/

/-- A link with the object it stands for. -/
def linkTo (owner : Nat) (obj : Node) : Node := { obj with equivObj := some owner }

/-- An object with a new link. -/
def addLink (link : Nat) (obj : Node) : Node := { obj with hardLinks := link :: obj.hardLinks }

/-- A hard link can be entered with an object in use that is no hard link. -/
structure CanLink (vol : Volume Store) (owner : Nat) (ownerObj : Node) : Prop where
  found : vol.objs owner = some ownerObj
  type : ownerObj.variantType ≠ .hardlink
  visible : ¬ownerObj.Hidden
  used : ¬isTrash owner

theorem TidyBut.addLink (tidy : vol.TidyBut (some number)) {owner : Nat} {obj ownerObj : Node}
    (found : vol.objs number = some obj) (made : Made .hardlink obj)
    (can : CanLink vol owner ownerObj) :
    ((vol.modify number (linkTo owner)).modify owner (Volume.addLink number)).TidyBut none := by
  have ne : owner ≠ number := ne_of_type can.found found (by simp [made.type_eq, can.type])
  have same : Same Node.frame vol
      ((vol.modify number (linkTo owner)).modify owner (Volume.addLink number)) := by
    have first : Same Node.frame vol (vol.modify number (linkTo owner)) :=
      Same.modify number fun _ => rfl
    exact first.trans (Same.modify owner fun _ => rfl)
  have changed (other : Nat) (old : Node) (found' : vol.objs other = some old) :
      ((vol.modify number (linkTo owner)).modify owner (Volume.addLink number)).objs other = some
        { old with
          equivObj := if other = number then some owner else old.equivObj
          hardLinks := if other = owner then number :: old.hardLinks else old.hardLinks } := by
    rw [modify_found _ (modify_found _ found')]
    by_cases here : other = owner
    · subst here
      simp [ne, Volume.addLink]
    · by_cases there : other = number
      · subst there
        simp [here, linkTo]
      · simp [here, there]
  have unlisted (other : Nat) (old : Node) (found' : vol.objs other = some old) :
      number ∉ old.hardLinks := by
    intro in_ring
    obtain ⟨linkObj, link_found, -, equiv, -⟩ := (tidy.node other old found').ring number in_ring
    obtain rfl := Option.some.inj (found.symm.trans link_found)
    simp [made.equiv] at equiv
  refine tidy.of_frame same fun other obj' found' => ?_
  obtain ⟨old, old_found, -⟩ := same.find found'
  obtain rfl := Option.some.inj ((changed other old old_found).symm.trans found')
  have node := tidy.node other old old_found
  constructor
  case ring =>
    intro link link_mem
    dsimp only at link_mem
    by_cases new : other = owner ∧ link = number
    · obtain ⟨rfl, rfl⟩ := new
      exact ⟨_, changed link obj found, made.type_eq, if_pos rfl, made.visible⟩
    · have link_mem' : link ∈ old.hardLinks := by
        by_cases here : other = owner
        · rw [if_pos here] at link_mem
          exact (List.mem_cons.mp link_mem).resolve_left fun same => new ⟨here, same⟩
        · rwa [if_neg here] at link_mem
      obtain ⟨linkObj, link_found, is_link, equiv, visible⟩ := node.ring link link_mem'
      have link_ne : link ≠ number := by
        rintro rfl
        exact unlisted other old old_found link_mem'
      exact ⟨_, changed link linkObj link_found, is_link, (if_neg link_ne).trans equiv, visible⟩
  case ring_nodup =>
    dsimp only
    split
    · exact List.nodup_cons.mpr ⟨unlisted other old old_found, node.ring_nodup⟩
    · exact node.ring_nodup
  case linked =>
    intro is_link visible _ equiv eq_equiv
    dsimp only at eq_equiv
    by_cases same : other = number
    · subst same
      obtain rfl : owner = equiv := by simpa using eq_equiv
      exact ⟨_, changed owner ownerObj can.found, by simp⟩
    · rw [if_neg same] at eq_equiv
      obtain ⟨equivObj, equiv_found, in_ring⟩ :=
        node.linked is_link visible (by simpa using Ne.symm same) equiv eq_equiv
      refine ⟨_, changed equiv equivObj equiv_found, ?_⟩
      dsimp only
      split
      · exact List.mem_cons_of_mem _ in_ring
      · exact in_ring
  case hardlink =>
    intro is_link
    have here : other ≠ owner := ne_of_type old_found can.found (by
      intro same
      exact can.type (same.symm.trans is_link))
    simpa [here] using node.hardlink is_link
  case trash_ring =>
    intro gone
    have here : other ≠ owner := by
      rintro rfl
      obtain rfl := Option.some.inj (can.found.symm.trans old_found)
      exact gone.elim can.visible can.used
    simpa [here] using node.trash_ring gone
  case hidden_leaf => exact node.hidden_leaf
  case hidden_iff => exact node.hidden_iff
  case hidden_rename => exact node.hidden_rename
  case softDel => exact node.softDel
  case deferedFree => exact node.deferedFree

/-! ## Creating -/

/-- Objects that inodes hold stay, and no others get an inode. -/
structure Holds (before after : Volume Store) : Prop where
  held : ∀ number obj, before.objs number = some obj → obj.myInode.isSome →
    ∃ obj', after.objs number = some obj' ∧ obj'.myInode = obj.myInode ∧
      obj'.variantType = obj.variantType
  known : ∀ number obj', after.objs number = some obj' → obj'.myInode.isSome →
    ∃ obj, before.objs number = some obj ∧ obj.myInode = obj'.myInode

theorem Changes.holds {touched : Nat → Prop} {relinks : Prop}
    (changes : Changes touched relinks vol after) : Holds vol after where
  held := changes.held
  known number obj' found' _ := by
    obtain ⟨obj, found, -, inode, -⟩ := changes.known number obj' found'
    exact ⟨obj, found, inode.symm⟩

theorem Same.holds (same : SameShape vol after) : Holds vol after := by
  have swept : Swept vol after := same.changes
  exact Changes.holds swept

theorem Holds.refl : Holds vol vol := Same.holds .refl

theorem Holds.trans {last : Volume Store} (first : Holds vol after) (second : Holds after last) :
    Holds vol last where
  held number obj found inode := by
    obtain ⟨mid, mid_found, mid_inode, mid_type⟩ := first.held number obj found inode
    obtain ⟨obj', found', inode', type'⟩ := second.held number mid mid_found (mid_inode ▸ inode)
    exact ⟨obj', found', inode'.trans mid_inode, type'.trans mid_type⟩
  known number obj' found' inode := by
    obtain ⟨mid, mid_found, mid_inode⟩ := second.known number obj' found' inode
    obtain ⟨obj, found, inode'⟩ := first.known number mid mid_found (mid_inode ▸ inode)
    exact ⟨obj, found, inode'.trans mid_inode⟩

theorem Holds.modify (change : Node → Node) (type : ∀ obj, (change obj).variantType = obj.variantType)
    (inode : ∀ obj, (change obj).myInode = obj.myInode) : Holds vol (vol.modify number change) where
  held other obj found _ := by
    refine ⟨_, modify_found change found, ?_⟩
    split
    · exact ⟨inode obj, type obj⟩
    · exact ⟨rfl, rfl⟩
  known other obj' found' _ := by
    obtain ⟨obj, found, rfl⟩ := modify_find found'
    refine ⟨obj, found, ?_⟩
    split
    · exact (inode obj).symm
    · rfl

/-- Making an object that no inode holds yet. -/
theorem Beside.holds (beside : Beside number vol after) (fresh : vol.objs number = none) {obj : Node}
    (found : after.objs number = some obj) (inode : obj.myInode = none) : Holds vol after where
  held other old old_found held := by
    have ne : other ≠ number := by
      rintro rfl
      simp [fresh] at old_found
    obtain ⟨obj', found', core, -⟩ := beside.symm.find ne old_found
    obtain ⟨type, -, -, -, -, -, -, -, inode'⟩ := Node.core_eq_iff.mp core
    exact ⟨obj', found', inode'.symm, type.symm⟩
  known other obj' found' held := by
    have ne : other ≠ number := by
      rintro rfl
      obtain rfl := Option.some.inj (found.symm.trans found')
      simp [inode] at held
    obtain ⟨old, old_found, core, -⟩ := beside.find ne found'
    obtain ⟨-, -, -, -, -, -, -, -, inode'⟩ := Node.core_eq_iff.mp core
    exact ⟨old, old_found, inode'.symm⟩

/-- Outcome of creating an object. -/
structure Created (type : ObjType) (before : Volume Store) (outcome : Option Nat × Volume Store) :
    Prop where
  tidy : outcome.2.Tidy
  holds : Holds before outcome.2
  new : ∀ number, outcome.1 = some number → ∃ obj, outcome.2.objs number = some obj ∧
    obj.variantType = type ∧ ¬obj.Hidden ∧ obj.myInode = none

/-- A new object can be put into a directory in use. -/
theorem Makes.canMove {type : ObjType} (makes : Makes number type vol after) {middle : Volume Store}
    (tidy : vol.Tidy) (same : SameShape after middle) {parent : Nat} {dir : Node}
    (dir_found : vol.objs parent = some dir) (is_dir : dir.variantType = .directory)
    (used : ¬isTrash parent) (visible : ¬dir.Hidden) :
    ∃ obj dirObj, CanMove middle number parent obj dirObj ∧ Made type obj := by
  obtain ⟨obj, found, made⟩ := makes.found
  have ne : parent ≠ number := by
    rintro rfl
    simp [makes.fresh] at dir_found
  obtain ⟨dirObj, dir_found', core, -⟩ := makes.beside.symm.find ne dir_found
  obtain ⟨dir_type, dir_parent, -⟩ := Node.core_eq_iff.mp core
  have movable := tidy.movable_of_fresh makes.fresh
  have can : CanMove after number parent obj dirObj :=
    ⟨found, movable, dir_found', dir_type.symm.trans is_dir,
      makes.tidy.not_above_of_leaf found made.leaf ne, fun _ =>
      ⟨fun hidden => visible ((Node.hidden_congr dir_parent).mpr hidden), made.visible⟩,
      fun isTrash => absurd isTrash used⟩
  obtain ⟨obj', dirObj', can', eq⟩ := can.of_shape same
  obtain ⟨core', children, links⟩ := Node.shape_eq_iff.mp eq
  obtain ⟨type', parent', equiv', soft', -, rename', -, -, inode'⟩ := Node.core_eq_iff.mp core'
  exact ⟨obj', dirObj', can', type'.trans made.type_eq, children.trans made.leaf,
    links.trans made.no_links, fun hidden => made.visible ((Node.hidden_congr parent').mp hidden),
    soft'.trans made.softDel, equiv'.trans made.equiv, inode'.trans made.inode,
    rename'.trans made.allowed⟩

/-- The new object in its directory. -/
theorem Makes.placed {type : ObjType} (makes : Makes number type vol after) {middle : Volume Store}
    (tidy : vol.Tidy) (same : SameShape after middle) {parent : Nat} {dir : Node}
    (dir_found : vol.objs parent = some dir) (is_dir : dir.variantType = .directory)
    (used : ¬isTrash parent) (visible : ¬dir.Hidden) :
    Makes number type vol (middle.addObjToDir parent number) := by
  obtain ⟨obj, dirObj, can, made⟩ := makes.canMove tidy same dir_found is_dir used visible
  have tidy' := makes.tidy.of_shape same
  have ne : number ≠ parent := by
    rintro rfl
    simp [makes.fresh] at dir_found
  have placed : (middle.addObjToDir parent number).objs number =
      some (moved parent number number obj) := by
    rw [addObjToDir_objs tidy' can.found, can.found]
    rfl
  refine ⟨makes.fresh, tidy'.addObjToDir can.found can.movable can.dir_found can.is_dir can.away
    can.visible can.trash, (makes.hashed.of_same same).addObjToDir tidy' can.found,
    ⟨_, placed, made.type_eq, ?_, made.no_links, ?_, made.softDel, made.equiv, made.inode, ?_⟩,
    (makes.beside.trans (.of_shape same)).trans (.addObjToDir tidy' can.found)⟩
  · simp [moved, ne, made.leaf]
  · rw [moved_hidden_iff, if_pos rfl]
    exact used
  · simp [moved, used, made.allowed]

/-- A new object is ready for its header. -/
structure Finished (number : Nat) (type : ObjType) (before after : Volume Store) : Prop where
  tidy : after.Tidy
  holds : Holds before after
  found : ∃ obj, after.objs number = some obj ∧ obj.variantType = type ∧ ¬obj.Hidden ∧
    obj.myInode = none ∧ obj.softDel = false ∧ obj.hardLinks = [] ∧ obj.renameAllowed = true

theorem Makes.finish {type : ObjType} (makes : Makes number type vol after) (ne : type ≠ .hardlink)
    {last : Volume Store} (same : SameShape after last) : Finished number type vol last := by
  obtain ⟨obj, found, made⟩ := makes.found
  have tidy : after.Tidy :=
    { makes.tidy.settle found fun is_link => absurd (made.type_eq.symm.trans is_link) ne,
      makes.hashed with }
  obtain ⟨obj', found', eq⟩ := same.symm.find found
  obtain ⟨core, -, links⟩ := Node.shape_eq_iff.mp eq
  obtain ⟨type', parent', -, soft', -, rename', -, -, inode'⟩ := Node.core_eq_iff.mp core
  refine ⟨tidy.of_shape same, (makes.beside.holds makes.fresh found made.inode).trans
    same.holds, obj', found',
    type'.symm.trans made.type_eq, fun hidden => ?_, inode'.symm.trans made.inode,
    soft'.symm.trans made.softDel, links.symm.trans made.no_links, rename'.symm.trans made.allowed⟩
  exact made.visible ((Node.hidden_congr parent').mpr hidden)

theorem Makes.finish_link (makes : Makes number .hardlink vol after) {owner : Nat} {ownerObj : Node}
    (can : CanLink vol owner ownerObj) : Finished number .hardlink vol
      ((after.modify number (linkTo owner)).modify owner (Volume.addLink number)) := by
  obtain ⟨obj, found, made⟩ := makes.found
  have ne : owner ≠ number := by
    rintro rfl
    exact absurd can.found (by simp [makes.fresh])
  obtain ⟨ownerObj', owner_found, core, -⟩ := makes.beside.symm.find ne can.found
  obtain ⟨type', parent', -⟩ := Node.core_eq_iff.mp core
  have can' : CanLink after owner ownerObj' :=
    ⟨owner_found, fun is_link => can.type (type'.trans is_link),
      fun hidden => can.visible ((Node.hidden_congr parent').mpr hidden), can.used⟩
  have found' : ((after.modify number (linkTo owner)).modify owner (Volume.addLink number)).objs
      number = some (linkTo owner obj) := by
    rw [modify_found _ (modify_found _ found), if_pos rfl, if_neg (Ne.symm ne)]
  have same : Same Node.frame after
      ((after.modify number (linkTo owner)).modify owner (Volume.addLink number)) := by
    have first : Same Node.frame after (after.modify number (linkTo owner)) :=
      Same.modify number fun _ => rfl
    exact first.trans (Same.modify owner fun _ => rfl)
  have relinked : Holds after
      ((after.modify number (linkTo owner)).modify owner (Volume.addLink number)) :=
    (Holds.modify (linkTo owner) (fun _ => rfl) fun _ => rfl).trans
      (.modify (Volume.addLink number) (fun _ => rfl) fun _ => rfl)
  exact ⟨{ makes.tidy.addLink found made can', makes.hashed.of_same same with },
    (makes.beside.holds makes.fresh found made.inode).trans relinked, linkTo owner obj, found',
    made.type_eq, made.visible, made.inode, made.softDel, made.no_links, made.allowed⟩

theorem Created.failed {type : ObjType} (tidy : after.Tidy) (holds : Holds vol after) :
    Created type vol (none, after) :=
  ⟨tidy, holds, fun _ made => by simp at made⟩

/-- The header of the new object is written, or the new object is deleted. -/
theorem Finished.created {type : ObjType} (finished : Finished number type vol after)
    (name : Option (List Char)) (parent : Nat) :
    Created type vol (
      if (after.updateOh P number name false 0).1 then
        (some number, (after.updateOh P number name false 0).2.updateParent P (some parent))
      else (none, ((after.updateOh P number name false 0).2.delObj P number).2)) := by
  obtain ⟨obj, found, type_eq, visible, inode, soft, links, rename⟩ := finished.found
  obtain ⟨tidy', swept⟩ := updateOh_keeps (P := P) finished.tidy number name false 0
  obtain ⟨obj', found', core, links'⟩ := swept.find found soft
  obtain ⟨type', parent', -, soft', -, rename', -, -, inode'⟩ := Node.core_eq_iff.mp core
  split
  · obtain ⟨tidy'', swept'⟩ := updateParent_keeps (P := P) tidy' (some parent)
    obtain ⟨obj'', found'', core', -⟩ := swept'.find found' (soft'.trans soft)
    obtain ⟨type'', parent'', -, -, -, -, -, -, inode''⟩ := Node.core_eq_iff.mp core'
    refine ⟨tidy'', finished.holds.trans (swept.trans swept').holds, ?_⟩
    rintro number' made
    obtain rfl := Option.some.inj made
    refine ⟨obj'', found'', type''.trans (type'.trans type_eq), fun hidden => ?_,
      inode''.trans (inode'.trans inode)⟩
    exact visible ((Node.hidden_congr (parent''.trans parent')).mp hidden)
  · have movable := tidy'.movable found' (.inr (.inl (rename'.trans rename)))
    obtain ⟨tidy'', changes⟩ := delObj_keeps (P := P) tidy' found' movable (links'.trans links)
      (inode'.trans inode) (soft'.trans soft)
    exact .failed tidy'' (finished.holds.trans (swept.holds.trans changes.holds))

theorem shape_named (number : Nat) (name : List Char) (mode : Nat) (obj : Node) :
    ({ obj.setObjName number name with ystMode := mode, dirty := true } : Node).shape = obj.shape := by
  rw [Node.setObjName]
  split <;> rfl

/-- A new object with its name, its directory and what it stands for, just before its header is
written. -/
def entered (vol : Volume Store) (number : Nat) (type : ObjType) (parent : Nat) (name : List Char)
    (mode : Nat) (equivObj : Option Nat) (aliasStr : List Char) : Volume Store :=
  let vol := (vol.modify number fun obj =>
    { obj.setObjName number name with ystMode := mode, dirty := true }).addObjToDir parent number
  match type, equivObj with
  | .symlink, _ => vol.modify number fun obj => { obj with aliasStr := cloneStr aliasStr }
  | .hardlink, some equiv => (vol.modify number (linkTo equiv)).modify equiv (addLink number)
  | _, _ => vol

/-- Space for a copy of the target of a symbolic link. -/
def clonedAlias (P : Pages Store) (vol : Volume Store) (type : ObjType) : Bool × Store :=
  if type = .symlink then P.kmalloc vol.store else (true, vol.store)

theorem createObj_eq (P : Pages Store) (vol : Volume Store) (type : ObjType) (parent : Nat)
    (name : List Char) (mode : Nat) (equivObj : Option Nat) (aliasStr : List Char) :
    vol.createObj P type parent name mode equivObj aliasStr =
      if (vol.findByName P parent name).isSome then (none, vol)
      else
        let cloned : Bool × Store := vol.clonedAlias P type
        let vol : Volume Store := { vol with store := cloned.2 }
        if ¬cloned.1 then (none, vol)
        else
          match (vol.newObj P none type).1 with
          | none => (none, (vol.newObj P none type).2)
          | some number =>
            let ready : Volume Store :=
              (vol.newObj P none type).2.entered number type parent name mode equivObj aliasStr
            if (ready.updateOh P number (some name) false 0).1 then
              (some number,
                (ready.updateOh P number (some name) false 0).2.updateParent P (some parent))
            else (none, ((ready.updateOh P number (some name) false 0).2.delObj P number).2) :=
  rfl

/-- A new object that has been entered is ready for its header. -/
theorem Makes.entered {type : ObjType} (makes : Makes number type vol after) (tidy : vol.Tidy)
    {parent : Nat} {dir : Node} (dir_found : vol.objs parent = some dir)
    (is_dir : dir.variantType = .directory) (used : ¬isTrash parent) (visible : ¬dir.Hidden)
    (name : List Char) (mode : Nat) (equivObj : Option Nat) (aliasStr : List Char)
    (links : type = .hardlink →
      ∃ owner ownerObj, equivObj = some owner ∧ CanLink vol owner ownerObj) :
    Finished number type vol (after.entered number type parent name mode equivObj aliasStr) := by
  have named : SameShape after (after.modify number fun obj =>
      { obj.setObjName number name with ystMode := mode, dirty := true }) :=
    Same.modify number (shape_named number name mode)
  have placed := makes.placed tidy named dir_found is_dir used visible
  simp only [Volume.entered]
  generalize (after.modify number fun obj =>
    { obj.setObjName number name with ystMode := mode, dirty := true }).addObjToDir parent number =
      entered at *
  cases type with
  | symlink => exact placed.finish (by simp) (Same.modify number fun _ => rfl)
  | hardlink =>
    obtain ⟨owner, ownerObj, rfl, can⟩ := links rfl
    exact placed.finish_link ⟨can.found, can.type, can.visible, can.used⟩
  | unknown => exact placed.finish (by simp) .refl
  | file => exact placed.finish (by simp) .refl
  | directory => exact placed.finish (by simp) .refl
  | special => exact placed.finish (by simp) .refl

/-- Creating an object in a directory in use keeps the objects in order. -/
theorem createObj_keeps (tidy : vol.Tidy) (room : vol.HasBucket) {parent : Nat} {dir : Node}
    (dir_found : vol.objs parent = some dir) (is_dir : dir.variantType = .directory)
    (used : ¬isTrash parent) (visible : ¬dir.Hidden) (type : ObjType) (name : List Char) (mode : Nat)
    (equivObj : Option Nat) (aliasStr : List Char)
    (links : type = .hardlink →
      ∃ owner ownerObj, equivObj = some owner ∧ CanLink vol owner ownerObj) :
    Created type vol (vol.createObj P type parent name mode equivObj aliasStr) := by
  rw [createObj_eq]
  split
  case isTrue => exact .failed tidy .refl
  case isFalse =>
    generalize vol.clonedAlias P type = cloned
    have same := sameShape_store vol cloned.2
    have kept : Holds vol { vol with store := cloned.2 } :=
      same.holds
    dsimp only
    split
    case isTrue => exact .failed (tidy.of_shape same) kept
    case isFalse =>
      have tidy' := tidy.of_shape same
      rcases newObj_spec (P := P) tidy' (room.store cloned.2) type with
        ⟨failed, same'⟩ | ⟨number, eq, makes⟩
      · simp only [failed]
        refine .failed (tidy'.of_shape same') (kept.trans ?_)
        exact same'.holds
      · simp only [eq]
        have finished := makes.entered tidy' dir_found is_dir used visible name mode equivObj aliasStr
          fun is_link => by
            obtain ⟨owner, ownerObj, equiv, can⟩ := links is_link
            exact ⟨owner, ownerObj, equiv, can.found, can.type, can.visible, can.used⟩
        have created := finished.created (P := P) (some name) parent
        exact ⟨created.tidy, kept.trans created.holds, created.new⟩

end Volume

end Yaffs
