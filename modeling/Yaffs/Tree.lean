import Yaffs.Namespace
import Yaffs.Library.Forest

/-!
# The directory structure is a tree

The objects of a mounted device form a forest below the root and the directories of unlinked and
deleted objects.  This module says what the structure is like between two operations of the guts
layer, and what each operation changes of it.
-/

namespace Yaffs

/-- The directories for what is no longer in use. -/
def isTrash (number : Nat) : Prop := number = objectIdUnlinked ∨ number = objectIdDeleted

instance (number : Nat) : Decidable (isTrash number) := inferInstanceAs (Decidable (_ ∨ _))

/-- The directories that are in no directory themselves. -/
def isTop (number : Nat) : Prop := number = objectIdRoot ∨ isTrash number

theorem isTrash.isTop {number : Nat} (trash : isTrash number) : isTop number := .inr trash

instance (number : Nat) : Decidable (isTop number) := inferInstanceAs (Decidable (_ ∨ _))

theorem not_isTrash_root : ¬isTrash objectIdRoot := by decide

theorem not_isTrash_lostNFound : ¬isTrash objectIdLostNFound := by decide

theorem not_isTop_lostNFound : ¬isTop objectIdLostNFound := by decide

namespace Node

/-- The object is in one of the directories for what is no longer in use. -/
def Hidden (obj : Node) : Prop := ∃ trash, isTrash trash ∧ obj.parent = some trash

/-- An object without what the directory structure does not depend on. -/
def shape (obj : Node) : Node :=
  { obj with
    shortName := []
    sum := 0
    ystMode := 0
    aliasStr := []
    deleted := false
    fake := false
    isShadowed := false
    dirty := false }

/-- The shape of an object without its lists. -/
def core (obj : Node) : Node := { obj.shape with children := [], hardLinks := [] }

/-- The shape of an object without what may change on the spot: its inode and the mark of a soft
deleted file. -/
def skeleton (obj : Node) : Node := { obj.shape with softDel := false, myInode := none }

theorem skeleton_of_shape {obj other : Node} (same : obj.shape = other.shape) :
    obj.skeleton = other.skeleton := by
  rw [skeleton, skeleton, same]

/-- The skeleton of an object without its links. -/
def frame (obj : Node) : Node := { obj.skeleton with equivObj := none, hardLinks := [] }

theorem frame_of_skeleton {obj other : Node} (same : obj.skeleton = other.skeleton) :
    obj.frame = other.frame := by
  rw [frame, frame, same]

theorem frame_eq_iff {obj other : Node} : obj.frame = other.frame ↔
    obj.variantType = other.variantType ∧ obj.parent = other.parent ∧
      obj.unlinked = other.unlinked ∧ obj.renameAllowed = other.renameAllowed ∧
      obj.unlinkAllowed = other.unlinkAllowed ∧ obj.deferedFree = other.deferedFree ∧
      obj.children = other.children := by
  simp only [shape, skeleton, frame, mk.injEq]
  tauto

theorem skeleton_eq_iff {obj other : Node} : obj.skeleton = other.skeleton ↔
    obj.variantType = other.variantType ∧ obj.parent = other.parent ∧
      obj.equivObj = other.equivObj ∧ obj.unlinked = other.unlinked ∧
      obj.renameAllowed = other.renameAllowed ∧ obj.unlinkAllowed = other.unlinkAllowed ∧
      obj.deferedFree = other.deferedFree ∧ obj.children = other.children ∧
      obj.hardLinks = other.hardLinks := by
  simp only [shape, skeleton, mk.injEq]
  tauto

theorem shape_eq_iff {obj other : Node} : obj.shape = other.shape ↔
    obj.core = other.core ∧ obj.children = other.children ∧ obj.hardLinks = other.hardLinks := by
  simp only [shape, core, mk.injEq]
  tauto

theorem core_eq_iff {obj other : Node} : obj.core = other.core ↔
    obj.variantType = other.variantType ∧ obj.parent = other.parent ∧
      obj.equivObj = other.equivObj ∧ obj.softDel = other.softDel ∧
      obj.unlinked = other.unlinked ∧ obj.renameAllowed = other.renameAllowed ∧
      obj.unlinkAllowed = other.unlinkAllowed ∧ obj.deferedFree = other.deferedFree ∧
      obj.myInode = other.myInode := by
  simp only [shape, core, mk.injEq]
  tauto

theorem hidden_congr {obj other : Node} (same : obj.parent = other.parent) :
    obj.Hidden ↔ other.Hidden := by
  simp only [Hidden, same]

end Node

namespace Volume

variable {Store : Type} (vol : Volume Store)

/-- Parents and children of the objects. -/
def forest : Forest Nat where
  live number := (vol.objs number).isSome
  parent := vol.parentOf
  children number := ((vol.objs number).map Node.children).getD []

/-- What holds of a single object.  The links of one object, `loose`, are just being changed: it need
not be among the links of its object. -/
structure NodeTidy (loose : Option Nat) (number : Nat) (obj : Node) : Prop where
  ring : ∀ link ∈ obj.hardLinks, ∃ linkObj, vol.objs link = some linkObj ∧
    linkObj.variantType = .hardlink ∧ linkObj.equivObj = some number ∧ ¬linkObj.Hidden
  ring_nodup : obj.hardLinks.Nodup
  linked : obj.variantType = .hardlink → ¬obj.Hidden → loose ≠ some number →
    ∀ equiv, obj.equivObj = some equiv → ∃ equivObj, vol.objs equiv = some equivObj ∧
      number ∈ equivObj.hardLinks
  hardlink : obj.variantType = .hardlink → obj.hardLinks = [] ∧ obj.myInode = none
  trash_ring : obj.Hidden ∨ isTrash number → obj.hardLinks = []
  hidden_leaf : obj.Hidden → obj.children = []
  hidden_iff : obj.unlinked = true ↔ obj.Hidden
  hidden_rename : obj.Hidden → obj.renameAllowed = false
  softDel : obj.softDel = true →
    obj.unlinked = true ∧ obj.variantType = .file ∧ obj.myInode = none
  deferedFree : obj.deferedFree = false

/-- The objects are in order. -/
structure TidyBut (loose : Option Nat) : Prop where
  sound : vol.forest.Sound isTop
  directory : ∀ number obj dir, vol.objs number = some obj → obj.parent = some dir →
    ∃ dirObj, vol.objs dir = some dirObj ∧ dirObj.variantType = .directory
  fixed : ∀ number, isTop number ∨ number = objectIdLostNFound → ∃ obj, vol.objs number = some obj ∧
    obj.variantType = .directory ∧ obj.renameAllowed = false ∧ obj.unlinkAllowed = false ∧
    obj.unlinked = false
  node : ∀ number obj, vol.objs number = some obj → vol.NodeTidy loose number obj

/-- The hash buckets hold the numbers of the objects. -/
structure Hashed : Prop where
  bucket : ∀ number, (vol.objs number).isSome ↔ number ∈ vol.objBucket (hashFn number)
  nodup : ∀ bucket, (vol.objBucket bucket).Nodup

/-- The objects are in order, and no links are just being changed. -/
structure Tidy : Prop extends vol.TidyBut none, vol.Hashed

variable {vol} {loose : Option Nat} {after : Volume Store}

/-! ## Changes that leave the shape alone -/

/-- The objects look the same in a certain view. -/
structure Same (view : Node → Node) (before after : Volume Store) : Prop where
  view_eq : ∀ number, (after.objs number).map view = (before.objs number).map view
  bucket : after.objBucket = before.objBucket

/-- The objects keep their shapes. -/
abbrev SameShape (before after : Volume Store) : Prop := Same Node.shape before after

variable {view : Node → Node}

theorem Same.refl : Same view vol vol := ⟨fun _ => rfl, rfl⟩

theorem Same.trans {last : Volume Store} (first : Same view vol after)
    (second : Same view after last) : Same view vol last :=
  ⟨fun number => (second.view_eq number).trans (first.view_eq number),
    second.bucket.trans first.bucket⟩

theorem Same.symm (same : Same view vol after) : Same view after vol :=
  ⟨fun number => (same.view_eq number).symm, same.bucket.symm⟩

/-- An object found after the change was there before. -/
theorem Same.find (same : Same view vol after) {number : Nat} {obj : Node}
    (found : after.objs number = some obj) :
    ∃ old, vol.objs number = some old ∧ view obj = view old := by
  have eq := same.view_eq number
  rw [found] at eq
  cases found' : vol.objs number with
  | none => simp [found'] at eq
  | some old => exact ⟨old, rfl, by simpa [found'] using eq⟩

theorem Same.modify (number : Nat) {change : Node → Node}
    (same : ∀ obj, view (change obj) = view obj) : Same view vol (vol.modify number change) where
  view_eq other := by
    by_cases eq : other = number
    · subst eq
      simp [Volume.modify, Option.map_map, Function.comp_def, same]
    · simp [Volume.modify, eq]
  bucket := rfl

theorem Same.skeleton (same : SameShape vol after) : Same Node.skeleton vol after where
  view_eq number := by
    have eq := congrArg (Option.map fun obj : Node => { obj with softDel := false, myInode := none })
      (same.view_eq number)
    rw [Option.map_map, Option.map_map] at eq
    exact eq
  bucket := same.bucket

theorem Same.frame (same : Same Node.skeleton vol after) : Same Node.frame vol after where
  view_eq number := by
    have eq := congrArg (Option.map fun obj : Node => { obj with equivObj := none, hardLinks := [] })
      (same.view_eq number)
    rw [Option.map_map, Option.map_map] at eq
    exact eq
  bucket := same.bucket

theorem Same.forest_eq (same : Same Node.frame vol after) : after.forest = vol.forest := by
  have live (number : Nat) : (after.objs number).isSome = (vol.objs number).isSome := by
    simpa using congrArg Option.isSome (same.view_eq number)
  have parent (number : Nat) : after.parentOf number = vol.parentOf number := by
    have eq := congrArg (fun shape => shape.bind Node.parent) (same.view_eq number)
    simpa [Option.bind_map, Function.comp_def, Node.frame, Node.skeleton, Node.shape, parentOf] using eq
  have children (number : Nat) : (after.objs number).map Node.children =
      (vol.objs number).map Node.children := by
    have eq := congrArg (fun shape => shape.map Node.children) (same.view_eq number)
    simpa [Option.map_map, Function.comp_def, Node.frame, Node.skeleton, Node.shape] using eq
  simp only [forest, live, funext parent, children]

/-- What the inode and the mark of a soft deleted file have to be like. -/
structure Node.Marked (obj : Node) : Prop where
  inode : obj.variantType = .hardlink → obj.myInode = none
  softDel : obj.softDel = true →
    obj.unlinked = true ∧ obj.variantType = .file ∧ obj.myInode = none

theorem NodeTidy.marked {number : Nat} {obj : Node} (tidy : vol.NodeTidy loose number obj) :
    Node.Marked obj :=
  ⟨fun is_link => (tidy.hardlink is_link).2, tidy.softDel⟩

theorem NodeTidy.of_skeleton (same : Same Node.skeleton vol after) {number : Nat} {obj old : Node}
    (tidy : vol.NodeTidy loose number old) (eq : obj.skeleton = old.skeleton)
    (marked : Node.Marked obj) : after.NodeTidy loose number obj := by
  obtain ⟨type, parent, equiv, unlinked, rename, -, defered, children, links⟩ :=
    Node.skeleton_eq_iff.mp eq
  constructor
  case softDel => exact marked.softDel
  all_goals
    simp only [links, type, equiv, children, unlinked, defered, rename, Node.hidden_congr parent]
  case ring =>
    intro link link_mem
    obtain ⟨linkObj, found, is_link, link_equiv, visible⟩ := tidy.ring link link_mem
    obtain ⟨linkObj', found', eq'⟩ := same.symm.find found
    obtain ⟨type', parent', equiv', -⟩ := Node.skeleton_eq_iff.mp eq'
    exact ⟨linkObj', found', type'.symm.trans is_link, equiv'.symm.trans link_equiv,
      fun hidden => visible ((Node.hidden_congr parent').mpr hidden)⟩
  case linked =>
    intro is_link visible not_loose equiv eq_equiv
    obtain ⟨equivObj, found, in_ring⟩ := tidy.linked is_link visible not_loose equiv eq_equiv
    obtain ⟨equivObj', found', eq'⟩ := same.symm.find found
    refine ⟨equivObj', found', ?_⟩
    obtain ⟨-, -, -, -, -, -, -, -, links'⟩ := Node.skeleton_eq_iff.mp eq'
    rwa [← links']
  case hardlink =>
    intro is_link
    exact ⟨(tidy.hardlink is_link).1, marked.inode (type.trans is_link)⟩
  case ring_nodup => exact tidy.ring_nodup
  case trash_ring => exact tidy.trash_ring
  case hidden_leaf => exact tidy.hidden_leaf
  case hidden_iff => exact tidy.hidden_iff
  case hidden_rename => exact tidy.hidden_rename
  case deferedFree => exact tidy.deferedFree

/-- A change of links, inodes and marks keeps the objects in order if these are in order. -/
theorem TidyBut.of_frame {loose' : Option Nat} (tidy : vol.TidyBut loose)
    (same : Same Node.frame vol after)
    (node : ∀ number obj, after.objs number = some obj → after.NodeTidy loose' number obj) :
    after.TidyBut loose' where
  sound := by
    rw [same.forest_eq]
    exact tidy.sound
  directory number obj dir found parent := by
    obtain ⟨old, found', eq⟩ := same.find found
    obtain ⟨-, parent_eq, -⟩ := Node.frame_eq_iff.mp eq
    obtain ⟨dirObj, dir_found, is_dir⟩ :=
      tidy.directory number old dir found' (parent_eq.symm.trans parent)
    obtain ⟨dirObj', dir_found', eq'⟩ := same.symm.find dir_found
    obtain ⟨type', -⟩ := Node.frame_eq_iff.mp eq'
    exact ⟨dirObj', dir_found', type'.symm.trans is_dir⟩
  fixed number isFixed := by
    obtain ⟨obj, found, type, rename, unlink, unlinked⟩ := tidy.fixed number isFixed
    obtain ⟨obj', found', eq⟩ := same.symm.find found
    obtain ⟨type', -, unlinked', rename', unlink', -⟩ := Node.frame_eq_iff.mp eq
    exact ⟨obj', found', type'.symm.trans type, rename'.symm.trans rename,
      unlink'.symm.trans unlink, unlinked'.symm.trans unlinked⟩
  node := node

theorem TidyBut.of_skeleton (tidy : vol.TidyBut loose) (same : Same Node.skeleton vol after)
    (marked : ∀ number obj, after.objs number = some obj → Node.Marked obj) :
    after.TidyBut loose := by
  refine tidy.of_frame same.frame fun number obj found => ?_
  obtain ⟨old, found', eq⟩ := same.find found
  exact (tidy.node number old found').of_skeleton same eq (marked number obj found)

theorem Hashed.of_same (hashed : vol.Hashed) (same : Same view vol after) : after.Hashed where
  bucket number := by
    have eq := congrArg Option.isSome (same.view_eq number)
    simp only [Option.isSome_map] at eq
    rw [same.bucket, ← hashed.bucket number, eq]
  nodup bucket := same.bucket ▸ hashed.nodup bucket

theorem TidyBut.of_shape (tidy : vol.TidyBut loose) (same : SameShape vol after) :
    after.TidyBut loose := by
  refine tidy.of_skeleton same.skeleton fun number obj found => ?_
  obtain ⟨old, found', eq⟩ := same.find found
  obtain ⟨type, -, -, soft, unlinked, -, -, -, inode⟩ :=
    Node.core_eq_iff.mp (Node.shape_eq_iff.mp eq).1
  have marked := (tidy.node number old found').marked
  exact ⟨by rw [type, inode]; exact marked.inode,
    by rw [soft, unlinked, type, inode]; exact marked.softDel⟩

theorem Tidy.of_shape (tidy : vol.Tidy) (same : SameShape vol after) : after.Tidy :=
  { tidy.toTidyBut.of_shape same, tidy.toHashed.of_same same with }

/-! ## What an operation leaves alone -/

/-- An operation changes the objects that it touches.  Others keep everything but their lists, unless
they are soft deleted files, which may go, and no object goes as long as an inode holds it.  No object
is new or changes its type or its inode.  The lists of links stay the same if the operation does not
change links. -/
structure Changes (touched : Nat → Prop) (relinks : Prop) (before after : Volume Store) : Prop where
  kept : ∀ number obj, before.objs number = some obj → ¬touched number → obj.softDel = false →
    ∃ obj', after.objs number = some obj' ∧ obj'.core = obj.core ∧
      (¬relinks → obj'.hardLinks = obj.hardLinks)
  held : ∀ number obj, before.objs number = some obj → obj.myInode.isSome →
    ∃ obj', after.objs number = some obj' ∧ obj'.myInode = obj.myInode ∧
      obj'.variantType = obj.variantType
  known : ∀ number obj', after.objs number = some obj' → ∃ obj, before.objs number = some obj ∧
    obj'.variantType = obj.variantType ∧ obj'.myInode = obj.myInode ∧
    (¬touched number → obj'.core = obj.core)

variable {touched : Nat → Prop} {relinks : Prop}

theorem Changes.mono {more : Nat → Prop} {relinks' : Prop}
    (changes : Changes touched relinks vol after)
    (weaker : ∀ number, touched number → more number) (weaker' : relinks → relinks') :
    Changes more relinks' vol after where
  kept number obj found untouched soft := by
    obtain ⟨obj', found', core, links⟩ :=
      changes.kept number obj found (fun touches => untouched (weaker number touches)) soft
    exact ⟨obj', found', core, fun not_relinks => links (fun relinks => not_relinks (weaker' relinks))⟩
  held := changes.held
  known number obj' found' := by
    obtain ⟨obj, found, type, inode, core⟩ := changes.known number obj' found'
    exact ⟨obj, found, type, inode,
      fun untouched => core fun touches => untouched (weaker number touches)⟩

theorem Same.changes (same : SameShape vol after) : Changes touched relinks vol after where
  kept number obj found _ _ := by
    obtain ⟨obj', found', eq⟩ := same.symm.find found
    obtain ⟨core, -, links⟩ := Node.shape_eq_iff.mp eq
    exact ⟨obj', found', core.symm, fun _ => links.symm⟩
  held number obj found _ := by
    obtain ⟨obj', found', eq⟩ := same.symm.find found
    obtain ⟨type, -, -, -, -, -, -, -, inode⟩ := Node.core_eq_iff.mp (Node.shape_eq_iff.mp eq).1
    exact ⟨obj', found', inode.symm, type.symm⟩
  known number obj' found' := by
    obtain ⟨obj, found, eq⟩ := same.find found'
    have core := (Node.shape_eq_iff.mp eq).1
    obtain ⟨type, -, -, -, -, -, -, -, inode⟩ := Node.core_eq_iff.mp core
    exact ⟨obj, found, type, inode, fun _ => core⟩

theorem Changes.refl : Changes touched relinks vol vol := (Same.refl : SameShape vol vol).changes

theorem Changes.trans {last : Volume Store} (first : Changes touched relinks vol after)
    (second : Changes touched relinks after last) : Changes touched relinks vol last where
  kept number obj found untouched soft := by
    obtain ⟨mid, found', eq, links⟩ := first.kept number obj found untouched soft
    have soft' : mid.softDel = false := by
      rw [(Node.core_eq_iff.mp eq).2.2.2.1, soft]
    obtain ⟨obj', found'', eq', links'⟩ := second.kept number mid found' untouched soft'
    exact ⟨obj', found'', eq'.trans eq, fun no => (links' no).trans (links no)⟩
  held number obj found inode := by
    obtain ⟨mid, found', inode', type'⟩ := first.held number obj found inode
    obtain ⟨obj', found'', inode'', type''⟩ :=
      second.held number mid found' (by rw [inode']; exact inode)
    exact ⟨obj', found'', inode''.trans inode', type''.trans type'⟩
  known number obj' found'' := by
    obtain ⟨mid, found', type', inode', core'⟩ := second.known number obj' found''
    obtain ⟨obj, found, type, inode, core⟩ := first.known number mid found'
    exact ⟨obj, found, type'.trans type, inode'.trans inode,
      fun untouched => (core' untouched).trans (core untouched)⟩

/-! ## Moving an object -/

/-- An object after `number` has been moved into `directory`. -/
def moved (directory number other : Nat) (obj : Node) : Node :=
  { obj with
    children :=
      if other = directory then number :: obj.children.erase number else obj.children.erase number
    parent := if other = number then some directory else obj.parent
    unlinked := decide (other = number ∧ isTrash directory) || obj.unlinked
    renameAllowed := !decide (other = number ∧ isTrash directory) && obj.renameAllowed }

theorem mem_children_iff (tidy : vol.TidyBut loose) {number directory : Nat} {obj dirObj : Node}
    (found : vol.objs number = some obj) (dir_found : vol.objs directory = some dirObj) :
    number ∈ dirObj.children ↔ obj.parent = some directory := by
  have listed := tidy.sound.listed number directory
  simpa [forest, parentOf, found, dir_found] using listed.symm

theorem modify_objs (number other : Nat) (change : Node → Node) :
    (vol.modify number change).objs other =
      (vol.objs other).map fun obj => if other = number then change obj else obj := by
  by_cases eq : other = number
  · subst eq
    simp [Volume.modify]
  · simp [Volume.modify, eq]

theorem removeObjFromDir_objs (tidy : vol.TidyBut loose) {number : Nat} {obj : Node}
    (found : vol.objs number = some obj) (other : Nat) :
    (vol.removeObjFromDir number).objs other = (vol.objs other).map fun otherObj =>
      { otherObj with
        children := otherObj.children.erase number
        parent := if other = number then none else otherObj.parent } := by
  have erase_eq {otherObj : Node} (found' : vol.objs other = some otherObj)
      (ne : obj.parent ≠ some other) : otherObj.children.erase number = otherObj.children := by
    refine List.erase_of_not_mem ?_
    rwa [mem_children_iff tidy found found']
  have parent_eq : vol.parentOf number = obj.parent := by simp [parentOf, found]
  rw [removeObjFromDir, modify_objs, parent_eq]
  cases up : obj.parent with
  | none =>
    refine Option.map_congr fun otherObj found' => ?_
    rw [erase_eq found' (by simp [up])]
    by_cases same : other = number <;> simp [same]
  | some directory =>
    simp only [modify_objs, Option.map_map]
    refine Option.map_congr fun otherObj found' => ?_
    by_cases here : other = directory
    · simp only [Function.comp_apply, if_pos here]
      split <;> rfl
    · rw [erase_eq found' (by simpa [up] using Ne.symm here)]
      simp only [Function.comp_apply, if_neg here]
      split <;> rfl

theorem addObjToDir_objs (tidy : vol.TidyBut loose) {number directory : Nat} {obj : Node}
    (found : vol.objs number = some obj) (other : Nat) :
    (vol.addObjToDir directory number).objs other =
      (vol.objs other).map (moved directory number other) := by
  have removed := removeObjFromDir_objs tidy found other
  simp only [addObjToDir]
  split
  case isTrue trash =>
    have trash' : isTrash directory := trash
    simp only [modify_objs, removed, Option.map_map]
    refine Option.map_congr fun otherObj found' => ?_
    by_cases here : other = directory
    · by_cases same : other = number
      · simp [moved, eq_true here, eq_true trash', eq_true same]
      · simp [moved, eq_true here, eq_false same]
    · by_cases same : other = number
      · simp [moved, eq_false here, eq_true trash', eq_true same]
      · simp [moved, eq_false here, eq_false same]
  case isFalse kept =>
    have kept' : ¬isTrash directory := kept
    simp only [modify_objs, removed, Option.map_map]
    refine Option.map_congr fun otherObj found' => ?_
    by_cases here : other = directory
    · by_cases same : other = number
      · simp [moved, eq_true here, eq_false kept', eq_true same]
      · simp [moved, eq_true here, eq_false same]
    · by_cases same : other = number
      · simp [moved, eq_false here, eq_false kept', eq_true same]
      · simp [moved, eq_false here, eq_false same]

@[simp]
theorem removeObjFromDir_objBucket (number : Nat) :
    (vol.removeObjFromDir number).objBucket = vol.objBucket := by
  rw [removeObjFromDir]
  split <;> rfl

@[simp]
theorem addObjToDir_objBucket (directory number : Nat) :
    (vol.addObjToDir directory number).objBucket = vol.objBucket := by
  have removed := @removeObjFromDir_objBucket Store vol number
  rw [addObjToDir]
  split <;> exact removed

@[simp]
theorem moved_variantType (directory number other : Nat) (obj : Node) :
    (moved directory number other obj).variantType = obj.variantType := rfl

theorem moved_hidden_iff {directory number other : Nat} {obj : Node} :
    (moved directory number other obj).Hidden ↔
      if other = number then isTrash directory else obj.Hidden := by
  by_cases same : other = number <;> simp [Node.Hidden, moved, same]

theorem forest_addObjToDir (tidy : vol.TidyBut loose) {number directory : Nat} {obj : Node}
    (found : vol.objs number = some obj) {dirObj : Node}
    (dir_found : vol.objs directory = some dirObj) :
    (vol.addObjToDir directory number).forest = vol.forest.move number directory := by
  have objs (other : Nat) : (vol.addObjToDir directory number).objs other = _ :=
    addObjToDir_objs tidy found other
  have parent (other : Nat) : (vol.addObjToDir directory number).parentOf other =
      Function.update vol.parentOf number (some directory) other := by
    rw [parentOf, objs]
    by_cases same : other = number
    · subst same
      simp [found, moved]
    · cases found' : vol.objs other <;> simp [same, found', moved, parentOf]
  have children (other : Nat) : (((vol.addObjToDir directory number).objs other).map
      Node.children).getD [] = (vol.forest.move number directory).children other := by
    rw [objs]
    cases found' : vol.objs other with
    | none =>
      have ne : other ≠ directory := by rintro rfl; simp [dir_found] at found'
      simp [Forest.move, forest, found', ne]
    | some otherObj => simp [Forest.move, forest, found', moved]
  have live (other : Nat) : ((vol.addObjToDir directory number).objs other).isSome =
      (vol.objs other).isSome := by
    rw [objs, Option.isSome_map]
  simp only [forest, Forest.move, funext parent, live]
  exact congrArg _ (funext children)

theorem addObjToDir_find (tidy : vol.TidyBut loose) {number directory : Nat} {obj : Node}
    (found : vol.objs number = some obj) {other : Nat} {otherObj : Node}
    (found' : (vol.addObjToDir directory number).objs other = some otherObj) :
    ∃ old, vol.objs other = some old ∧ moved directory number other old = otherObj := by
  rw [addObjToDir_objs tidy found] at found'
  simpa using found'

/-- An object may be moved anywhere but below itself.  What has no links may go to the objects that
are no longer in use, and nothing comes back from there. -/
theorem TidyBut.addObjToDir (tidy : vol.TidyBut loose) {number directory : Nat} {obj dirObj : Node}
    (found : vol.objs number = some obj) (movable : ¬isTop number ∧ number ≠ objectIdLostNFound)
    (dir_found : vol.objs directory = some dirObj) (is_dir : dirObj.variantType = .directory)
    (away : ¬Forest.Above vol.parentOf number directory)
    (visible : ¬isTrash directory → ¬dirObj.Hidden ∧ ¬obj.Hidden)
    (trash : isTrash directory → obj.hardLinks = [] ∧ obj.children = [] ∧
      ∀ other otherObj, vol.objs other = some otherObj → number ∉ otherObj.hardLinks) :
    (vol.addObjToDir directory number).TidyBut loose where
  sound := by
    rw [forest_addObjToDir tidy found dir_found]
    exact tidy.sound.move (by simp [forest, found]) movable.1 (by simp [forest, dir_found]) away
  directory other otherObj' dir found' up := by
    obtain ⟨otherObj, old_found, rfl⟩ := addObjToDir_find tidy found found'
    have dir_is_dir : ∃ dirObj, vol.objs dir = some dirObj ∧ dirObj.variantType = .directory := by
      by_cases same : other = number
      · obtain rfl : directory = dir := by simpa [moved, same] using up
        exact ⟨dirObj, dir_found, is_dir⟩
      · exact tidy.directory other otherObj dir old_found (by simpa [moved, same] using up)
    obtain ⟨old, old_dir_found, type⟩ := dir_is_dir
    exact ⟨moved directory number dir old, by rw [addObjToDir_objs tidy found, old_dir_found]; rfl,
      type⟩
  fixed other isFixed := by
    obtain ⟨otherObj, found', type, rename, unlink, unlinked⟩ := tidy.fixed other isFixed
    have ne : other ≠ number := by
      rintro rfl
      exact isFixed.elim movable.1 movable.2
    refine ⟨moved directory number other otherObj, by rw [addObjToDir_objs tidy found, found']; rfl,
      type, ?_, unlink, ?_⟩
    · simp [moved, rename]
    · simp [moved, ne, unlinked]
  node other otherObj' found' := by
    obtain ⟨otherObj, old_found, rfl⟩ := addObjToDir_find tidy found found'
    have node := tidy.node other otherObj old_found
    have hidden (other : Nat) (otherObj : Node) :
        (moved directory number other otherObj).Hidden ↔ _ := moved_hidden_iff
    have obj_eq (same : other = number) : otherObj = obj := by
      subst same
      exact Option.some.inj (old_found.symm.trans found)
    constructor
    case ring =>
      intro link link_mem
      obtain ⟨linkObj, link_found, is_link, equiv, link_visible⟩ := node.ring link link_mem
      refine ⟨moved directory number link linkObj,
        by rw [addObjToDir_objs tidy found, link_found]; rfl, is_link, equiv, ?_⟩
      rw [hidden]
      split
      case isTrue same =>
        subst same
        exact fun isTrash => (trash isTrash).2.2 other otherObj old_found link_mem
      case isFalse => exact link_visible
    case linked =>
      intro is_link not_hidden not_loose equiv eq_equiv
      have not_hidden' : ¬otherObj.Hidden := by
        rw [hidden] at not_hidden
        by_cases same : other = number
        · rw [if_pos same] at not_hidden
          rw [obj_eq same]
          exact (visible not_hidden).2
        · rwa [if_neg same] at not_hidden
      obtain ⟨equivObj, equiv_found, in_ring⟩ :=
        node.linked is_link not_hidden' not_loose equiv eq_equiv
      exact ⟨moved directory number equiv equivObj,
        by rw [addObjToDir_objs tidy found, equiv_found]; rfl, in_ring⟩
    case trash_ring =>
      intro gone
      by_cases same : other = number
      · by_cases isTrash : isTrash directory
        · rw [obj_eq same]
          exact (trash isTrash).1
        · refine node.trash_ring (.inr (gone.resolve_left ?_))
          rwa [hidden, if_pos same]
      · refine node.trash_ring ?_
        rwa [hidden, if_neg same] at gone
    case hidden_leaf =>
      intro gone
      rw [hidden] at gone
      by_cases same : other = number
      · rw [if_pos same] at gone
        have ne : other ≠ directory := by
          rintro rfl
          subst same
          exact away .refl
        simp [moved, ne, obj_eq same, (trash gone).2.1]
      · rw [if_neg same] at gone
        have ne : other ≠ directory := by
          rintro rfl
          obtain rfl := Option.some.inj (old_found.symm.trans dir_found)
          by_cases isTrash : isTrash other
          · obtain ⟨dir, -, up⟩ := gone
            have orphan := tidy.sound.orphan other isTrash.isTop
            simp [forest, parentOf, old_found, up] at orphan
          · exact (visible isTrash).1 gone
        simp [moved, ne, node.hidden_leaf gone]
    case hidden_iff =>
      rw [hidden]
      by_cases same : other = number
      · rw [if_pos same]
        by_cases isTrash : isTrash directory
        · simp [moved, same, isTrash]
        · have visible' := (visible isTrash).2
          rw [← obj_eq same, ← node.hidden_iff] at visible'
          simp [moved, isTrash, visible']
      · rw [if_neg same, ← node.hidden_iff]
        simp [moved, same]
    case hidden_rename =>
      intro gone
      rw [hidden] at gone
      by_cases same : other = number
      · rw [if_pos same] at gone
        simp [moved, same, gone]
      · rw [if_neg same] at gone
        simp [moved, node.hidden_rename gone]
    case softDel =>
      intro soft
      obtain ⟨unlinked, rest⟩ := node.softDel soft
      exact ⟨by simp [moved, unlinked], rest⟩
    case ring_nodup => exact node.ring_nodup
    case hardlink => exact node.hardlink
    case deferedFree => exact node.deferedFree

theorem addObjToDir_changes (tidy : vol.TidyBut loose) {number directory : Nat} {obj : Node}
    (found : vol.objs number = some obj) :
    Changes (· = number) relinks vol (vol.addObjToDir directory number) where
  kept other otherObj found' ne _ := by
    refine ⟨moved directory number other otherObj,
      by rw [addObjToDir_objs tidy found, found']; rfl, ?_, fun _ => rfl⟩
    simp [Node.core_eq_iff, moved, ne]
  held other otherObj found' _ :=
    ⟨moved directory number other otherObj,
      by rw [addObjToDir_objs tidy found, found']; rfl, rfl, rfl⟩
  known other otherObj' found' := by
    obtain ⟨otherObj, old_found, rfl⟩ := addObjToDir_find tidy found found'
    exact ⟨otherObj, old_found, rfl, rfl, fun ne => by simp [Node.core_eq_iff, moved, ne]⟩

theorem Hashed.addObjToDir (hashed : vol.Hashed) (tidy : vol.TidyBut loose)
    {number directory : Nat} {obj : Node} (found : vol.objs number = some obj) :
    (vol.addObjToDir directory number).Hashed where
  bucket other := by
    rw [addObjToDir_objs tidy found, Option.isSome_map, addObjToDir_objBucket]
    exact hashed.bucket other
  nodup bucket := by
    rw [addObjToDir_objBucket]
    exact hashed.nodup bucket

/-! ## Taking a link away -/

theorem modify_find {number other : Nat} {change : Node → Node} {otherObj : Node}
    (found : (vol.modify number change).objs other = some otherObj) :
    ∃ old, vol.objs other = some old ∧ (if other = number then change old else old) = otherObj := by
  rw [modify_objs] at found
  simpa using found

theorem modify_found {number other : Nat} (change : Node → Node) {otherObj : Node}
    (found : vol.objs other = some otherObj) : (vol.modify number change).objs other =
      some (if other = number then change otherObj else otherObj) := by
  rw [modify_objs, found]
  rfl

theorem modify_self {number : Nat} (change : Node → Node) {obj : Node}
    (found : vol.objs number = some obj) :
    (vol.modify number change).objs number = some (change obj) :=
  (modify_found change found).trans (congrArg some (if_pos rfl))

/-- An object without one of its links. -/
def eraseLink (link : Nat) (obj : Node) : Node := { obj with hardLinks := obj.hardLinks.erase link }

theorem same_eraseLink (owner link : Nat) :
    Same Node.frame vol (vol.modify owner (eraseLink link)) :=
  Same.modify owner fun _ => rfl

/-- A link that is taken from the links of an object is loose. -/
theorem TidyBut.eraseLink (tidy : vol.TidyBut none) (owner link : Nat) :
    (vol.modify owner (eraseLink link)).TidyBut (some link) := by
  have same : Same Node.frame vol (vol.modify owner (Volume.eraseLink link)) :=
    same_eraseLink owner link
  have erased (number : Nat) (obj : Node) :
      (if number = owner then Volume.eraseLink link obj else obj) =
        { obj with
          hardLinks := if number = owner then obj.hardLinks.erase link else obj.hardLinks } := by
    split <;> rfl
  refine tidy.of_frame same fun number obj' found' => ?_
  obtain ⟨obj, found, rfl⟩ := modify_find found'
  have node := tidy.node number obj found
  have sub : ∀ other ∈ (if number = owner then obj.hardLinks.erase link else obj.hardLinks),
      other ∈ obj.hardLinks := by
    split
    · exact fun other => List.mem_of_mem_erase
    · exact fun other => id
  rw [erased]
  constructor
  case ring =>
    intro other other_mem
    obtain ⟨otherObj, other_found, rest⟩ := node.ring other (sub other other_mem)
    refine ⟨_, modify_found _ other_found, ?_⟩
    rw [erased]
    exact rest
  case ring_nodup =>
    dsimp only
    split
    · exact node.ring_nodup.erase link
    · exact node.ring_nodup
  case linked =>
    intro is_link visible not_loose equiv eq_equiv
    obtain ⟨equivObj, equiv_found, in_ring⟩ := node.linked is_link visible (by simp) equiv eq_equiv
    refine ⟨_, modify_found _ equiv_found, ?_⟩
    rw [erased]
    dsimp only
    split
    · have ne : number ≠ link := by
        rintro rfl
        exact not_loose rfl
      exact (List.mem_erase_of_ne ne).mpr in_ring
    · exact in_ring
  case hardlink =>
    intro is_link
    obtain ⟨links, inode⟩ := node.hardlink is_link
    exact ⟨List.eq_nil_iff_forall_not_mem.mpr fun other other_mem => by
      simpa [links] using sub other other_mem, inode⟩
  case trash_ring =>
    intro gone
    exact List.eq_nil_iff_forall_not_mem.mpr fun other other_mem => by
      simpa [node.trash_ring gone] using sub other other_mem
  case hidden_leaf => exact node.hidden_leaf
  case hidden_iff => exact node.hidden_iff
  case hidden_rename => exact node.hidden_rename
  case softDel => exact node.softDel
  case deferedFree => exact node.deferedFree

/-- The link is then in no list of links. -/
theorem not_linked_eraseLink (tidy : vol.TidyBut none) {owner link : Nat} {linkObj : Node}
    (link_found : vol.objs link = some linkObj) (equiv : linkObj.equivObj = some owner)
    (number : Nat) (obj : Node)
    (found : (vol.modify owner (Volume.eraseLink link)).objs number = some obj) :
    link ∉ obj.hardLinks := by
  obtain ⟨old, old_found, rfl⟩ := modify_find found
  have node := tidy.node number old old_found
  by_cases here : number = owner
  · rw [if_pos here]
    exact fun in_ring => (node.ring_nodup.mem_erase_iff.mp in_ring).1 rfl
  · rw [if_neg here]
    intro in_ring
    obtain ⟨linkObj', link_found', -, equiv', -⟩ := node.ring link in_ring
    obtain rfl := Option.some.inj (link_found.symm.trans link_found')
    exact here (Option.some.inj (equiv'.symm.trans equiv))

theorem eraseLink_changes (owner link : Nat) :
    Changes (fun _ => False) True vol (vol.modify owner (eraseLink link)) where
  kept number obj found _ _ := by
    refine ⟨_, modify_found _ found, ?_, fun no => absurd trivial no⟩
    split <;> rfl
  held number obj found _ := by
    refine ⟨_, modify_found _ found, ?_⟩
    split <;> exact ⟨rfl, rfl⟩
  known number obj found := by
    obtain ⟨old, old_found, rfl⟩ := modify_find found
    refine ⟨old, old_found, ?_⟩
    split <;> exact ⟨rfl, rfl, fun _ => rfl⟩

/-! ## Freeing an object -/

/-- An object that has been taken out of its directory and freed. -/
structure Dropped (number : Nat) (before after : Volume Store) : Prop where
  objs : ∀ other, after.objs other =
    if other = number then none
    else (before.objs other).map fun obj => { obj with children := obj.children.erase number }
  bucket : after.objBucket = Function.update before.objBucket (hashFn number)
    ((before.objBucket (hashFn number)).erase number)

theorem Dropped.find {number other : Nat} {otherObj : Node} (dropped : Dropped number vol after)
    (found : after.objs other = some otherObj) : other ≠ number ∧ ∃ old,
      vol.objs other = some old ∧ { old with children := old.children.erase number } = otherObj := by
  rw [dropped.objs] at found
  split at found
  case isTrue => simp at found
  case isFalse ne => exact ⟨ne, by simpa using found⟩

theorem Dropped.found {number other : Nat} {otherObj : Node} (dropped : Dropped number vol after)
    (found : vol.objs other = some otherObj) (ne : other ≠ number) :
    after.objs other = some { otherObj with children := otherObj.children.erase number } := by
  rw [dropped.objs, if_neg ne, found]
  rfl

theorem dropped_freeObj (tidy : vol.TidyBut loose) {number : Nat} {obj : Node}
    (found : vol.objs number = some obj) (inode : obj.myInode = none) {middle : Volume Store}
    (objs : middle.objs = (vol.removeObjFromDir number).objs)
    (bucket : middle.objBucket = vol.objBucket) : Dropped number vol (middle.freeObj number) := by
  have removed := removeObjFromDir_objs tidy found
  have free : ((middle.objs number).any fun obj => obj.myInode.isSome) = false := by
    rw [objs, removed, found]
    simp [inode]
  rw [freeObj, free, if_neg (by simp)]
  refine ⟨fun other => ?_, by simp only [bucket]⟩
  by_cases same : other = number
  · subst same
    simp
  · simp [same, objs, removed]

theorem Dropped.forest_eq {number : Nat}
    (dropped : Dropped number vol after) {obj : Node} (found : vol.objs number = some obj)
    (leaf : obj.children = []) : after.forest = vol.forest.drop number := by
  have live (other : Nat) : ((after.objs other).isSome = true) =
      (other ≠ number ∧ (vol.objs other).isSome = true) := by
    rw [dropped.objs]
    by_cases same : other = number <;> simp [same]
  have parent (other : Nat) :
      after.parentOf other = Function.update vol.parentOf number none other := by
    rw [parentOf, dropped.objs]
    by_cases same : other = number
    · subst same
      simp
    · cases found' : vol.objs other <;> simp [same, found', parentOf]
  have children (other : Nat) : ((after.objs other).map Node.children).getD [] =
      (vol.forest.drop number).children other := by
    rw [dropped.objs]
    by_cases same : other = number
    · subst same
      simp [Forest.drop, forest, found, leaf]
    · cases found' : vol.objs other <;> simp [same, found', Forest.drop, forest]
  simp only [forest, Forest.drop, funext parent, live]
  exact congrArg _ (funext children)

/-- An object may be freed if nothing is in it, no links lead to it and no inode holds it. -/
theorem TidyBut.of_dropped (tidy : vol.TidyBut loose) {number : Nat}
    (dropped : Dropped number vol after) {obj : Node} (found : vol.objs number = some obj)
    (movable : ¬isTop number ∧ number ≠ objectIdLostNFound) (leaf : obj.children = [])
    (no_links : obj.hardLinks = [])
    (no_link : ∀ other otherObj, vol.objs other = some otherObj → number ∉ otherObj.hardLinks)
    (only : loose = none ∨ loose = some number) : after.TidyBut none where
  sound := by
    rw [dropped.forest_eq found leaf]
    exact tidy.sound.drop movable.1 (by simp [forest, found, leaf])
  directory other otherObj' dir found' up := by
    obtain ⟨ne, otherObj, old_found, rfl⟩ := dropped.find found'
    obtain ⟨dirObj, dir_found, is_dir⟩ := tidy.directory other otherObj dir old_found up
    have dir_ne : dir ≠ number := by
      rintro rfl
      have listed := (mem_children_iff tidy old_found found).mpr up
      simp [leaf] at listed
    exact ⟨_, dropped.found dir_found dir_ne, is_dir⟩
  fixed other isFixed := by
    obtain ⟨otherObj, found', rest⟩ := tidy.fixed other isFixed
    have ne : other ≠ number := by
      rintro rfl
      exact isFixed.elim movable.1 movable.2
    exact ⟨_, dropped.found found' ne, rest⟩
  node other otherObj' found' := by
    obtain ⟨ne, otherObj, old_found, rfl⟩ := dropped.find found'
    have node := tidy.node other otherObj old_found
    constructor
    case ring =>
      intro link link_mem
      obtain ⟨linkObj, link_found, rest⟩ := node.ring link link_mem
      have link_ne : link ≠ number := by
        rintro rfl
        exact no_link other otherObj old_found link_mem
      exact ⟨_, dropped.found link_found link_ne, rest⟩
    case linked =>
      intro is_link not_hidden _ equiv eq_equiv
      have not_loose : loose ≠ some other := by
        rcases only with rfl | rfl
        · simp
        · simpa using Ne.symm ne
      obtain ⟨equivObj, equiv_found, in_ring⟩ :=
        node.linked is_link not_hidden not_loose equiv eq_equiv
      have equiv_ne : equiv ≠ number := by
        rintro rfl
        obtain rfl := Option.some.inj (equiv_found.symm.trans found)
        simp [no_links] at in_ring
      exact ⟨_, dropped.found equiv_found equiv_ne, in_ring⟩
    case hidden_leaf =>
      intro hidden
      have leaf' := node.hidden_leaf hidden
      simp [leaf']
    case ring_nodup => exact node.ring_nodup
    case hardlink => exact node.hardlink
    case trash_ring => exact node.trash_ring
    case hidden_iff => exact node.hidden_iff
    case hidden_rename => exact node.hidden_rename
    case softDel => exact node.softDel
    case deferedFree => exact node.deferedFree

theorem Hashed.of_dropped (hashed : vol.Hashed) {number : Nat} (dropped : Dropped number vol after) :
    after.Hashed where
  bucket other := by
    rw [dropped.objs, dropped.bucket]
    by_cases same : other = number
    · subst same
      simp [(hashed.nodup _).mem_erase_iff]
    · rw [if_neg same, Option.isSome_map, hashed.bucket other]
      by_cases together : hashFn other = hashFn number
      · simp [together, (hashed.nodup _).mem_erase_iff, same]
      · rw [Function.update_of_ne together]
  nodup bucket := by
    rw [dropped.bucket]
    by_cases here : bucket = hashFn number
    · subst here
      simpa using (hashed.nodup _).erase number
    · rw [Function.update_of_ne here]
      exact hashed.nodup bucket

theorem Dropped.changes {number : Nat} (dropped : Dropped number vol after) {obj : Node}
    (found : vol.objs number = some obj) (inode : obj.myInode = none) :
    Changes (· = number) relinks vol after where
  kept other otherObj found' ne _ := ⟨_, dropped.found found' ne, rfl, fun _ => rfl⟩
  held other otherObj found' held := by
    have ne : other ≠ number := by
      rintro rfl
      obtain rfl := Option.some.inj (found.symm.trans found')
      simp [inode] at held
    exact ⟨_, dropped.found found' ne, rfl, rfl⟩
  known other otherObj' found' := by
    obtain ⟨-, otherObj, old_found, rfl⟩ := dropped.find found'
    exact ⟨otherObj, old_found, rfl, rfl, fun _ => rfl⟩

end Volume

end Yaffs
